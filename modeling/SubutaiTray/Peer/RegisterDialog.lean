import Mathlib.Logic.Function.Basic
import SubutaiTray.Library.Runs
import SubutaiTray.Library.Splitting
import SubutaiTray.Qt.Numbers

/-!
The flags of the registration dialogs, `DlgRegisterPeer::dialog_used` and
`DlgRegisterPeer::dialog_running`.

The flags of a peer are found at a slot that is computed from its address in three
places. A request runs an event loop inside the slot function that sends it, so the
functions that wait for an answer form a stack, and the dialog of one may be destroyed
while it waits. All indices that are used into the two arrays are written down.
-/
namespace SubutaiTray.Peer

open Splitting

/-- What a running peer reports: the console port on the host, or its own address. -/
inductive PeerAddress where
  | port (n : Nat) (allocated : 9999 ≤ n)
  | ip (a b c d : Fin 256)

def PeerAddress.text : PeerAddress → QString
  | .port n _ => number n
  | .ip a b c d =>
      number a.val ++ '.' :: (number b.val ++ '.' :: (number c.val ++ '.' :: number d.val))

/-- `address.toInt() - 9999` -/
def slotOf (address : QString) : Int := toInt address - 9999

/-- The index of `DlgRegisterPeer::init`. -/
def initIndex (useIp : Bool) (localIp : QString) : Int :=
  if useIp then toInt ((split ['.'] localIp).getLastD []) + 9999 else toInt localIp

structure RegisterDialog where
  id : Nat
  mIpAddr : QString
  /-- `setRegistrationMode`, else `setUnregistrationMode` -/
  registers : Bool
  deriving DecidableEq

def RegisterDialog.slot (dialog : RegisterDialog) : Int := slotOf dialog.mIpAddr

/-- A call of `registerPeer` or `unregisterPeer` that waits for the token, or for the answer
to what it sent with the token. -/
structure PeerRequest where
  dialog : RegisterDialog
  sent : Bool
  deriving DecidableEq

/-- What happens to a slot: a dialog is opened or destroyed, its button is pressed, or an answer comes
after which nothing more is sent. -/
inductive SlotEvent where
  | opened (slot : Int)
  | closed (slot : Int)
  | pressed (slot : Int)
  | answered (slot : Int)
  deriving DecidableEq

/-- `indices`, `opened` and `history` only remember: the indices that were used, the slots of the dialogs
that were opened, and what happened, the latest first. -/
structure RegisterSlots where
  dialogUsed : Int → Bool
  dialogRunning : Int → Bool
  dialogs : List RegisterDialog
  requests : List PeerRequest
  created : Nat
  indices : List Int
  opened : List (PeerAddress × Int)
  history : List SlotEvent

def RegisterSlots.new : RegisterSlots where
  dialogUsed _ := false
  dialogRunning _ := false
  dialogs := []
  requests := []
  created := 0
  indices := []
  opened := []
  history := []

inductive DialogEvent where
  | openDialog (useIp : Bool) (address : PeerAddress) (registers : Bool)
  /-- `DlgPeer::enabled_peer_buttons` of a running peer -/
  | enabledPeerButtons (address : PeerAddress)
  | pressed (dialog : RegisterDialog) (peerName : QString)
  /-- The innermost request returns. -/
  | replied (errCode : Int)
  /-- `~DlgRegisterPeer` -/
  | closed (dialog : RegisterDialog)

namespace RegisterSlots

variable (isWord : Char → Bool)

def init (useIp : Bool) (address : PeerAddress) (registers : Bool) (s : RegisterSlots) :
    RegisterSlots :=
  let index := initIndex useIp address.text
  { s with
    dialogUsed := Function.update s.dialogUsed (index - 9999) true
    dialogs := ⟨s.created, number index, registers⟩ :: s.dialogs
    created := s.created + 1
    indices := (index - 9999) :: s.indices
    opened := (address, index - 9999) :: s.opened
    history := .opened (index - 9999) :: s.history }

/-- The name is checked in registration mode only. -/
def press (dialog : RegisterDialog) (peerName : QString) (s : RegisterSlots) : RegisterSlots :=
  let s :=
    { s with
      dialogRunning := Function.update s.dialogRunning dialog.slot true
      indices := dialog.slot :: s.indices
      history := .pressed dialog.slot :: s.history }
  if dialog.registers ∧ (peerName = [] ∨ peerName.any (fun c => !isWord c) ∨ '_' ∈ peerName) then s
  else { s with requests := ⟨dialog, false⟩ :: s.requests }

/-- What follows the innermost request; `rest` are the requests below it. -/
def reply (request : PeerRequest) (rest : List PeerRequest) (errCode : Int) (s : RegisterSlots) :
    RegisterSlots :=
  let slot := request.dialog.slot
  let s :=
    { s with
      indices := slot :: s.indices
      history := if errCode = 0 ∧ request.sent = false then s.history else .answered slot :: s.history }
  if s.dialogUsed slot = false then { s with requests := rest }
  else if errCode = 0 ∧ request.sent = false then
    { s with requests := ⟨request.dialog, true⟩ :: rest }
  else
    { s with
      dialogRunning := Function.update s.dialogRunning slot false
      requests := rest }

def close (dialog : RegisterDialog) (s : RegisterSlots) : RegisterSlots :=
  { s with
    dialogUsed := Function.update s.dialogUsed dialog.slot false
    dialogs := s.dialogs.erase dialog
    indices := dialog.slot :: s.indices
    history := .closed dialog.slot :: s.history }

/-- The buttons of a dialog are disabled while it waits. -/
def step (s : RegisterSlots) : DialogEvent → Option RegisterSlots
  | .openDialog useIp address registers => some (s.init useIp address registers)
  | .enabledPeerButtons address => some { s with indices := slotOf address.text :: s.indices }
  | .pressed dialog peerName =>
      if dialog ∈ s.dialogs ∧ ∀ request ∈ s.requests, request.dialog ≠ dialog then
        some (s.press isWord dialog peerName)
      else none
  | .replied errCode =>
      match s.requests with
      | [] => none
      | request :: rest => some (s.reply request rest errCode)
  | .closed dialog => if dialog ∈ s.dialogs then some (s.close dialog) else none

/-- A dialog of the slot is open or a request of one is in flight. -/
def busy (dialogs : List RegisterDialog) (requests : List PeerRequest) (slot : Int) : Bool :=
  dialogs.any (·.slot = slot) || requests.any (·.dialog.slot = slot)

structure Right (s : RegisterSlots) : Prop where
  inRange : ∀ index ∈ s.indices, 0 ≤ index ∧ index < 10000
  sameSlot : ∀ pair ∈ s.opened, slotOf pair.1.text = pair.2
  cleared : ∀ slot, busy s.dialogs s.requests slot = false →
    s.dialogUsed slot = false ∧ s.dialogRunning slot = false

end RegisterSlots

/-- The addresses for which the two arrays have a slot, in port addressing. -/
def PeerAddress.HasSlot : PeerAddress → Prop
  | .port n _ => n < 19999
  | .ip .. => False

/-- The latest opening of a dialog of the slot came after the latest destruction of one. -/
def inUse (slot : Int) : List SlotEvent → Bool
  | [] => false
  | .opened i :: history => i = slot || inUse slot history
  | .closed i :: history => i ≠ slot && inUse slot history
  | _ :: history => inUse slot history

/-- The button was pressed, and since then no last answer has come while a dialog of the slot was in
use. -/
def unsettled (slot : Int) : List SlotEvent → Bool
  | [] => false
  | .pressed i :: history => i = slot || unsettled slot history
  | .answered i :: history => !(i = slot && inUse slot history) && unsettled slot history
  | _ :: history => unsettled slot history

/-- The steps that leave the flags and the indices right. -/
def RegisterSlots.Harmless (s : RegisterSlots) : DialogEvent → Prop
  | .openDialog useIp address _ => useIp = false ∧ address.HasSlot
  | .enabledPeerButtons address => address.HasSlot
  | .pressed _ _ => True
  | .replied _ =>
      match s.requests with
      | [] => True
      | request :: rest =>
          busy s.dialogs rest request.dialog.slot = true ∨
            unsettled request.dialog.slot s.history = false
  | .closed dialog =>
      busy (s.dialogs.erase dialog) s.requests dialog.slot = true ∨
        unsettled dialog.slot s.history = false

theorem dot_notMem_number (n : Nat) : '.' ∉ number n :=
  notMem_number (by decide) (by decide) n

theorem toInt_number_append (n : Nat) (s : QString) : toInt (number n ++ '.' :: s) = 0 := by
  have hall := all_isDigit_toDigits n
  rw [number_natCast]
  cases heq : Nat.toDigits 10 n with
  | nil => exact absurd heq Nat.toDigits_ne_nil
  | cons c w =>
      rw [heq] at hall
      have hdigit : c.isDigit = true := List.all_eq_true.mp hall c List.mem_cons_self
      rw [List.cons_append, toInt_unsigned (isDigit_of_ascii hdigit), if_neg]
      simp

theorem slotOf_port (n : Nat) (h : 9999 ≤ n) :
    slotOf (PeerAddress.port n h).text = (if n < 2 ^ 31 then (n : Int) else 0) - 9999 := by
  rw [slotOf, PeerAddress.text, toInt_number_natCast]

theorem slotOf_ip (a b c d : Fin 256) : slotOf (PeerAddress.ip a b c d).text = -9999 := by
  rw [slotOf, PeerAddress.text, toInt_number_append]
  rfl

theorem initIndex_ip (a b c d : Fin 256) :
    initIndex true (PeerAddress.ip a b c d).text = d.val + 9999 := by
  have hsplit : split ['.'] (PeerAddress.ip a b c d).text =
      [number a.val, number b.val, number c.val, number d.val] := by
    have hdots : (PeerAddress.ip a b c d).text = number a.val ++ (['.'] ++ (number b.val ++
        (['.'] ++ (number c.val ++ (['.'] ++ number d.val))))) := rfl
    rw [hdots, split_append_sep (dot_notMem_number _) [],
      split_append_sep (dot_notMem_number _) [], split_append_sep (dot_notMem_number _) [],
      split_of_notMem (dot_notMem_number _)]
  rw [initIndex, if_pos rfl, hsplit]
  have hlast : [number a.val, number b.val, number c.val, number d.val].getLastD [] =
      number d.val := rfl
  rw [hlast, toInt_number_natCast, if_pos]
  omega

theorem initIndex_port (n : Nat) (h : 9999 ≤ n) :
    initIndex true (PeerAddress.port n h).text = toInt (number n) + 9999 := by
  rw [initIndex, if_pos rfl, PeerAddress.text, split_of_notMem (dot_notMem_number n)]
  rfl

theorem slotOf_inRange_iff (address : PeerAddress) :
    0 ≤ slotOf address.text ∧ slotOf address.text < 10000 ↔ address.HasSlot := by
  cases address with
  | port n h =>
      rw [slotOf_port, PeerAddress.HasSlot]
      split <;> omega
  | ip a b c d =>
      rw [slotOf_ip]
      exact iff_of_false (by decide) id

/-- The slot that the dialog opens is in the arrays and is the one that is tested. -/
theorem init_right_iff (useIp : Bool) (address : PeerAddress) :
    (0 ≤ initIndex useIp address.text - 9999 ∧ initIndex useIp address.text - 9999 < 10000) ∧
      slotOf address.text = initIndex useIp address.text - 9999 ↔
    useIp = false ∧ address.HasSlot := by
  cases useIp with
  | false =>
      have hsame : initIndex false address.text - 9999 = slotOf address.text := rfl
      rw [hsame, slotOf_inRange_iff]
      simp
  | true =>
      apply iff_of_false
      · cases address with
        | port n h =>
            rw [initIndex_port, toInt_number_natCast, slotOf_port]
            omega
        | ip a b c d =>
            rw [initIndex_ip, slotOf_ip]
            omega
      · simp

theorem slotOf_number {index : Int} (h : 0 ≤ index - 9999 ∧ index - 9999 < 10000) :
    slotOf (number index) = index - 9999 := by
  obtain ⟨n, rfl⟩ := Int.eq_ofNat_of_zero_le (show 0 ≤ index by omega)
  rw [slotOf, toInt_number_natCast, if_pos (by omega)]

namespace RegisterSlots

def InRange (s : RegisterSlots) : Prop := ∀ index ∈ s.indices, 0 ≤ index ∧ index < 10000

/-- Once an index was out of range nothing is known of the slots. -/
structure Inv (s : RegisterSlots) : Prop where
  dialogs : s.InRange → ∀ dialog ∈ s.dialogs, dialog.slot ∈ s.indices
  requests : s.InRange → ∀ request ∈ s.requests, request.dialog.slot ∈ s.indices
  used : s.InRange → ∀ slot, s.dialogUsed slot = true → ∃ dialog ∈ s.dialogs, dialog.slot = slot

/-- The arrays hold what happened to the slots. -/
structure Recorded (s : RegisterSlots) : Prop where
  used : ∀ slot, s.dialogUsed slot = inUse slot s.history
  running : ∀ slot, s.dialogRunning slot = unsettled slot s.history

variable {isWord : Char → Bool} {s s' : RegisterSlots}

theorem busy_eq_false_iff {dialogs : List RegisterDialog} {requests : List PeerRequest} {slot : Int} :
    busy dialogs requests slot = false ↔
      (∀ dialog ∈ dialogs, dialog.slot ≠ slot) ∧
        ∀ request ∈ requests, request.dialog.slot ≠ slot := by
  simp [busy]

theorem inv_new : new.Inv where
  dialogs _ _ h := absurd h List.not_mem_nil
  requests _ _ h := absurd h List.not_mem_nil
  used _ _ h := absurd h Bool.false_ne_true

theorem right_new : new.Right where
  inRange _ h := absurd h List.not_mem_nil
  sameSlot _ h := absurd h List.not_mem_nil
  cleared _ _ := ⟨rfl, rfl⟩

/-! ### A dialog opens -/

theorem inv_init (h : s.Inv) (useIp : Bool) (address : PeerAddress) (registers : Bool) :
    (s.init useIp address registers).Inv := by
  have hold (hrange : (s.init useIp address registers).InRange) : s.InRange :=
    fun index hmem => hrange index (List.mem_cons_of_mem _ hmem)
  have hslot (hrange : (s.init useIp address registers).InRange) :
      slotOf (number (initIndex useIp address.text)) = initIndex useIp address.text - 9999 :=
    slotOf_number (hrange _ List.mem_cons_self)
  constructor
  · intro hrange dialog hmem
    cases List.mem_cons.mp hmem with
    | inl heq =>
        rw [heq, RegisterDialog.slot, hslot hrange]
        exact List.mem_cons_self
    | inr hopen => exact List.mem_cons_of_mem _ (h.dialogs (hold hrange) dialog hopen)
  · intro hrange request hmem
    exact List.mem_cons_of_mem _ (h.requests (hold hrange) request hmem)
  · intro hrange slot hused
    by_cases heq : slot = initIndex useIp address.text - 9999
    · exact ⟨_, List.mem_cons_self, (hslot hrange).trans heq.symm⟩
    · simp only [init, Function.update_of_ne heq] at hused
      obtain ⟨dialog, hmem, hsame⟩ := h.used (hold hrange) slot hused
      exact ⟨dialog, List.mem_cons_of_mem _ hmem, hsame⟩

theorem right_init_iff (h : s.Right) (useIp : Bool) (address : PeerAddress) (registers : Bool) :
    (s.init useIp address registers).Right ↔ useIp = false ∧ address.HasSlot := by
  rw [← init_right_iff]
  constructor
  · intro hright
    exact ⟨hright.inRange _ List.mem_cons_self, hright.sameSlot _ List.mem_cons_self⟩
  · rintro ⟨hrange, hsame⟩
    constructor
    · intro index hmem
      cases List.mem_cons.mp hmem with
      | inl heq => exact heq ▸ hrange
      | inr hold => exact h.inRange index hold
    · intro pair hmem
      cases List.mem_cons.mp hmem with
      | inl heq => exact heq ▸ hsame
      | inr hold => exact h.sameSlot pair hold
    · intro slot hidle
      have hdialog : slotOf (number (initIndex useIp address.text)) ≠ slot :=
        (busy_eq_false_iff.mp hidle).1 _ List.mem_cons_self
      rw [slotOf_number hrange] at hdialog
      have hbefore : busy s.dialogs s.requests slot = false := by
        rw [busy_eq_false_iff] at hidle ⊢
        exact ⟨fun dialog hmem => hidle.1 dialog (List.mem_cons_of_mem _ hmem), hidle.2⟩
      simp only [init, Function.update_of_ne hdialog.symm]
      exact h.cleared slot hbefore

/-! ### The other steps -/

/-- The effect of a step that uses one index and opens no dialog. -/
structure Touches (index : Int) (s s' : RegisterSlots) : Prop where
  indices : s'.indices = index :: s.indices
  opened : s'.opened = s.opened
  dialogs : ∀ dialog ∈ s'.dialogs, dialog ∈ s.dialogs
  requests : ∀ request ∈ s'.requests,
    request.dialog ∈ s.dialogs ∨ ∃ before ∈ s.requests, before.dialog = request.dialog
  used : ∀ slot, s'.dialogUsed slot = true → s.dialogUsed slot = true ∧
    ∀ dialog ∈ s.dialogs, dialog.slot = slot → dialog ∈ s'.dialogs

variable {index : Int}

theorem Touches.inv (h : Touches index s s') (hinv : s.Inv) : s'.Inv := by
  have hold (hrange : s'.InRange) : s.InRange := by
    intro i hmem
    apply hrange
    rw [h.indices]
    exact List.mem_cons_of_mem _ hmem
  have hlogged {i : Int} (hmem : i ∈ s.indices) : i ∈ s'.indices := by
    rw [h.indices]
    exact List.mem_cons_of_mem _ hmem
  constructor
  · intro hrange dialog hmem
    exact hlogged (hinv.dialogs (hold hrange) dialog (h.dialogs dialog hmem))
  · intro hrange request hmem
    apply hlogged
    obtain hdialog | ⟨before, hbefore, hsame⟩ := h.requests request hmem
    · exact hinv.dialogs (hold hrange) _ hdialog
    · rw [← hsame]
      exact hinv.requests (hold hrange) before hbefore
  · intro hrange slot hused
    obtain ⟨hbefore, hkept⟩ := h.used slot hused
    obtain ⟨dialog, hmem, hslot⟩ := hinv.used (hold hrange) slot hbefore
    exact ⟨dialog, hkept dialog hmem hslot, hslot⟩

theorem Touches.right_iff (h : Touches index s s') (hright : s.Right) :
    s'.Right ↔ (0 ≤ index ∧ index < 10000) ∧
      ∀ slot, busy s'.dialogs s'.requests slot = false →
        s'.dialogUsed slot = false ∧ s'.dialogRunning slot = false := by
  constructor
  · intro hright'
    refine ⟨hright'.inRange index ?_, hright'.cleared⟩
    rw [h.indices]
    exact List.mem_cons_self
  · rintro ⟨hrange, hcleared⟩
    refine ⟨?_, ?_, hcleared⟩
    · intro i hmem
      rw [h.indices] at hmem
      cases List.mem_cons.mp hmem with
      | inl heq => exact heq ▸ hrange
      | inr hold => exact hright.inRange i hold
    · rw [h.opened]
      exact hright.sameSlot

theorem touches_enabledPeerButtons (index : Int) (s : RegisterSlots) :
    Touches index s { s with indices := index :: s.indices } where
  indices := rfl
  opened := rfl
  dialogs _ h := h
  requests request h := Or.inr ⟨request, h, rfl⟩
  used _ h := ⟨h, fun _ hmem _ => hmem⟩

theorem press_cases (dialog : RegisterDialog) (peerName : QString) (s : RegisterSlots) :
    ∃ requests, (requests = s.requests ∨ requests = ⟨dialog, false⟩ :: s.requests) ∧
      s.press isWord dialog peerName =
        { s with
          dialogRunning := Function.update s.dialogRunning dialog.slot true
          indices := dialog.slot :: s.indices
          history := .pressed dialog.slot :: s.history
          requests := requests } := by
  simp only [press]
  split
  · exact ⟨_, Or.inl rfl, rfl⟩
  · exact ⟨_, Or.inr rfl, rfl⟩

theorem touches_press {dialog : RegisterDialog} (hopen : dialog ∈ s.dialogs) (peerName : QString) :
    Touches dialog.slot s (s.press isWord dialog peerName) := by
  obtain ⟨requests, hrequests, heq⟩ := @press_cases isWord dialog peerName s
  rw [heq]
  constructor
  · rfl
  · rfl
  · exact fun _ h => h
  · intro request hmem
    cases hrequests with
    | inl hsame => exact Or.inr ⟨request, hsame ▸ hmem, rfl⟩
    | inr hnew =>
        simp only [hnew, List.mem_cons] at hmem
        cases hmem with
        | inl hrequest => exact Or.inl (hrequest ▸ hopen)
        | inr hold => exact Or.inr ⟨request, hold, rfl⟩
  · exact fun _ h => ⟨h, fun _ hmem _ => hmem⟩

theorem right_press (hinv : s.Inv) (hright : s.Right) {dialog : RegisterDialog}
    (hopen : dialog ∈ s.dialogs) (peerName : QString) :
    (s.press isWord dialog peerName).Right := by
  rw [(touches_press hopen peerName).right_iff hright]
  refine ⟨hright.inRange _ (hinv.dialogs hright.inRange dialog hopen), ?_⟩
  obtain ⟨requests, hrequests, heq⟩ := @press_cases isWord dialog peerName s
  rw [heq]
  intro slot hidle
  rw [busy_eq_false_iff] at hidle
  have hne : slot ≠ dialog.slot := fun h => hidle.1 dialog hopen h.symm
  have hbefore : busy s.dialogs s.requests slot = false := by
    rw [busy_eq_false_iff]
    refine ⟨hidle.1, fun request hmem => hidle.2 request ?_⟩
    cases hrequests with
    | inl hsame => exact hsame ▸ hmem
    | inr hnew => exact hnew ▸ List.mem_cons_of_mem _ hmem
  simp only [Function.update_of_ne hne]
  exact hright.cleared slot hbefore

theorem touches_reply {request : PeerRequest} {rest : List PeerRequest}
    (h : s.requests = request :: rest) (errCode : Int) :
    Touches request.dialog.slot s (s.reply request rest errCode) := by
  have hrest : ∀ other ∈ rest, other ∈ s.requests := by
    intro other hmem
    rw [h]
    exact List.mem_cons_of_mem _ hmem
  simp only [reply]
  split
  · exact ⟨rfl, rfl, fun _ hmem => hmem, fun other hmem => Or.inr ⟨other, hrest other hmem, rfl⟩,
      fun _ hused => ⟨hused, fun _ hmem _ => hmem⟩⟩
  · split
    · refine ⟨rfl, rfl, fun _ hmem => hmem, fun other hmem => Or.inr ?_,
        fun _ hused => ⟨hused, fun _ hmem _ => hmem⟩⟩
      cases List.mem_cons.mp hmem with
      | inl heq => exact ⟨request, h ▸ List.mem_cons_self, by rw [heq]⟩
      | inr hold => exact ⟨other, hrest other hold, rfl⟩
    · exact ⟨rfl, rfl, fun _ hmem => hmem, fun other hmem => Or.inr ⟨other, hrest other hmem, rfl⟩,
        fun _ hused => ⟨hused, fun _ hmem _ => hmem⟩⟩

/-- The slot of the request may be left without dialogs and requests; all other slots are
as busy as before. -/
theorem busy_rest {request : PeerRequest} {rest : List PeerRequest}
    (h : s.requests = request :: rest) {slot : Int} (hne : slot ≠ request.dialog.slot)
    (hidle : busy s.dialogs rest slot = false) : busy s.dialogs s.requests slot = false := by
  rw [busy_eq_false_iff] at hidle ⊢
  refine ⟨hidle.1, fun other hmem => ?_⟩
  rw [h] at hmem
  cases List.mem_cons.mp hmem with
  | inl heq => exact heq ▸ hne.symm
  | inr hrest => exact hidle.2 other hrest

theorem right_reply_iff (hinv : s.Inv) (hright : s.Right) {request : PeerRequest}
    {rest : List PeerRequest} (h : s.requests = request :: rest) (errCode : Int) :
    (s.reply request rest errCode).Right ↔
      s.dialogUsed request.dialog.slot = true ∨ busy s.dialogs rest request.dialog.slot = true ∨
        s.dialogRunning request.dialog.slot = false := by
  have hmem : request ∈ s.requests := h ▸ List.mem_cons_self
  have hindex := hright.inRange _ (hinv.requests hright.inRange request hmem)
  rw [(touches_reply h errCode).right_iff hright, and_iff_right hindex]
  by_cases hused : s.dialogUsed request.dialog.slot = true
  · -- The dialog is there, so its slot stays busy.
    obtain ⟨dialog, hopen, hslot⟩ := hinv.used hright.inRange _ hused
    have hne {slot : Int} {requests : List PeerRequest}
        (hidle : busy s.dialogs requests slot = false) : slot ≠ request.dialog.slot := by
      intro heq
      exact (busy_eq_false_iff.mp hidle).1 dialog hopen (hslot.trans heq.symm)
    refine iff_of_true ?_ (Or.inl hused)
    simp only [reply, hused, Bool.true_eq_false, if_false]
    split
    · intro slot hidle
      apply hright.cleared slot
      rw [busy_eq_false_iff] at hidle ⊢
      refine ⟨hidle.1, fun other hother => ?_⟩
      rw [h] at hother
      cases List.mem_cons.mp hother with
      | inl heq =>
          rw [heq]
          exact hidle.2 ⟨request.dialog, true⟩ List.mem_cons_self
      | inr hrest => exact hidle.2 other (List.mem_cons_of_mem _ hrest)
    · intro slot hidle
      simp only [Function.update_of_ne (hne hidle)]
      exact hright.cleared slot (busy_rest h (hne hidle) hidle)
  · rw [Bool.not_eq_true] at hused
    simp only [reply, hused, if_true, Bool.false_eq_true, false_or]
    constructor
    · intro hcleared
      cases hbusy : busy s.dialogs rest request.dialog.slot with
      | true => exact Or.inl rfl
      | false => exact Or.inr (hcleared _ hbusy).2
    · intro hflag slot hidle
      by_cases heq : slot = request.dialog.slot
      · rw [heq] at hidle ⊢
        exact ⟨hused, hflag.resolve_left (by rw [hidle]; exact Bool.false_ne_true)⟩
      · exact hright.cleared slot (busy_rest h heq hidle)

theorem touches_close (dialog : RegisterDialog) (s : RegisterSlots) :
    Touches dialog.slot s (s.close dialog) where
  indices := rfl
  opened := rfl
  dialogs _ h := List.mem_of_mem_erase h
  requests request h := Or.inr ⟨request, h, rfl⟩
  used slot h := by
    by_cases heq : slot = dialog.slot
    · simp [close, heq] at h
    · simp only [close, Function.update_of_ne heq] at h
      refine ⟨h, fun other hmem hslot => ?_⟩
      have hne : other ≠ dialog := fun hsame => heq (hsame ▸ hslot.symm)
      exact (List.mem_erase_of_ne hne).mpr hmem

theorem right_close_iff (hinv : s.Inv) (hright : s.Right) {dialog : RegisterDialog}
    (hopen : dialog ∈ s.dialogs) :
    (s.close dialog).Right ↔ busy (s.dialogs.erase dialog) s.requests dialog.slot = true ∨
      s.dialogRunning dialog.slot = false := by
  have hindex := hright.inRange _ (hinv.dialogs hright.inRange dialog hopen)
  rw [(touches_close dialog s).right_iff hright, and_iff_right hindex]
  simp only [close]
  constructor
  · intro hcleared
    cases hbusy : busy (s.dialogs.erase dialog) s.requests dialog.slot with
    | true => exact Or.inl rfl
    | false => exact Or.inr (hcleared _ hbusy).2
  · intro hflag slot hidle
    by_cases heq : slot = dialog.slot
    · rw [heq] at hidle ⊢
      refine ⟨Function.update_self .., ?_⟩
      exact hflag.resolve_left (by rw [hidle]; exact Bool.false_ne_true)
    · rw [Function.update_of_ne heq]
      apply hright.cleared slot
      rw [busy_eq_false_iff] at hidle ⊢
      refine ⟨fun other hmem hslot => ?_, hidle.2⟩
      have hne : other ≠ dialog := fun hsame => heq (hsame ▸ hslot.symm)
      exact hidle.1 other ((List.mem_erase_of_ne hne).mpr hmem) hslot

/-! ### All steps -/

theorem step_pressed {dialog : RegisterDialog} {peerName : QString}
    (h : s.step isWord (.pressed dialog peerName) = some s') :
    dialog ∈ s.dialogs ∧ s' = s.press isWord dialog peerName := by
  simp only [step] at h
  split at h
  · rename_i hguard
    exact ⟨hguard.1, (Option.some.inj h).symm⟩
  · exact absurd h.symm (Option.some_ne_none _)

theorem step_replied {errCode : Int} (h : s.step isWord (.replied errCode) = some s') :
    ∃ request rest, s.requests = request :: rest ∧ s' = s.reply request rest errCode := by
  cases hrequests : s.requests with
  | nil => simp [step, hrequests] at h
  | cons request rest =>
      simp only [step, hrequests] at h
      exact ⟨request, rest, rfl, (Option.some.inj h).symm⟩

theorem step_closed {dialog : RegisterDialog} (h : s.step isWord (.closed dialog) = some s') :
    dialog ∈ s.dialogs ∧ s' = s.close dialog := by
  simp only [step] at h
  split at h
  · exact ⟨‹_›, (Option.some.inj h).symm⟩
  · exact absurd h.symm (Option.some_ne_none _)

theorem recorded_new : new.Recorded where
  used _ := rfl
  running _ := rfl

theorem update_eq_ite (flags : Int → Bool) (i : Int) (flag : Bool) (slot : Int) :
    Function.update flags i flag slot = if i = slot then flag else flags slot := by
  rw [Function.update_apply]
  exact if_congr eq_comm rfl rfl

/-- An answer that ends a request clears its slot as the history says: if the slot is in use. -/
theorem recorded_reply (h : s.Recorded) (request : PeerRequest) (rest : List PeerRequest)
    (errCode : Int) :
    (s.reply request rest errCode).Recorded := by
  have hused := h.used request.dialog.slot
  simp only [reply]
  by_cases hmore : errCode = 0 ∧ request.sent = false
  · rw [if_pos hmore]
    split
    · exact ⟨h.used, h.running⟩
    · exact ⟨h.used, h.running⟩
  · rw [if_neg hmore]
    split
    · rename_i hunused
      refine ⟨h.used, fun slot => ?_⟩
      dsimp only
      rw [unsettled, h.running]
      by_cases hslot : request.dialog.slot = slot
      · rw [← hslot, ← hused, hunused]
        simp
      · simp [hslot]
    · rename_i hinUse
      refine ⟨h.used, fun slot => ?_⟩
      dsimp only
      rw [update_eq_ite, unsettled, h.running]
      by_cases hslot : request.dialog.slot = slot
      · rw [Bool.not_eq_false] at hinUse
        rw [← hslot, ← hused, hinUse]
        simp
      · simp [hslot]

/-- What a step does to the arrays, it adds to the history. -/
theorem recorded_step (h : s.Recorded) {event : DialogEvent} (hstep : s.step isWord event = some s') :
    s'.Recorded := by
  cases event with
  | openDialog useIp address registers =>
      rw [← Option.some.inj hstep]
      refine ⟨fun slot => ?_, h.running⟩
      rw [init]
      dsimp only
      rw [update_eq_ite, inUse, h.used]
      split <;> simp [*]
  | enabledPeerButtons address =>
      rw [← Option.some.inj hstep]
      exact ⟨h.used, h.running⟩
  | pressed dialog peerName =>
      obtain ⟨-, rfl⟩ := step_pressed hstep
      obtain ⟨requests, -, heq⟩ := @press_cases isWord dialog peerName s
      rw [heq]
      refine ⟨h.used, fun slot => ?_⟩
      dsimp only
      rw [update_eq_ite, unsettled, h.running]
      split <;> simp [*]
  | replied errCode =>
      obtain ⟨request, rest, -, rfl⟩ := step_replied hstep
      exact recorded_reply h request rest errCode
  | closed dialog =>
      obtain ⟨-, rfl⟩ := step_closed hstep
      refine ⟨fun slot => ?_, h.running⟩
      rw [close]
      dsimp only
      rw [update_eq_ite, inUse, h.used]
      split <;> simp [*]

theorem inv_step (hinv : s.Inv) {event : DialogEvent} (h : s.step isWord event = some s') :
    s'.Inv := by
  cases event with
  | openDialog useIp address registers =>
      rw [← Option.some.inj h]
      exact inv_init hinv useIp address registers
  | enabledPeerButtons address =>
      rw [← Option.some.inj h]
      exact (touches_enabledPeerButtons _ s).inv hinv
  | pressed dialog peerName =>
      obtain ⟨hopen, rfl⟩ := step_pressed h
      exact (touches_press hopen peerName).inv hinv
  | replied errCode =>
      obtain ⟨request, rest, hrequests, rfl⟩ := step_replied h
      exact (touches_reply hrequests errCode).inv hinv
  | closed dialog =>
      obtain ⟨-, rfl⟩ := step_closed h
      exact (touches_close dialog s).inv hinv

theorem right_step_iff (hinv : s.Inv) (hrecorded : s.Recorded) (hright : s.Right) {event : DialogEvent}
    (h : s.step isWord event = some s') : s'.Right ↔ s.Harmless event := by
  cases event with
  | openDialog useIp address registers =>
      rw [← Option.some.inj h]
      exact right_init_iff hright useIp address registers
  | enabledPeerButtons address =>
      rw [← Option.some.inj h, (touches_enabledPeerButtons _ s).right_iff hright,
        slotOf_inRange_iff]
      exact and_iff_left hright.cleared
  | pressed dialog peerName =>
      obtain ⟨hopen, rfl⟩ := step_pressed h
      exact iff_of_true (right_press hinv hright hopen peerName) trivial
  | replied errCode =>
      obtain ⟨request, rest, hrequests, rfl⟩ := step_replied h
      rw [right_reply_iff hinv hright hrequests, hrecorded.running]
      simp only [Harmless, hrequests]
      -- A slot in use has a dialog.
      refine or_iff_right_of_imp fun hused => Or.inl ?_
      obtain ⟨dialog, hopen, hslot⟩ := hinv.used hright.inRange _ hused
      rw [busy, Bool.or_eq_true, List.any_eq_true]
      exact Or.inl ⟨dialog, hopen, decide_eq_true hslot⟩
  | closed dialog =>
      obtain ⟨hopen, rfl⟩ := step_closed h
      rw [right_close_iff hinv hright hopen, hrecorded.running]
      rfl

/-- The indices are in range, the tested slots are the opened ones and the flags of the
slots that nothing uses are cleared all along a run, if and only if every step of it is
harmless. -/
theorem right_iff_harmless (isWord : Char → Bool) (events : List DialogEvent) :
    Runs.AlwaysPartial (step isWord) Right new events ↔
      Runs.EachStepPartial (step isWord) Harmless new events :=
  @Runs.alwaysPartial_iff_eachStepPartial _ _ new (step isWord) (fun s => s.Inv ∧ s.Recorded) Right Harmless
    ⟨inv_new, recorded_new⟩ (fun _ _ _ h hstep => ⟨inv_step h.1 hstep, recorded_step h.2 hstep⟩) right_new
    (fun _ _ _ h hright hstep => right_step_iff h.1 h.2 hright hstep) events

/-- A dialog of the first console port in which the button is pressed without a name, and
which is then closed. -/
def unnamed : List DialogEvent :=
  [.openDialog false (.port 9999 (Nat.le_refl _)) true, .pressed ⟨0, "9999".toList, true⟩ [],
    .closed ⟨0, "9999".toList, true⟩]

theorem not_right_unnamed :
    ¬ Runs.AlwaysPartial (step Char.isAlphanum) Right new unnamed ∧
      ¬ Runs.AlwaysPartial (step Char.isAlphanum) Right new
        [.openDialog true (.ip 10 0 0 5) true] := by
  let dialog : RegisterDialog := ⟨0, "9999".toList, true⟩
  constructor
  · intro h
    have hrun : unnamed.foldlM (step Char.isAlphanum) new = some
        (((new.init false (.port 9999 (Nat.le_refl _)) true).press Char.isAlphanum dialog []).close
          dialog) := rfl
    have hidle := (h unnamed _ List.prefix_rfl hrun).cleared 0 (by decide)
    exact absurd hidle.2 (by decide)
  · intro h
    have hopen := (h _ _ List.prefix_rfl rfl).sameSlot _ List.mem_cons_self
    exact absurd hopen (by decide)

end RegisterSlots

end SubutaiTray.Peer
