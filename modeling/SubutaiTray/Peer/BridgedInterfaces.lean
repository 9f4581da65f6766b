import SubutaiTray.Peer.KeyValueScanners

/-!
The bridged interfaces of VirtualBox (`virtualbox_interfaces`).

`VBoxManage list bridgedifs` prints a block of lines `KEY:  VALUE` for each interface. The name is
remembered from the first line of a block until its status is read.
-/
namespace SubutaiTray.Peer

open Installer (scanCharacter scanLine)

def lineEnd (carriageReturn : Bool) : QString := if carriageReturn then ['\r'] else []

/-- A line; the value may be missing. -/
structure InfoLine where
  key : ScannedKey
  padding : Nat
  value : Option ScannedValue
  noReturn : ∀ v ∈ value, '\r' ∉ v.text

def InfoLine.valueText (line : InfoLine) : QString := line.value.elim [] ScannedValue.text

def InfoLine.text (carriageReturn : Bool) (line : InfoLine) : QString :=
  line.key.text ++ ':' :: List.replicate line.padding ' ' ++ line.valueText ++ lineEnd carriageReturn

def ScannedKey.ofAll (text : QString) (nonempty : text ≠ [])
    (all : text.all (fun c => c ≠ ':' ∧ c ≠ ' ' ∧ c ≠ '\r') = true) : ScannedKey :=
  ⟨text, nonempty, fun c hc => of_decide_eq_true (List.all_eq_true.mp all c hc)⟩

def nameKey : ScannedKey := .ofAll "Name".toList (by decide) (by decide +kernel)

def statusKey : ScannedKey := .ofAll "Status".toList (by decide) (by decide +kernel)

/-- The lines about an interface: its name, its status, and what stands before and behind the status. -/
structure BridgedInterface where
  name : ScannedValue
  namePadding : Nat
  nameNoReturn : '\r' ∉ name.text
  before : List InfoLine
  status : ScannedValue
  statusPadding : Nat
  statusNoReturn : '\r' ∉ status.text
  behind : List InfoLine
  others : ∀ line ∈ before ++ behind, line.key.text ≠ nameKey.text ∧ line.key.text ≠ statusKey.text

namespace BridgedInterface

def nameLine (interface : BridgedInterface) : InfoLine where
  key := nameKey
  padding := interface.namePadding
  value := some interface.name
  noReturn := by
    intro v hv
    rw [← Option.some_inj.mp hv]
    exact interface.nameNoReturn

def statusLine (interface : BridgedInterface) : InfoLine where
  key := statusKey
  padding := interface.statusPadding
  value := some interface.status
  noReturn := by
    intro v hv
    rw [← Option.some_inj.mp hv]
    exact interface.statusNoReturn

def Up (interface : BridgedInterface) : Prop := interface.status.text = "Up".toList

instance (interface : BridgedInterface) : Decidable interface.Up :=
  inferInstanceAs (Decidable (_ = _))

/-- With carriage returns the empty line behind the block is not empty. -/
def text (carriageReturn : Bool) (interface : BridgedInterface) : List QString :=
  (interface.nameLine :: interface.before ++ interface.statusLine :: interface.behind).map
      (InfoLine.text carriageReturn) ++
    if carriageReturn then [lineEnd carriageReturn] else []

end BridgedInterface

/-! ## The lines are read back -/

theorem foldl_blanks (flag : QString) (padding : Nat) :
    (List.replicate padding ' ').foldl YmlRead.next ⟨flag, [], false⟩ = ⟨flag, [], false⟩ := by
  induction padding with
  | zero => rfl
  | succ padding ih =>
      have hblank : YmlRead.next ⟨flag, [], false⟩ ' ' = ⟨flag, [], false⟩ := rfl
      rw [List.replicate_succ, List.foldl_cons, hblank, ih]

theorem scannedPair_lineEnd (line : QString) (carriageReturn : Bool) :
    scannedPair (line ++ lineEnd carriageReturn) = scannedPair line := by
  cases carriageReturn with
  | false => rw [lineEnd, if_neg Bool.false_ne_true, List.append_nil]
  | true =>
      rw [scannedPair, List.foldl_append, scannedPair]
      rfl

theorem scannedPair_infoLine (line : InfoLine) (carriageReturn : Bool) :
    scannedPair (line.text carriageReturn) = (line.key.text, line.valueText) := by
  have hkey : ∀ c ∈ line.key.text, c ≠ ':' ∧ c ≠ ' ' := fun c hc =>
    ⟨(line.key.plain c hc).1, (line.key.plain c hc).2.1⟩
  have hvalue : '\r' ∉ line.valueText := by
    rw [InfoLine.valueText]
    cases hline : line.value with
    | none => exact List.not_mem_nil
    | some v => exact line.noReturn v hline
  have hreturn : '\r' ∉ line.key.text ++ ':' :: List.replicate line.padding ' ' ++ line.valueText := by
    simp only [List.mem_append, List.mem_cons, List.mem_replicate, not_or, not_and]
    exact ⟨⟨fun h => (line.key.plain _ h).2.2 rfl, by decide, fun _ => by decide⟩, hvalue⟩
  have hcolon : YmlRead.next ⟨[], line.key.text, false⟩ ':' = ⟨line.key.text, [], false⟩ := rfl
  rw [InfoLine.text, scannedPair_lineEnd, scannedPair_eq hreturn, List.foldl_append, List.foldl_append,
    List.foldl_cons, YmlRead.foldl_key hkey, List.nil_append, hcolon, foldl_blanks, InfoLine.valueText]
  cases line.value with
  | none => rfl
  | some v =>
      have hfirst : YmlRead.next ⟨line.key.text, [], false⟩ v.first = ⟨line.key.text, [v.first], true⟩ := by
        simp [YmlRead.next, v.starts.1, v.starts.2, line.key.nonempty]
      rw [Option.elim_some, ScannedValue.text, List.foldl_cons, hfirst, YmlRead.foldl_readingValue]
      rfl

variable {found : QString × List QString}

theorem scanLine_infoLine (line : InfoLine) (carriageReturn : Bool) :
    scanLine found (line.text carriageReturn) =
      let lastName := if line.key.text = nameKey.text then line.valueText else found.1
      if line.key.text = statusKey.text ∧ line.valueText = "Up".toList then
        (lastName, found.2 ++ [lastName])
      else (lastName, found.2) := by
  have hread : Scanner.virtualboxInterfaces.read (line.text carriageReturn) =
      (line.key.text, line.valueText) := scannedPair_infoLine line carriageReturn
  rw [scanLine_eq, hread]
  dsimp only
  refine if_congr ?_ rfl rfl
  rw [Bool.and_eq_true, decide_eq_true_eq, decide_eq_true_eq]
  rfl

theorem foldl_others {lines : List InfoLine} (carriageReturn : Bool)
    (h : ∀ line ∈ lines, line.key.text ≠ nameKey.text ∧ line.key.text ≠ statusKey.text) :
    (lines.map (InfoLine.text carriageReturn)).foldl scanLine found = found := by
  induction lines with
  | nil => rfl
  | cons line lines ih =>
      obtain ⟨hline, hlines⟩ := List.forall_mem_cons.mp h
      rw [List.map_cons, List.foldl_cons, scanLine_infoLine]
      dsimp only
      rw [if_neg hline.1, if_neg fun hboth => hline.2 hboth.1]
      exact ih hlines

theorem scanLine_empty (carriageReturn : Bool) : scanLine found (lineEnd carriageReturn) = found := by
  cases carriageReturn <;> rfl

/-- A block adds its name if its status is up. -/
theorem foldl_interface (interface : BridgedInterface) (carriageReturn : Bool) :
    (interface.text carriageReturn).foldl scanLine found =
      (interface.name.text,
        found.2 ++ if interface.Up then [interface.name.text] else []) := by
  have hnames : statusKey.text ≠ nameKey.text := by decide
  have hbefore : (interface.before.map (InfoLine.text carriageReturn)).foldl scanLine
      (interface.name.text, found.2) = (interface.name.text, found.2) :=
    foldl_others carriageReturn fun line hline =>
      interface.others line (List.mem_append_left _ hline)
  have hbehind (found : QString × List QString) :
      (interface.behind.map (InfoLine.text carriageReturn)).foldl scanLine found = found :=
    foldl_others carriageReturn fun line hline =>
      interface.others line (List.mem_append_right _ hline)
  have hname : scanLine found (interface.nameLine.text carriageReturn) =
      (interface.name.text, found.2) := by
    have hkey : interface.nameLine.key.text = nameKey.text := rfl
    rw [scanLine_infoLine]
    dsimp only
    rw [hkey, if_pos rfl, if_neg fun hboth => hnames hboth.1.symm]
    rfl
  have hstatus : scanLine (interface.name.text, found.2) (interface.statusLine.text carriageReturn) =
      (interface.name.text, found.2 ++ if interface.Up then [interface.name.text] else []) := by
    have hkey : interface.statusLine.key.text = statusKey.text := rfl
    have hvalue : interface.statusLine.valueText = interface.status.text := rfl
    rw [scanLine_infoLine]
    dsimp only
    rw [hkey, hvalue, if_neg hnames]
    by_cases hup : interface.Up
    · rw [if_pos ⟨rfl, hup⟩, if_pos hup]
    · rw [if_neg fun hboth => hup hboth.2, if_neg hup, List.append_nil]
  have hend (found : QString × List QString) :
      (if carriageReturn then [lineEnd carriageReturn] else []).foldl scanLine found = found := by
    split
    · exact scanLine_empty carriageReturn
    · rfl
  simp only [BridgedInterface.text, List.map_append, List.map_cons, List.foldl_append, List.foldl_cons]
  rw [hname, hbefore, hstatus, hbehind, hend]

/-- Just the interfaces that are up are listed, in the order of their blocks. -/
theorem foldl_interfaces (interfaces : List BridgedInterface) (carriageReturn : Bool) :
    ((interfaces.flatMap (BridgedInterface.text carriageReturn)).foldl scanLine ([], [])).2 =
      (interfaces.filter BridgedInterface.Up).map fun interface => interface.name.text := by
  suffices hall : ∀ found : QString × List QString,
      ((interfaces.flatMap (BridgedInterface.text carriageReturn)).foldl scanLine found).2 =
        found.2 ++ (interfaces.filter BridgedInterface.Up).map fun interface => interface.name.text from
    hall ([], [])
  induction interfaces with
  | nil => exact fun found => (List.append_nil found.2).symm
  | cons interface interfaces ih =>
      intro found
      rw [List.flatMap_cons, List.foldl_append, foldl_interface, ih, List.filter_cons]
      by_cases hup : interface.Up
      · simp [hup]
      · simp [hup]

end SubutaiTray.Peer
