import SubutaiTray.Hub.Controller
import SubutaiTray.Library.Lookups
import SubutaiTray.Library.Runs
import SubutaiTray.Qt.StdMap
import Mathlib.Data.List.Infix
import Mathlib.Tactic.Tauto

/-!
The dialog of an environment (`DlgEnvironment`): the state that is shown for each container, and
the buttons for the containers that are checked.

The state is the text of a checkbox, and the dialog reads it back to find out how long a container
has not been connected. It sets the texts of the translation (`tr`) and compares with those of the
source.
-/
namespace SubutaiTray.Hub

/-- What the dialog asks the P2P controller and the tray. -/
structure P2PView where
  isSwarmConnected : CEnvironment → Bool
  isContInMachine : QString → Bool
  p2pRunning : Bool
  isReady : CEnvironment → CHubContainer → Bool

/-- The checkbox of a container, and its text in `desktops_info`. -/
structure ContainerRow where
  text : QString
  toolTip : QString
  checked : Bool
  desktopInfo : QString
  deriving DecidableEq

structure EnvironmentDialog where
  env : CEnvironment
  rows : StdMap ContainerRow
  closed : Bool
  btnDesktop : Bool
  btnUpload : Bool
  btnSsh : Bool

def CHubContainer.desktopInfo (cont : CHubContainer) : QString :=
  if cont.isDesktop then if cont.deskEnv = [] then "MATE".toList else cont.deskEnv
  else "No Desktop".toList

def ready : QString := "READY".toList

def failed : QString := "FAILED".toList

/-- `contains` -/
def holds (s part : QString) : Bool := decide (part <:+: s)

variable (tr : QString → QString)

namespace ContainerRow

def new (cont : CHubContainer) : ContainerRow where
  text := ready
  toolTip := []
  checked := false
  desktopInfo := cont.desktopInfo

/-- `change_cont_status`: the text of the checkbox that follows, and its tool tip if this changes. -/
def nextStatus (text : QString) (status : Nat) : QString × Option QString :=
  if status = 0 then (tr ready, some "Successfully connected".toList)
  else if status = 1 then (tr "CONNECTING".toList, some "Handshaking with container".toList)
  else if status = 2 then (tr "WAITING".toList, some (tr "Environment is UNDER_MODIFICATION".toList))
  else if status = 4 then (tr failed, some (tr "Environment is not HEALTHY".toList))
  else if ¬ holds text "INITIALIZING".toList ∧ text ≠ failed then
    (tr "INITIALIZING".toList, some (tr "Trying to initialize a connection".toList))
  else if ¬ holds text "INITIALIZING.".toList ∧ text ≠ failed then (tr "INITIALIZING.".toList, none)
  else if ¬ holds text "INITIALIZING..".toList ∧ text ≠ failed then (tr "INITIALIZING..".toList, none)
  else if ¬ holds text "INITIALIZING...".toList ∧ text ≠ failed then (tr "INITIALIZING...".toList, none)
  else if status = 3 then (tr failed, some "Can't join to swarm with environment".toList)
  else if status = 5 then (tr failed, some (tr "P2P is not running".toList))
  else (text, none)

def changeStatus (status : Nat) (row : ContainerRow) : ContainerRow :=
  { row with
    text := (nextStatus tr row.text status).1
    toolTip := (nextStatus tr row.text status).2.getD row.toolTip }

end ContainerRow

namespace EnvironmentDialog

/-- `addEnvironment`, before the first check. -/
def new (env : CEnvironment) : EnvironmentDialog where
  env := env
  rows := env.lstContainers.foldl (fun rows cont => rows.insert cont.id (.new cont)) ∅
  closed := false
  btnDesktop := true
  btnUpload := true
  btnSsh := true

def changeContStatus (contId : QString) (status : Nat) (dialog : EnvironmentDialog) :
    EnvironmentDialog :=
  match dialog.rows[contId]? with
  | none => dialog
  | some row => { dialog with rows := dialog.rows.insert contId (row.changeStatus tr status) }

/-- The loop of `check_buttons`: whether the buttons may be pressed, the desktop button in
particular, and whether a container is checked. -/
def checkedState (view : P2PView) (dialog : EnvironmentDialog) (desktop notEmpty : Bool) :
    List CHubContainer → Bool × Bool × Bool
  | [] => (true, desktop, notEmpty)
  | cont :: conts =>
      match dialog.rows[cont.id]? with
      | none => dialog.checkedState view desktop notEmpty conts
      | some row =>
          if (view.isSwarmConnected dialog.env || view.isContInMachine cont.peerId) && row.checked then
            if row.text ≠ ready then (false, false, notEmpty)
            else dialog.checkedState view (desktop && cont.isDesktop) true conts
          else dialog.checkedState view desktop notEmpty conts

def checkButtons (view : P2PView) (dialog : EnvironmentDialog) : EnvironmentDialog :=
  let (all, desktop, notEmpty) :=
    if dialog.env.healthy then dialog.checkedState view true false dialog.env.lstContainers
    else (false, false, false)
  { dialog with
    btnDesktop := desktop && notEmpty
    btnUpload := all && notEmpty
    btnSsh := all && notEmpty }

/-- The status that `check_container_status` finds. -/
def contStatus (view : P2PView) (env : CEnvironment) (cont : CHubContainer) : Nat :=
  if view.isContInMachine cont.peerId then 0
  else if !view.p2pRunning then 5
  else if view.isReady env cont then 0
  else 1

def checkContainerStatus (view : P2PView) (cont : CHubContainer) (dialog : EnvironmentDialog) :
    EnvironmentDialog :=
  (dialog.changeContStatus tr cont.id (contStatus view dialog.env cont)).checkButtons view

def setDesktopInfo (cont : CHubContainer) (row : ContainerRow) (dialog : EnvironmentDialog) :
    EnvironmentDialog :=
  { dialog with rows := dialog.rows.insert cont.id { row with desktopInfo := cont.desktopInfo } }

/-- The loop over the containers of an environment whose swarm is connected: it ends at one that was
not there when the dialog was opened. -/
def checkContainers (view : P2PView) : List CHubContainer → EnvironmentDialog → EnvironmentDialog
  | [], dialog => dialog
  | cont :: conts, dialog =>
      match dialog.rows[cont.id]? with
      | none => dialog
      | some row =>
          checkContainers view conts ((dialog.setDesktopInfo cont row).checkContainerStatus tr view cont)

/-- `state_all` -/
def stateAll (env : CEnvironment) : Nat :=
  if env.status = "UNDER_MODIFICATION".toList then 2 else if !env.healthy then 4 else 3

/-- The second loop: one state for all containers but those on this machine. -/
def changeAll (view : P2PView) (conts : List CHubContainer) (dialog : EnvironmentDialog) :
    EnvironmentDialog :=
  conts.foldl
    (fun dialog cont => dialog.changeContStatus tr cont.id
      (if view.isContInMachine cont.peerId && dialog.env.healthy then 0 else stateAll dialog.env))
    dialog

/-- `operator []` of the table of the tray makes an empty environment when there is none. -/
def emptyEnvironment : CEnvironment where
  name := []
  hash := []
  aesKey := []
  ttl := []
  id := []
  hubId := 0
  status := []
  statusDescr := []
  baseInterfaceId := -1
  lstContainers := []

def refreshEnv (environmentsTable : StdMap CEnvironment) (dialog : EnvironmentDialog) :
    EnvironmentDialog :=
  let updateEnv := (environmentsTable[dialog.env.id]?).getD emptyEnvironment
  { dialog with
    env := updateEnv
    closed := dialog.closed || (environmentsTable[dialog.env.id]?).isNone ||
      updateEnv.status ≠ dialog.env.status || updateEnv.name ≠ dialog.env.name }

def checkEnvironmentStatus (view : P2PView) (environmentsTable : StdMap CEnvironment)
    (dialog : EnvironmentDialog) : EnvironmentDialog :=
  let dialog := dialog.refreshEnv environmentsTable
  if dialog.env.healthy && view.isSwarmConnected dialog.env then
    checkContainers tr view dialog.env.lstContainers dialog
  else (dialog.changeAll tr view dialog.env.lstContainers).checkButtons view

/-- `stateChanged` of a checkbox. -/
def setChecked (view : P2PView) (contId : QString) (checked : Bool) (dialog : EnvironmentDialog) :
    EnvironmentDialog :=
  match dialog.rows[contId]? with
  | none => dialog
  | some row =>
      if row.checked = checked then dialog
      else ({ dialog with rows := dialog.rows.insert contId { row with checked := checked } }).checkButtons view

def selectAll (view : P2PView) (checked : Bool) (dialog : EnvironmentDialog) : EnvironmentDialog :=
  dialog.env.lstContainers.foldl (fun dialog cont => dialog.setChecked view cont.id checked) dialog

/-- The containers for which `ssh_selected`, `desktop_selected` and `upload_selected` emit their
signals. -/
def selected (dialog : EnvironmentDialog) : List CHubContainer :=
  dialog.env.lstContainers.filter fun cont => (dialog.rows[cont.id]?).any ContainerRow.checked

end EnvironmentDialog

/-- What happens to the dialog; two seconds after a button was pressed it can be pressed again. -/
inductive DialogEvent where
  | checkEnvironmentStatus (view : P2PView) (environmentsTable : StdMap CEnvironment)
  | setChecked (view : P2PView) (contId : QString) (checked : Bool)
  | selectAll (view : P2PView) (checked : Bool)
  | setDesktopButton (enabled : Bool)
  | setUploadButton (enabled : Bool)
  | setSshButton (enabled : Bool)

namespace EnvironmentDialog

def step (dialog : EnvironmentDialog) : DialogEvent → EnvironmentDialog
  | .checkEnvironmentStatus view environmentsTable => dialog.checkEnvironmentStatus tr view environmentsTable
  | .setChecked view contId checked => dialog.setChecked view contId checked
  | .selectAll view checked => dialog.selectAll view checked
  | .setDesktopButton enabled => { dialog with btnDesktop := enabled }
  | .setUploadButton enabled => { dialog with btnUpload := enabled }
  | .setSshButton enabled => { dialog with btnSsh := enabled }

/-! ## The texts -/

/-- The statuses that a check gives, each with the id of its container. -/
def given (view : P2PView) (environmentsTable : StdMap CEnvironment) (dialog : EnvironmentDialog) :
    List (QString × Nat) :=
  let dialog := dialog.refreshEnv environmentsTable
  if dialog.env.healthy && view.isSwarmConnected dialog.env then
    (dialog.env.lstContainers.takeWhile fun cont => (dialog.rows[cont.id]?).isSome).map fun cont =>
      (cont.id, contStatus view dialog.env cont)
  else
    dialog.env.lstContainers.map fun cont =>
      (cont.id, if view.isContInMachine cont.peerId && dialog.env.healthy then 0 else stateAll dialog.env)

/-- The statuses of a container among those. -/
def statusesOf (given : List (QString × Nat)) (contId : QString) : List Nat :=
  (given.filter fun status => status.1 = contId).map Prod.snd

def givenIn (dialog : EnvironmentDialog) : DialogEvent → List (QString × Nat)
  | .checkEnvironmentStatus view environmentsTable => dialog.given view environmentsTable
  | .setChecked .. | .selectAll .. | .setDesktopButton _ | .setUploadButton _ | .setSshButton _ => []

/-- A dialog with all statuses that its containers were given. -/
structure Run where
  dialog : EnvironmentDialog
  given : List (QString × Nat)

def Run.step (run : Run) (event : DialogEvent) : Run where
  dialog := run.dialog.step tr event
  given := run.given ++ run.dialog.givenIn event

def run (env : CEnvironment) (events : List DialogEvent) : Run :=
  events.foldl (Run.step tr) ⟨new env, []⟩

/-- The container could not be connected. -/
def unconnected (status : Nat) : Bool := status = 3 || status = 5

/-- How many times at last it could not be connected. -/
def waited (statuses : List Nat) : Nat := (statuses.reverse.takeWhile unconnected).length

/-- The last other status. -/
def settled (statuses : List Nat) : Option Nat := (statuses.reverse.dropWhile unconnected).head?

/-- A new checkbox is not translated. -/
def settledText : Option Nat → QString
  | some 0 => tr ready
  | some 1 => tr "CONNECTING".toList
  | some 2 => tr "WAITING".toList
  | some 4 => tr failed
  | _ => ready

/-- The text for a container that could not be connected some times. -/
def waitingText : Nat → QString
  | 1 => tr "INITIALIZING".toList
  | 2 => tr "INITIALIZING.".toList
  | 3 => tr "INITIALIZING..".toList
  | 4 => tr "INITIALIZING...".toList
  | _ => tr failed

/-- The text by the statuses: a container that has failed as its environment has stays so until it
is given another status than that it could not be connected. -/
def textFor (statuses : List Nat) : QString :=
  if waited statuses = 0 ∨ settled statuses = some 4 then settledText tr (settled statuses)
  else waitingText tr (waited statuses)

/-- The text that the dialog comes to. -/
def textAfter (statuses : List Nat) : QString :=
  statuses.foldl (fun text status => (ContainerRow.nextStatus tr text status).1) ready

def marks : List QString :=
  ["INITIALIZING".toList, "INITIALIZING.".toList, "INITIALIZING..".toList, "INITIALIZING...".toList]

/-- For how many times without a connection the dialog takes a text. -/
def readBack (text : QString) : Nat :=
  if text = failed then 4 else (marks.takeWhile (holds text)).length

/-- Where the dialog reads its translated texts back, it goes on with the right one. -/
structure Understood : Prop where
  settled : ∀ status ∈ [0, 1, 2],
    waitingText tr (readBack (settledText tr (some status)) + 1) = waitingText tr 1
  waiting : ∀ times ∈ [1, 2, 3, 4, 5],
    waitingText tr (readBack (waitingText tr times) + 1) = waitingText tr (times + 1)

variable {tr}

theorem waited_concat (statuses : List Nat) (status : Nat) :
    waited (statuses ++ [status]) = if unconnected status then waited statuses + 1 else 0 := by
  rw [waited, List.reverse_append, List.reverse_singleton, List.singleton_append, List.takeWhile_cons]
  split <;> rfl

theorem settled_concat (statuses : List Nat) (status : Nat) :
    settled (statuses ++ [status]) = if unconnected status then settled statuses else some status := by
  rw [settled, List.reverse_append, List.reverse_singleton, List.singleton_append, List.dropWhile_cons]
  split <;> rfl

theorem textAfter_concat (statuses : List Nat) (status : Nat) :
    textAfter tr (statuses ++ [status]) = (ContainerRow.nextStatus tr (textAfter tr statuses) status).1 :=
  List.foldl_concat ..

theorem mem_of_unconnected {status : Nat} (h : unconnected status = true) : status = 3 ∨ status = 5 := by
  rw [unconnected, Bool.or_eq_true, decide_eq_true_eq, decide_eq_true_eq] at h
  exact h

theorem nextStatus_unconnected {status : Nat} (h : unconnected status = true) (text : QString) :
    (ContainerRow.nextStatus tr text status).1 = waitingText tr (readBack text + 1) := by
  have hlast : status ≠ 0 ∧ status ≠ 1 ∧ status ≠ 2 ∧ status ≠ 4 ∧ (status = 3 ∨ status = 5) := by
    obtain rfl | rfl := mem_of_unconnected h <;> decide
  obtain ⟨hzero, hone, htwo, hfour, hor⟩ := hlast
  rw [ContainerRow.nextStatus, if_neg hzero, if_neg hone, if_neg htwo, if_neg hfour, readBack, marks]
  have hend : (if status = 3 then (tr failed, some "Can't join to swarm with environment".toList)
      else if status = 5 then (tr failed, some (tr "P2P is not running".toList)) else (text, none)).1 =
      waitingText tr 5 := by
    obtain rfl | rfl := hor <;> rfl
  by_cases hfailed : text = failed
  · rw [if_pos hfailed]
    simp only [hfailed, ne_eq, not_true_eq_false, and_false, if_false]
    exact hfailed ▸ hend
  · rw [if_neg hfailed]
    generalize hfirst : holds text "INITIALIZING".toList = first
    generalize hsecond : holds text "INITIALIZING.".toList = second
    generalize hthird : holds text "INITIALIZING..".toList = third
    generalize hfourth : holds text "INITIALIZING...".toList = fourth
    simp only [List.takeWhile_cons, hfirst, hsecond, hthird, hfourth, ne_eq, hfailed, not_false_eq_true,
      and_true, List.takeWhile_nil]
    cases first with
    | false => rfl
    | true =>
        cases second with
        | false => rfl
        | true =>
            cases third with
            | false => rfl
            | true =>
                cases fourth with
                | false => rfl
                | true => exact hend

theorem nextStatus_connected {status : Nat} (h : ¬ unconnected status = true) (hstatus : status ≤ 5)
    (text : QString) : (ContainerRow.nextStatus tr text status).1 = settledText tr (some status) := by
  have hcases : status = 0 ∨ status = 1 ∨ status = 2 ∨ status = 4 := by
    rw [unconnected, Bool.or_eq_true, decide_eq_true_eq, decide_eq_true_eq] at h
    omega
  obtain rfl | rfl | rfl | rfl := hcases <;> rfl

theorem readBack_settledText (h : Understood tr) {last : Option Nat} (hlast : last ≠ some 4) :
    waitingText tr (readBack (settledText tr last) + 1) = waitingText tr 1 := by
  rw [settledText.eq_def]
  split
  · exact h.settled 0 (by decide)
  · exact h.settled 1 (by decide)
  · exact h.settled 2 (by decide)
  · exact absurd rfl hlast
  · have hready : readBack ready = 0 := by decide +kernel
    rw [hready]

theorem readBack_waitingText (h : Understood tr) (times : Nat) :
    waitingText tr (readBack (waitingText tr (times + 1)) + 1) = waitingText tr (times + 2) := by
  match times with
  | 0 => exact h.waiting 1 (by decide)
  | 1 => exact h.waiting 2 (by decide)
  | 2 => exact h.waiting 3 (by decide)
  | 3 => exact h.waiting 4 (by decide)
  | times + 4 => exact h.waiting 5 (by decide)

/-- A translation that the dialog understands: the texts follow the statuses. -/
theorem textAfter_eq_textFor (h : Understood tr) {statuses : List Nat}
    (hstatuses : ∀ status ∈ statuses, status ≤ 5) : textAfter tr statuses = textFor tr statuses := by
  induction statuses using List.reverseRecOn with
  | nil => rfl
  | append_singleton statuses status ih =>
      have htext := ih fun status hmem => hstatuses status (List.mem_append_left _ hmem)
      have hle := hstatuses status (List.mem_append_right _ (List.mem_singleton.mpr rfl))
      rw [textAfter_concat, htext, textFor.eq_1 tr (statuses ++ [status]), waited_concat, settled_concat]
      by_cases hconnected : unconnected status = true
      · rw [if_pos hconnected, if_pos hconnected, nextStatus_unconnected hconnected, textFor]
        by_cases hfour : settled statuses = some 4
        · rw [if_pos (Or.inr hfour), if_pos (Or.inr hfour), hfour]
          exact h.waiting 5 (by decide)
        · have hafter : ¬ (waited statuses + 1 = 0 ∨ settled statuses = some 4) :=
            fun hor => hor.elim (Nat.succ_ne_zero _) hfour
          rw [if_neg hafter]
          cases hwaited : waited statuses with
          | zero =>
              rw [if_pos (Or.inl rfl)]
              exact readBack_settledText h hfour
          | succ times =>
              rw [if_neg fun hor => hor.elim (Nat.succ_ne_zero times) hfour]
              exact readBack_waitingText h times
      · rw [if_neg hconnected, if_neg hconnected, if_pos (Or.inl rfl)]
        exact nextStatus_connected hconnected hle _

theorem textFor_replicate {times : Nat} (htimes : times ≠ 0) :
    textFor tr (List.replicate times 3) = waitingText tr times := by
  have hthree : unconnected 3 = true := rfl
  have hwaited : waited (List.replicate times 3) = times := by
    rw [waited, List.reverse_replicate, List.takeWhile_replicate, if_pos hthree, List.length_replicate]
  have hsettled : settled (List.replicate times 3) = none := by
    rw [settled, List.reverse_replicate, List.dropWhile_replicate, if_pos hthree]
    rfl
  rw [textFor, hwaited, hsettled, if_neg fun hor => hor.elim htimes (Option.some_ne_none 4 ∘ Eq.symm)]

/-- Only with such a translation do the texts follow the statuses. -/
theorem understood_of_textFor
    (h : ∀ statuses, (∀ status ∈ statuses, status ≤ 5) → textAfter tr statuses = textFor tr statuses) :
    Understood tr := by
  have hthree : unconnected 3 = true := rfl
  constructor
  · intro status hstatus
    have hle : status ≤ 5 ∧ unconnected status ≠ true ∧
        waited [status, 3] = 1 ∧ settled [status, 3] ≠ some 4 := by
      revert status
      decide
    obtain ⟨hstatus, hsettled, hwaited, hfour⟩ := hle
    have hpair := h [status, 3] fun other hother => by
      obtain rfl | rfl := List.mem_pair.mp hother
      · exact hstatus
      · decide
    have hfor : textFor tr [status, 3] = waitingText tr 1 := by
      rw [textFor, hwaited, if_neg fun hor => hor.elim Nat.one_ne_zero hfour]
    have hone : textAfter tr [status] = settledText tr (some status) :=
      nextStatus_connected hsettled hstatus _
    rw [← hone, ← nextStatus_unconnected hthree, ← textAfter_concat, ← hfor]
    exact hpair
  · intro times htimes
    have hle (count : Nat) : ∀ status ∈ List.replicate count 3, status ≤ 5 := by
      intro status hstatus
      rw [List.eq_of_mem_replicate hstatus]
      decide
    have hpos : times ≠ 0 := by
      rintro rfl
      exact absurd htimes (by decide)
    rw [← textFor_replicate hpos, ← textFor_replicate (Nat.succ_ne_zero times), ← h _ (hle times),
      ← h _ (hle (times + 1)), ← nextStatus_unconnected hthree, ← textAfter_concat, List.replicate_succ']

/-! ### Along a run -/

/-- The text of a container follows the statuses it was given. -/
def TextsFollow (tr : QString → QString) (given : List (QString × Nat)) (dialog : EnvironmentDialog) : Prop :=
  ∀ (contId : QString) (row : ContainerRow), dialog.rows[contId]? = some row →
    row.text = textAfter tr (statusesOf given contId)

/-- The rows are those of the containers that were there when the dialog was opened. -/
def SameRows (dialog after : EnvironmentDialog) : Prop :=
  ∀ contId : QString, (after.rows[contId]?).isSome = (dialog.rows[contId]?).isSome

variable {given : List (QString × Nat)} {dialog : EnvironmentDialog}

theorem statusesOf_append (given more : List (QString × Nat)) (contId : QString) :
    statusesOf (given ++ more) contId = statusesOf given contId ++ statusesOf more contId := by
  rw [statusesOf, List.filter_append, List.map_append, statusesOf, statusesOf]

theorem statusesOf_singleton (contId other : QString) (status : Nat) :
    statusesOf [(contId, status)] other = if contId = other then [status] else [] := by
  rw [statusesOf, List.filter_singleton]
  by_cases hother : contId = other
  · rw [if_pos hother]
    simp [hother]
  · rw [if_neg hother]
    simp [hother]

theorem textsFollow_changeContStatus (h : TextsFollow tr given dialog) (contId : QString) (status : Nat) :
    TextsFollow tr (given ++ [(contId, status)]) (dialog.changeContStatus tr contId status) := by
  intro other row hat
  rw [statusesOf_append, statusesOf_singleton]
  rw [changeContStatus] at hat
  cases hrow : dialog.rows[contId]? with
  | none =>
      rw [hrow] at hat
      rw [if_neg, List.append_nil]
      · exact h other row hat
      · rintro rfl
        exact Option.some_ne_none row (hat.symm.trans hrow)
  | some found =>
      rw [hrow] at hat
      dsimp only at hat
      rw [Lookups.getElem?_insert] at hat
      by_cases hother : contId = other
      · rw [if_pos hother.symm] at hat
        rw [if_pos hother, ← Option.some_inj.mp hat, ← hother, textAfter_concat, ← h contId found hrow]
        rfl
      · rw [if_neg (Ne.symm hother)] at hat
        rw [if_neg hother, List.append_nil]
        exact h other row hat

theorem sameRows_changeContStatus (dialog : EnvironmentDialog) (contId : QString) (status : Nat) :
    SameRows dialog (dialog.changeContStatus tr contId status) := by
  intro other
  rw [changeContStatus]
  cases hrow : dialog.rows[contId]? with
  | none => rfl
  | some found =>
      dsimp only
      rw [Lookups.getElem?_insert]
      split
      · rename_i hother
        rw [hother, hrow]
        rfl
      · rfl

theorem stateAll_le (env : CEnvironment) : stateAll env ≤ 5 := by
  rw [stateAll]
  split
  · decide
  · split <;> decide

theorem contStatus_le (view : P2PView) (env : CEnvironment) (cont : CHubContainer) :
    contStatus view env cont ≤ 5 := by
  rw [contStatus]
  split
  · decide
  · split
    · decide
    · split <;> decide

theorem env_changeContStatus (dialog : EnvironmentDialog) (contId : QString) (status : Nat) :
    (dialog.changeContStatus tr contId status).env = dialog.env := by
  rw [changeContStatus]
  split <;> rfl

theorem textsFollow_changeAll (h : TextsFollow tr given dialog) (view : P2PView) (conts : List CHubContainer) :
    TextsFollow tr (given ++ conts.map fun cont => (cont.id,
        if view.isContInMachine cont.peerId && dialog.env.healthy then 0 else stateAll dialog.env))
      (dialog.changeAll tr view conts) := by
  induction conts generalizing given dialog with
  | nil =>
      rw [List.map_nil, List.append_nil]
      exact h
  | cons cont conts ih =>
      have hrest := ih (textsFollow_changeContStatus h cont.id
        (if view.isContInMachine cont.peerId && dialog.env.healthy then 0 else stateAll dialog.env))
      rw [env_changeContStatus, List.append_assoc] at hrest
      exact hrest

theorem textsFollow_setDesktopInfo (h : TextsFollow tr given dialog) {cont : CHubContainer}
    {row : ContainerRow} (hrow : dialog.rows[cont.id]? = some row) :
    TextsFollow tr given (dialog.setDesktopInfo cont row) := by
  intro other found hat
  rw [setDesktopInfo, Lookups.getElem?_insert] at hat
  split at hat
  · rename_i hother
    rw [← Option.some_inj.mp hat, hother]
    exact h cont.id row hrow
  · exact h other found hat

theorem sameRows_setDesktopInfo {cont : CHubContainer} {row : ContainerRow}
    (hrow : dialog.rows[cont.id]? = some row) : SameRows dialog (dialog.setDesktopInfo cont row) := by
  intro other
  rw [setDesktopInfo, Lookups.getElem?_insert]
  split
  · rename_i hother
    rw [hother, hrow]
    rfl
  · rfl

theorem textsFollow_checkContainers (h : TextsFollow tr given dialog) (view : P2PView)
    (conts : List CHubContainer) :
    TextsFollow tr (given ++ (conts.takeWhile fun cont => (dialog.rows[cont.id]?).isSome).map fun cont =>
        (cont.id, contStatus view dialog.env cont))
      (checkContainers tr view conts dialog) := by
  induction conts generalizing given dialog with
  | nil =>
      rw [List.takeWhile_nil, List.map_nil, List.append_nil]
      exact h
  | cons cont conts ih =>
      rw [checkContainers]
      cases hrow : dialog.rows[cont.id]? with
      | none =>
          rw [List.takeWhile_cons_of_neg (by rw [hrow]; exact Bool.false_ne_true), List.map_nil,
            List.append_nil]
          exact h
      | some row =>
          have hset := textsFollow_setDesktopInfo h hrow
          have hnext := textsFollow_changeContStatus hset cont.id (contStatus view dialog.env cont)
          have hrows (other : CHubContainer) :
              (((dialog.setDesktopInfo cont row).checkContainerStatus tr view cont).rows[other.id]?).isSome =
                (dialog.rows[other.id]?).isSome :=
            (sameRows_changeContStatus _ cont.id _ other.id).trans (sameRows_setDesktopInfo hrow other.id)
          have henv : ((dialog.setDesktopInfo cont row).checkContainerStatus tr view cont).env = dialog.env :=
            env_changeContStatus _ cont.id _
          have hrest := @ih _ ((dialog.setDesktopInfo cont row).checkContainerStatus tr view cont) hnext
          simp only [hrows, henv] at hrest
          rw [List.takeWhile_cons_of_pos (by rw [hrow]; rfl), List.map_cons, List.append_cons]
          exact hrest

theorem textsFollow_of_rows (h : TextsFollow tr given dialog) {after : EnvironmentDialog}
    (hrows : after.rows = dialog.rows) : TextsFollow tr given after := by
  intro contId row hat
  rw [hrows] at hat
  exact h contId row hat

theorem textsFollow_setChecked (h : TextsFollow tr given dialog) (view : P2PView) (contId : QString)
    (checked : Bool) : TextsFollow tr given (dialog.setChecked view contId checked) := by
  rw [setChecked]
  cases hrow : dialog.rows[contId]? with
  | none => exact h
  | some row =>
      dsimp only
      split
      · exact h
      · intro other found hat
        rw [checkButtons] at hat
        dsimp only at hat
        rw [Lookups.getElem?_insert] at hat
        split at hat
        · rename_i hother
          rw [← Option.some_inj.mp hat, hother]
          exact h contId row hrow
        · exact h other found hat

theorem textsFollow_step (h : TextsFollow tr given dialog) (event : DialogEvent) :
    TextsFollow tr (given ++ dialog.givenIn event) (dialog.step tr event) := by
  cases event with
  | checkEnvironmentStatus view environmentsTable =>
      have hrefreshed : TextsFollow tr given (dialog.refreshEnv environmentsTable) := textsFollow_of_rows h rfl
      rw [step, checkEnvironmentStatus, givenIn, EnvironmentDialog.given]
      split
      · exact textsFollow_checkContainers hrefreshed view _
      · exact textsFollow_of_rows (textsFollow_changeAll hrefreshed view _) rfl
  | setChecked view contId checked =>
      rw [givenIn, List.append_nil]
      exact textsFollow_setChecked h view contId checked
  | selectAll view checked =>
      rw [givenIn, List.append_nil, step, selectAll]
      exact Runs.invariant h (fun _ cont h => textsFollow_setChecked h view cont.id checked) _
  | setDesktopButton enabled | setUploadButton enabled | setSshButton enabled =>
      rw [givenIn, List.append_nil]
      exact textsFollow_of_rows h rfl

theorem textsFollow_new (env : CEnvironment) : TextsFollow tr [] (new env) := by
  have hready (rows : StdMap ContainerRow) (hrows : ∀ (contId : QString) (row : ContainerRow),
      rows[contId]? = some row → row.text = ready) (cont : CHubContainer) (contId : QString)
      (row : ContainerRow) (hat : (rows.insert cont.id (.new cont))[contId]? = some row) :
      row.text = ready := by
    rw [Lookups.getElem?_insert] at hat
    split at hat
    · rw [← Option.some_inj.mp hat]
      rfl
    · exact hrows contId row hat
  exact @Runs.invariant (StdMap ContainerRow) CHubContainer
    (fun rows cont => rows.insert cont.id (.new cont)) ∅
    (fun rows => ∀ (contId : QString) (row : ContainerRow), rows[contId]? = some row → row.text = ready)
    (fun contId row hat => absurd hat Lookups.empty_ne_some)
    (fun rows cont hrows => hready rows hrows cont) env.lstContainers

theorem textsFollow_run (tr : QString → QString) (env : CEnvironment) (events : List DialogEvent) :
    TextsFollow tr (run tr env events).given (run tr env events).dialog := by
  rw [run]
  exact @Runs.invariant Run DialogEvent (Run.step tr) ⟨new env, []⟩
    (fun run => TextsFollow tr run.given run.dialog)
    (textsFollow_new env) (fun _ event h => textsFollow_step h event) events

theorem givenIn_le (dialog : EnvironmentDialog) (event : DialogEvent) :
    ∀ status ∈ dialog.givenIn event, status.2 ≤ 5 := by
  cases event with
  | checkEnvironmentStatus view environmentsTable =>
      intro status hstatus
      rw [givenIn, EnvironmentDialog.given] at hstatus
      split at hstatus
      · obtain ⟨cont, -, rfl⟩ := List.mem_map.mp hstatus
        exact contStatus_le view _ cont
      · obtain ⟨cont, -, rfl⟩ := List.mem_map.mp hstatus
        dsimp only
        split
        · exact Nat.zero_le 5
        · exact stateAll_le _
  | setChecked | selectAll | setDesktopButton | setUploadButton | setSshButton =>
      exact fun status hstatus => absurd hstatus List.not_mem_nil

theorem given_le_run (tr : QString → QString) (env : CEnvironment) (events : List DialogEvent) :
    ∀ status ∈ (run tr env events).given, status.2 ≤ 5 := by
  refine @Runs.invariant Run DialogEvent (Run.step tr) ⟨new env, []⟩
    (fun run => ∀ status ∈ run.given, status.2 ≤ 5) ?_ ?_ events
  · exact fun status hstatus => absurd hstatus List.not_mem_nil
  · intro run event h status hstatus
    exact (List.mem_append.mp hstatus).elim (h status) (givenIn_le run.dialog event status)

theorem statusesOf_le_run (tr : QString → QString) (env : CEnvironment) (events : List DialogEvent)
    (contId : QString) : ∀ status ∈ statusesOf (run tr env events).given contId, status ≤ 5 := by
  intro status hstatus
  obtain ⟨given, hgiven, rfl⟩ := List.mem_map.mp hstatus
  exact given_le_run tr env events given (List.mem_filter.mp hgiven).1

/-! ### All statuses can be given -/

def someContainer : CHubContainer where
  name := []
  ip := []
  id := []
  port := []
  isDesktop := false
  rhIp := []
  rhId := []
  peerId := []
  deskEnv := []

def someEnvironment (status : QString) : CEnvironment :=
  { emptyEnvironment with status := status, lstContainers := [someContainer] }

/-- A check in which the container gets the status. -/
def checkFor (status : Nat) : DialogEvent :=
  let view : P2PView :=
    { isSwarmConnected _ := status ≠ 3
      isContInMachine _ := status = 0
      p2pRunning := status ≠ 5
      isReady _ _ := false }
  let envStatus : QString :=
    if status = 2 then "UNDER_MODIFICATION".toList
    else if status = 4 then "UNHEALTHY".toList else "HEALTHY".toList
  .checkEnvironmentStatus view ((∅ : StdMap CEnvironment).insert [] (someEnvironment envStatus))

/-- What the dialog of that environment comes to. -/
structure Shows (run : Run) (statuses : List Nat) : Prop where
  id : run.dialog.env.id = []
  row : (run.dialog.rows[([] : QString)]?).isSome = true
  given : statusesOf run.given [] = statuses

theorem shows_check {run : Run} {statuses : List Nat} (h : Shows run statuses) {view : P2PView}
    {env : CEnvironment} (hid : env.id = []) (hconts : env.lstContainers = [someContainer]) {status : Nat}
    (hstatus : (if env.healthy && view.isSwarmConnected env then contStatus view env someContainer
      else if view.isContInMachine [] && env.healthy then 0 else stateAll env) = status) :
    Shows (run.step tr (.checkEnvironmentStatus view ((∅ : StdMap CEnvironment).insert [] env)))
      (statuses ++ [status]) := by
  obtain ⟨row, hat⟩ := Option.isSome_iff_exists.mp h.row
  generalize htable : (∅ : StdMap CEnvironment).insert [] env = table
  have henv : (run.dialog.refreshEnv table).env = env := by
    rw [refreshEnv, h.id, ← htable, Lookups.getElem?_insert_self]
    rfl
  have hrow : (run.dialog.refreshEnv table).rows[someContainer.id]? = some row := hat
  have hsome : ((run.dialog.refreshEnv table).rows[someContainer.id]?).isSome = true := by
    rw [hrow]
    rfl
  have hdialog : (run.dialog.checkEnvironmentStatus tr view table).env.id = [] ∧
      ((run.dialog.checkEnvironmentStatus tr view table).rows[someContainer.id]?).isSome = true := by
    have hchecked : checkContainers tr view [someContainer] (run.dialog.refreshEnv table) =
        ((run.dialog.refreshEnv table).setDesktopInfo someContainer row).checkContainerStatus tr view
          someContainer := by
      rw [checkContainers, hrow]
      rfl
    have hrefreshed : (run.dialog.refreshEnv table).env.id = [] := by rw [henv, hid]
    rw [checkEnvironmentStatus, henv, hconts]
    split
    · rw [hchecked]
      constructor
      · exact (congrArg CEnvironment.id (env_changeContStatus ..)).trans hrefreshed
      · exact ((sameRows_changeContStatus ..).trans (sameRows_setDesktopInfo hrow _)).trans hsome
    · constructor
      · exact (congrArg CEnvironment.id (env_changeContStatus ..)).trans hrefreshed
      · exact (sameRows_changeContStatus ..).trans hsome
  have hgiven : run.dialog.given view table = [([], status)] := by
    rw [given, henv, hconts]
    split
    · rename_i hconnected
      rw [if_pos hconnected] at hstatus
      have htaken : [someContainer].takeWhile
          (fun cont => ((run.dialog.refreshEnv table).rows[cont.id]?).isSome) = [someContainer] :=
        List.takeWhile_cons_of_pos hsome
      rw [htaken, List.map_singleton, hstatus]
      rfl
    · rename_i hconnected
      rw [if_neg hconnected] at hstatus
      rw [List.map_singleton, ← hstatus]
      rfl
  refine ⟨hdialog.1, hdialog.2, ?_⟩
  rw [Run.step, statusesOf_append, h.given, givenIn, hgiven]
  rfl

theorem shows_step {run : Run} {statuses : List Nat} (h : Shows run statuses) {status : Nat}
    (hstatus : status ≤ 5) : Shows (run.step tr (checkFor status)) (statuses ++ [status]) := by
  rw [checkFor]
  apply shows_check h rfl rfl
  revert status
  decide +kernel

theorem shows_run (tr : QString → QString) {statuses : List Nat}
    (hstatuses : ∀ status ∈ statuses, status ≤ 5) :
    Shows (run tr (someEnvironment "HEALTHY".toList) (statuses.map checkFor)) statuses := by
  induction statuses using List.reverseRecOn with
  | nil =>
      have hnew : (new (someEnvironment "HEALTHY".toList)).rows[([] : QString)]? =
          some (.new someContainer) := Lookups.getElem?_insert_self _ _ _
      exact ⟨rfl, Option.isSome_iff_exists.mpr ⟨_, hnew⟩, rfl⟩
  | append_singleton statuses status ih =>
      rw [List.map_append, List.map_singleton, run, List.foldl_concat]
      exact shows_step (ih fun status hmem => hstatuses status (List.mem_append_left _ hmem))
        (hstatuses status (List.mem_append_right _ (List.mem_singleton.mpr rfl)))

/-! ### The translations -/

/-- The text of a container is that for the statuses it was given. -/
def TextsRight (tr : QString → QString) (run : Run) : Prop :=
  ∀ (contId : QString) (row : ContainerRow), run.dialog.rows[contId]? = some row →
    row.text = textFor tr (statusesOf run.given contId)

/-- The Brazilian translation of the texts of the dialog. -/
def portuguese (text : QString) : QString :=
  if text = ready then "PRONTO".toList
  else if text = "CONNECTING".toList then "CONECTANDO".toList
  else if text = failed then "FALHA".toList
  else if text = "Environment is not HEALTHY".toList then "Ambiente não está SAUDÁVEL".toList
  else if text = "P2P is not running".toList then "P2P não está rodando".toList
  else text

/-- Along every run the text of a container tells the last status that it was given, or for how many
checks it could not be connected, exactly when the dialog understands its translation. -/
theorem textsRight_run_iff (tr : QString → QString) :
    (∀ (env : CEnvironment) (events : List DialogEvent), TextsRight tr (run tr env events)) ↔
      Understood tr := by
  constructor
  · intro h
    apply understood_of_textFor
    intro statuses hstatuses
    have hshows := shows_run tr hstatuses
    obtain ⟨row, hrow⟩ := Option.isSome_iff_exists.mp hshows.row
    have hright := h _ _ [] row hrow
    rw [textsFollow_run tr _ _ [] row hrow, hshows.given] at hright
    exact hright
  · intro h env events contId row hrow
    rw [textsFollow_run tr env events contId row hrow]
    exact textAfter_eq_textFor h (statusesOf_le_run tr env events contId)

example : Understood id := ⟨by decide +kernel, by decide +kernel⟩

example : ¬ Understood portuguese := fun h => absurd (h.waiting 5 (by decide)) (by decide +kernel)

/-! ## The buttons -/

/-- `check_buttons` looks at a container that is checked, and connected or on this machine. -/
def looksAt (view : P2PView) (dialog : EnvironmentDialog) (cont : CHubContainer) : Bool :=
  (dialog.rows[cont.id]?).any ContainerRow.checked &&
    (view.isSwarmConnected dialog.env || view.isContInMachine cont.peerId)

def isReadyRow (dialog : EnvironmentDialog) (cont : CHubContainer) : Bool :=
  (dialog.rows[cont.id]?).any fun row => row.text = ready

theorem checkedState_cons (view : P2PView) (dialog : EnvironmentDialog) (desktop notEmpty : Bool)
    (cont : CHubContainer) (conts : List CHubContainer) :
    dialog.checkedState view desktop notEmpty (cont :: conts) =
      if dialog.looksAt view cont then
        if dialog.isReadyRow cont then
          dialog.checkedState view (desktop && cont.isDesktop) true conts
        else (false, false, notEmpty)
      else dialog.checkedState view desktop notEmpty conts := by
  rw [checkedState, looksAt, isReadyRow]
  cases dialog.rows[cont.id]? with
  | none => rfl
  | some row =>
      dsimp only [Option.any_some]
      rw [Bool.and_comm]
      refine if_congr Iff.rfl ?_ rfl
      rw [ite_not]
      exact if_congr decide_eq_true_iff.symm rfl rfl

/-- The loop is left at a container that is not ready. -/
theorem checkedState_eq (view : P2PView) (dialog : EnvironmentDialog) (desktop notEmpty : Bool)
    (conts : List CHubContainer) :
    let looked := conts.filter (dialog.looksAt view)
    dialog.checkedState view desktop notEmpty conts =
      (looked.all dialog.isReadyRow,
        looked.all dialog.isReadyRow && (desktop && looked.all CHubContainer.isDesktop),
        notEmpty || !(looked.takeWhile dialog.isReadyRow).isEmpty) := by
  induction conts generalizing desktop notEmpty with
  | nil => simp [checkedState]
  | cons cont conts ih =>
      rw [checkedState_cons, List.filter_cons]
      split
      · rename_i hlooks
        dsimp only
        rw [List.all_cons, List.all_cons, List.takeWhile_cons]
        split
        · rename_i hready
          rw [ih]
          simp [hready, Bool.and_assoc]
        · rename_i hready
          simp [hready]
      · exact ih desktop notEmpty

/-- The containers that `check_buttons` looks at. -/
def looked (view : P2PView) (dialog : EnvironmentDialog) : List CHubContainer :=
  dialog.env.lstContainers.filter (dialog.looksAt view)

/-- The buttons for the containers that are checked: one of them is to be looked at, and those that
are have to be ready. -/
theorem checkButtons_iff (view : P2PView) (dialog : EnvironmentDialog) :
    ((dialog.checkButtons view).btnSsh = true ↔ dialog.env.healthy = true ∧
        dialog.looked view ≠ [] ∧ ∀ cont ∈ dialog.looked view, dialog.isReadyRow cont = true) ∧
      (dialog.checkButtons view).btnUpload = (dialog.checkButtons view).btnSsh ∧
      ((dialog.checkButtons view).btnDesktop = true ↔ (dialog.checkButtons view).btnSsh = true ∧
        ∀ cont ∈ dialog.looked view, cont.isDesktop = true) := by
  rw [checkButtons]
  by_cases hhealthy : dialog.env.healthy = true
  · have hstate := checkedState_eq view dialog true false dialog.env.lstContainers
    have hwhole (hall : ∀ cont ∈ dialog.looked view, dialog.isReadyRow cont = true) :
        (dialog.looked view).takeWhile dialog.isReadyRow = dialog.looked view :=
      List.takeWhile_eq_self_iff.mpr hall
    rw [if_pos hhealthy, hstate]
    dsimp only
    rw [← looked, Bool.false_or, Bool.true_and]
    refine ⟨?_, rfl, ?_⟩
    · rw [Bool.and_eq_true, Bool.not_eq_true', List.isEmpty_eq_false_iff, List.all_eq_true,
        and_iff_right hhealthy]
      constructor
      · rintro ⟨hall, hnonempty⟩
        rw [hwhole hall] at hnonempty
        exact ⟨hnonempty, hall⟩
      · rintro ⟨hnonempty, hall⟩
        rw [hwhole hall]
        exact ⟨hall, hnonempty⟩
    · simp only [Bool.and_eq_true, List.all_eq_true]
      tauto
  · rw [if_neg hhealthy]
    refine ⟨iff_of_false Bool.false_ne_true fun hboth => hhealthy hboth.1, rfl, ?_⟩
    exact iff_of_false Bool.false_ne_true fun hboth => Bool.false_ne_true hboth.1

/-- The other texts of the checkboxes. -/
def otherTexts : List QString := "CONNECTING".toList :: "WAITING".toList :: failed :: marks

theorem waitingText_ne_ready (hother : ∀ text ∈ otherTexts, tr text ≠ ready) (times : Nat) :
    waitingText tr times ≠ ready := by
  rw [waitingText.eq_def]
  split <;> exact hother _ (by decide)

/-- A checkbox reads `READY` if its container was not checked, or was connected at last and `READY` is not
translated. -/
theorem textAfter_eq_ready_iff (hother : ∀ text ∈ otherTexts, tr text ≠ ready) (statuses : List Nat)
    (hstatuses : ∀ status ∈ statuses, status ≤ 5) :
    textAfter tr statuses = ready ↔ ∀ status ∈ statuses.getLast?, status = 0 ∧ tr ready = ready := by
  cases statuses using List.reverseRecOn with
  | nil => exact iff_of_true rfl fun status hstatus => absurd hstatus (Option.not_mem_none status)
  | append_singleton statuses status =>
      have hle := hstatuses status (List.mem_append_right _ (List.mem_singleton.mpr rfl))
      have hlast : (∀ last ∈ (statuses ++ [status]).getLast?, last = 0 ∧ tr ready = ready) ↔
          status = 0 ∧ tr ready = ready := by
        rw [List.getLast?_concat]
        exact ⟨fun h => h status rfl, fun h last hmem => Option.mem_some_iff.mp hmem ▸ h⟩
      rw [hlast, textAfter_concat]
      by_cases hconnected : unconnected status = true
      · rw [nextStatus_unconnected hconnected]
        refine iff_of_false (waitingText_ne_ready hother _) ?_
        rintro ⟨rfl, -⟩
        exact absurd hconnected Bool.false_ne_true
      · rw [nextStatus_connected hconnected hle]
        have hcases : status = 0 ∨ status = 1 ∨ status = 2 ∨ status = 4 := by
          rw [unconnected, Bool.or_eq_true, decide_eq_true_eq, decide_eq_true_eq] at hconnected
          omega
        obtain rfl | rfl | rfl | rfl := hcases
        · exact (and_iff_right rfl).symm
        · exact iff_of_false (hother _ (by decide)) (fun h => absurd h.1 (by decide))
        · exact iff_of_false (hother _ (by decide)) (fun h => absurd h.1 (by decide))
        · exact iff_of_false (hother _ (by decide)) (fun h => absurd h.1 (by decide))

/-- After every run: the buttons can be pressed when the environment is healthy, `check_buttons` looks at
some container, and each at which it looks was not checked yet, or was connected at last and `READY` is
not translated. -/
theorem btnSsh_run_iff (tr : QString → QString) (hother : ∀ text ∈ otherTexts, tr text ≠ ready)
    (env : CEnvironment) (events : List DialogEvent) (view : P2PView) :
    ((run tr env events).dialog.checkButtons view).btnSsh = true ↔
      (run tr env events).dialog.env.healthy = true ∧
      (run tr env events).dialog.looked view ≠ [] ∧
      ∀ cont ∈ (run tr env events).dialog.looked view,
        ∀ status ∈ (statusesOf (run tr env events).given cont.id).getLast?, status = 0 ∧ tr ready = ready := by
  rw [(checkButtons_iff view _).1]
  refine and_congr_right fun _ => and_congr_right fun _ => forall₂_congr fun cont hcont => ?_
  have hlooks := (List.mem_filter.mp hcont).2
  rw [looksAt, Bool.and_eq_true] at hlooks
  obtain ⟨row, hrow, -⟩ := Option.any_eq_true _ _ |>.mp hlooks.1
  rw [isReadyRow, hrow, Option.any_some, decide_eq_true_iff, textsFollow_run tr env events cont.id row hrow,
    textAfter_eq_ready_iff hother _ (statusesOf_le_run tr env events cont.id)]

def onThisMachine : P2PView where
  isSwarmConnected _ := true
  isContInMachine _ := true
  p2pRunning := true
  isReady _ _ := true

/-- A container that was found connected and is checked: its buttons can be pressed, but not in
Portuguese. -/
theorem btnSsh_run_portuguese :
    ((run id (someEnvironment "HEALTHY".toList)
      [checkFor 0, .setChecked onThisMachine [] true]).dialog.checkButtons onThisMachine).btnSsh = true ∧
    ((run portuguese (someEnvironment "HEALTHY".toList)
      [checkFor 0, .setChecked onThisMachine [] true]).dialog.checkButtons onThisMachine).btnSsh = false := by
  constructor
  · rw [btnSsh_run_iff id (by decide +kernel)]
    decide +kernel
  · rw [← Bool.not_eq_true, btnSsh_run_iff portuguese (by decide +kernel)]
    decide +kernel

/-- With the swarm connected the containers that the buttons open are those that are looked at. -/
theorem looked_eq_selected {view : P2PView} {dialog : EnvironmentDialog}
    (hconnected : view.isSwarmConnected dialog.env = true) :
    dialog.looked view = dialog.selected := by
  rw [looked, selected]
  apply List.filter_congr
  intro cont _
  rw [looksAt, hconnected, Bool.true_or, Bool.and_true]

end EnvironmentDialog

end SubutaiTray.Hub
