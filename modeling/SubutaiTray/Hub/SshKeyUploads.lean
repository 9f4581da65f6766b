import Mathlib.Data.List.Nodup
import SubutaiTray.Hub.SshKeyIndex

/-!
The keys that the dialog `DlgGenerateSshKey` uploads.

The dialog shows the keys by file name and stores the boxes that are checked under the row and
the environment. `upload_key` takes the rows as indexes of the keys at that time, and a row past
the end stands for an empty key.
-/
namespace SubutaiTray.Hub

namespace SshKeyController

/-- `SshKey key; if (tmp.size() > index) key = tmp.at(index);` -/
def addressedKey (keys : List SshKey) (index : Nat) : SshKey := (keys[index]?).getD ⟨[], [], [], []⟩

/-- What a worker is to upload; the row only remembers. -/
structure UploadRequest where
  row : Nat
  fileName : QString
  content : QString
  envIds : List QString
  deriving DecidableEq

def uploadRequest (keys : List SshKey) (state : Nat × List (QString × Bool)) : UploadRequest where
  row := state.1
  fileName := (addressedKey keys state.1).fileName
  content := (addressedKey keys state.1).content
  envIds := (state.2.filter fun st => st.2 && st.1 ∉ (addressedKey keys state.1).envIds).map Prod.fst

def uploadRequests (keys : List SshKey) (keyWithSelectedEnvs : List (Nat × List (QString × Bool))) :
    List UploadRequest :=
  (keyWithSelectedEnvs.map (uploadRequest keys)).filter fun request => request.envIds ≠ []

/-- One job for each request. -/
theorem uploading_uploadKey (keyWithSelectedEnvs : List (Nat × List (QString × Bool)))
    (run : SshKeyController) :
    (run.uploadKey keyWithSelectedEnvs).uploading =
      run.uploading ++ (uploadRequests run.keys keyWithSelectedEnvs).map UploadRequest.envIds := by
  have henvs : selectedEnvs run.keys = UploadRequest.envIds ∘ uploadRequest run.keys := by
    funext state
    rw [selectedEnvs, Function.comp_apply, uploadRequest, addressedKey]
    cases run.keys[state.1]? with
    | none => rfl
    | some key => rfl
  rw [uploadKey, uploadRequests, henvs, ← List.map_map, List.filter_map]
  rfl

end SshKeyController

open SshKeyController

/-- A box that has been set; the content is that of the key that the row showed then. -/
structure Mark where
  checked : Bool
  shown : QString
  deriving DecidableEq

/-- The dialog beside its controller. A row of the keys shows the file name and holds the
environments; the rest of the key only remembers. -/
structure KeysWindow where
  controller : SshKeyController
  rows : List SshKey
  environments : List (QString × Bool)
  currentKeyIndex : Nat
  allStateEnvs : Std.ExtTreeMap Nat (StdMap Mark)

namespace KeysWindow

def states (s : KeysWindow) : StdMap Mark := (s.allStateEnvs[s.currentKeyIndex]?).getD ∅

def environmentsItemChanged (env : QString) (checked : Bool) (s : KeysWindow) : KeysWindow :=
  if s.rows = [] then s
  else
    { s with
      allStateEnvs := s.allStateEnvs.insert s.currentKeyIndex
        (s.states.insert env ⟨checked, (addressedKey s.rows s.currentKeyIndex).content⟩) }

/-- `setCheckState` of an item; only a change is reported. -/
def setCheckState (checked : QString → Bool) (s : KeysWindow) (i : Nat) : KeysWindow :=
  match s.environments[i]? with
  | none => s
  | some (env, before) =>
      if before = checked env then s
      else
        { s with environments := s.environments.set i (env, checked env) }.environmentsItemChanged env
          (checked env)

/-- A box that was set for the row stays so, another tells whether the environment has the key. -/
def flag (s : KeysWindow) (env : QString) : Bool :=
  match s.states[env]? with
  | some mark => mark.checked
  | none => env ∈ (addressedKey s.rows s.currentKeyIndex).envIds

def setEnvironmentsCheckedFlag (s : KeysWindow) : KeysWindow :=
  if s.rows = [] then s
  else (List.range s.environments.length).foldl (fun s i => s.setCheckState s.flag i) s

/-- The current row is one of the rows. -/
def lstvKeysCurrentChanged (row : Nat) (s : KeysWindow) : KeysWindow :=
  if row < s.rows.length then { s with currentKeyIndex := row }.setEnvironmentsCheckedFlag else s

/-- The new rows have no current one until it is set. -/
def rebuildKeysModel (s : KeysWindow) : KeysWindow :=
  { s with rows := s.controller.keys }.lstvKeysCurrentChanged s.currentKeyIndex

def rebuildEnvironmentsModel (s : KeysWindow) : KeysWindow :=
  { s with environments := s.controller.lstHealthyEnvironments.keys.map fun id => (id, false) }

def rebuild (s : KeysWindow) : KeysWindow :=
  s.rebuildKeysModel.rebuildEnvironmentsModel.setEnvironmentsCheckedFlag

def opened (controller : SshKeyController) : KeysWindow := rebuild ⟨controller, [], [], 0, ∅⟩

def keysUpdatedSlot (s : KeysWindow) : KeysWindow :=
  if s.controller.keys.length ≠ s.rows.length then
    { s with allStateEnvs := ∅, currentKeyIndex := 0 }.rebuild
  else s.rebuild

def chkSelectAllCheckedChanged (checked : Bool) (s : KeysWindow) : KeysWindow :=
  (List.range s.environments.length).foldl (setCheckState fun _ => checked) s

def selection (s : KeysWindow) : List (Nat × List (QString × Bool)) :=
  s.allStateEnvs.toList.map fun state =>
    (state.1, state.2.toList.map fun st => (st.1, st.2.checked))

/-- What `btn_send_to_hub_released` has uploaded. -/
def requests (s : KeysWindow) : List UploadRequest := uploadRequests s.controller.keys s.selection

/-- The controller changes in other threads as well, and its signal may reach the dialog later. -/
inductive Event where
  | controller (event : SshKeyController.Event)
  | keysUpdatedSlot
  | lstvKeysCurrentChanged (row : Nat)
  | environmentChecked (i : Nat) (checked : Bool)
  | chkSelectAllCheckedChanged (checked : Bool)
  | btnSendToHubReleased

/-- Uploads are begun by the dialog alone. -/
def step (s : KeysWindow) : Event → Option KeysWindow
  | .controller (.uploadKey _) => none
  | .controller event => (s.controller.step event).map fun controller => { s with controller := controller }
  | .keysUpdatedSlot => some s.keysUpdatedSlot
  | .lstvKeysCurrentChanged row => some (s.lstvKeysCurrentChanged row)
  | .environmentChecked i checked => some (s.setCheckState (fun _ => checked) i)
  | .chkSelectAllCheckedChanged checked => some (s.chkSelectAllCheckedChanged checked)
  | .btnSendToHubReleased =>
      (s.controller.step (.uploadKey s.selection)).map fun controller => { s with controller := controller }

/-! ## What is to be uploaded -/

/-- The box is checked, and the row showed a key of the content when it was. -/
def Selected (s : KeysWindow) (row : Nat) (env content : QString) : Prop :=
  ∃ states, s.allStateEnvs[row]? = some states ∧ states[env]? = some ⟨true, content⟩

def Holds (keys : List SshKey) (env content : QString) : Prop :=
  ∃ key ∈ keys, key.content = content ∧ env ∈ key.envIds

/-- Of a key that is still there, to an environment that does not have it. -/
def Wanted (s : KeysWindow) (row : Nat) (env content : QString) : Prop :=
  s.Selected row env content ∧ content ∈ contents s.controller.keys ∧
    ¬ Holds s.controller.keys env content

structure UploadRight (s : KeysWindow) : Prop where
  targets : ∀ row env content,
    (∃ request ∈ s.requests, request.row = row ∧ request.content = content ∧ env ∈ request.envIds) ↔
      s.Wanted row env content
  once : (s.requests.map UploadRequest.row).Nodup
  envIds : ∀ request ∈ s.requests, request.envIds ≠ [] ∧ request.envIds.Nodup

/-- For each checked box the row is that of a key with the content that was shown, or there is
nothing to send and the environment has the key that the row has now. -/
def InPlace (s : KeysWindow) : Prop :=
  ∀ row env content, s.Selected row env content →
    (addressedKey s.controller.keys row).content = content ∧ content ∈ contents s.controller.keys ∧
        (env ∈ (addressedKey s.controller.keys row).envIds ↔ Holds s.controller.keys env content) ∨
      env ∈ (addressedKey s.controller.keys row).envIds ∧
        (content ∈ contents s.controller.keys → Holds s.controller.keys env content)

/-! ## What is uploaded -/

section
variable {s : KeysWindow} {row : Nat} {env content : QString}

theorem mem_requests (request : UploadRequest) :
    request ∈ s.requests ↔ request.envIds ≠ [] ∧ ∃ row states, s.allStateEnvs[row]? = some states ∧
      request = uploadRequest s.controller.keys
        (row, states.toList.map fun st => (st.1, st.2.checked)) := by
  rw [requests, uploadRequests, List.mem_filter, decide_eq_true_eq, and_comm, selection, List.map_map,
    List.mem_map]
  refine and_congr_right fun _ => ?_
  constructor
  · rintro ⟨⟨row, states⟩, hmem, rfl⟩
    exact ⟨row, states, Std.ExtTreeMap.mem_toList_iff_getElem?_eq_some.mp hmem, rfl⟩
  · rintro ⟨row, states, hget, rfl⟩
    exact ⟨(row, states), Std.ExtTreeMap.mem_toList_iff_getElem?_eq_some.mpr hget, rfl⟩

theorem mem_envIds_uploadRequest (keys : List SshKey) (states : StdMap Mark) :
    env ∈ (uploadRequest keys (row, states.toList.map fun st => (st.1, st.2.checked))).envIds ↔
      env ∉ (addressedKey keys row).envIds ∧ ∃ shown, states[env]? = some ⟨true, shown⟩ := by
  rw [uploadRequest, List.mem_map]
  constructor
  · rintro ⟨⟨env', checked⟩, hmem, rfl⟩
    obtain ⟨hin, hst⟩ := List.mem_filter.mp hmem
    rw [Bool.and_eq_true, decide_eq_true_eq] at hst
    obtain ⟨⟨env'', mark⟩, hstate, heq⟩ := List.mem_map.mp hin
    cases heq
    refine ⟨hst.2, mark.shown, ?_⟩
    rw [Std.ExtTreeMap.mem_toList_iff_getElem?_eq_some.mp hstate, ← hst.1]
  · rintro ⟨hnot, shown, hget⟩
    refine ⟨(env, true), List.mem_filter.mpr ⟨?_, ?_⟩, rfl⟩
    · exact List.mem_map.mpr ⟨(env, ⟨true, shown⟩), Std.ExtTreeMap.mem_toList_iff_getElem?_eq_some.mpr hget, rfl⟩
    · rw [Bool.true_and, decide_eq_true_eq]
      exact hnot

/-- The row counts, not what it showed. -/
theorem sent_iff :
    (∃ request ∈ s.requests, request.row = row ∧ request.content = content ∧ env ∈ request.envIds) ↔
      (∃ shown, s.Selected row env shown) ∧ env ∉ (addressedKey s.controller.keys row).envIds ∧
        (addressedKey s.controller.keys row).content = content := by
  constructor
  · rintro ⟨request, hmem, rfl, rfl, henv⟩
    obtain ⟨-, row', states, hget, rfl⟩ := (mem_requests request).mp hmem
    obtain ⟨hnot, shown, hmark⟩ := (mem_envIds_uploadRequest _ states).mp henv
    exact ⟨⟨shown, states, hget, hmark⟩, hnot, rfl⟩
  · rintro ⟨⟨shown, states, hget, hmark⟩, hnot, rfl⟩
    have henv := (mem_envIds_uploadRequest s.controller.keys states).mpr ⟨hnot, shown, hmark⟩
    refine ⟨_, (mem_requests _).mpr ⟨?_, row, states, hget, rfl⟩, rfl, rfl, henv⟩
    exact List.ne_nil_of_mem henv

theorem selected_unique {shown shown' : QString} (h : s.Selected row env shown)
    (h' : s.Selected row env shown') : shown = shown' := by
  obtain ⟨states, hget, hmark⟩ := h
  obtain ⟨states', hget', hmark'⟩ := h'
  rw [hget, Option.some.injEq] at hget'
  rw [← hget', hmark, Option.some.injEq, Mark.mk.injEq] at hmark'
  exact hmark'.2

theorem nodup_rows (s : KeysWindow) : (s.requests.map UploadRequest.row).Nodup := by
  have hrows : (s.selection.map (uploadRequest s.controller.keys)).map UploadRequest.row =
      s.allStateEnvs.keys := by
    rw [selection, List.map_map, List.map_map, ← Std.ExtTreeMap.map_fst_toList_eq_keys]
    rfl
  have hsublist := (List.filter_sublist (p := fun request : UploadRequest => request.envIds ≠ [])
    (l := s.selection.map (uploadRequest s.controller.keys))).map UploadRequest.row
  rw [hrows] at hsublist
  exact hsublist.nodup Std.ExtTreeMap.nodup_keys

theorem nodup_envIds (keys : List SshKey) (states : StdMap Mark) :
    (uploadRequest keys (row, states.toList.map fun st => (st.1, st.2.checked))).envIds.Nodup := by
  have henvs : (states.toList.map fun st => (st.1, st.2.checked)).map Prod.fst = states.keys := by
    rw [List.map_map, ← Std.ExtTreeMap.map_fst_toList_eq_keys]
    rfl
  have hsublist := (List.filter_sublist (p := fun st : QString × Bool => st.2 && st.1 ∉ (addressedKey keys row).envIds)
    (l := states.toList.map fun st => (st.1, st.2.checked))).map Prod.fst
  rw [henvs] at hsublist
  exact hsublist.nodup Std.ExtTreeMap.nodup_keys

theorem uploadRight_iff (s : KeysWindow) : s.UploadRight ↔ s.InPlace := by
  constructor
  · intro h row env content hselected
    by_cases hholds : env ∈ (addressedKey s.controller.keys row).envIds
    · refine .inr ⟨hholds, fun hmem => ?_⟩
      by_contra hnot
      have hsent := (h.targets row env content).mpr ⟨hselected, hmem, hnot⟩
      exact (sent_iff.mp hsent).2.1 hholds
    · have hsent := sent_iff.mpr ⟨⟨content, hselected⟩, hholds, rfl⟩
      obtain ⟨hselected', hmem, hnot⟩ := (h.targets row env _).mp hsent
      have heq := selected_unique hselected' hselected
      rw [heq] at hmem hnot
      exact .inl ⟨heq, hmem, iff_of_false hholds hnot⟩
  · intro h
    refine ⟨?_, nodup_rows s, ?_⟩
    · intro row env content
      rw [sent_iff]
      constructor
      · rintro ⟨⟨shown, hselected⟩, hnot, rfl⟩
        cases h row env shown hselected with
        | inl hplace =>
            obtain ⟨heq, hmem, hholds⟩ := hplace
            rw [heq]
            exact ⟨hselected, hmem, mt hholds.mpr hnot⟩
        | inr hheld => exact absurd hheld.1 hnot
      · rintro ⟨hselected, hmem, hnot⟩
        cases h row env content hselected with
        | inl hplace =>
            obtain ⟨heq, -, hholds⟩ := hplace
            exact ⟨⟨content, hselected⟩, mt hholds.mp hnot, heq⟩
        | inr hheld => exact absurd (hheld.2 hmem) hnot
    · intro request hmem
      obtain ⟨hne, row, states, -, rfl⟩ := (mem_requests request).mp hmem
      exact ⟨hne, nodup_envIds _ states⟩

end

/-! ## While the contents stay -/

/-- Every box was set while its row showed the content that the keys have there. -/
def ShownIn (keys : List SshKey) (allStateEnvs : Std.ExtTreeMap Nat (StdMap Mark)) : Prop :=
  ∀ (row : Nat) (states : StdMap Mark) (env : QString) (mark : Mark),
    allStateEnvs[row]? = some states → states[env]? = some mark →
      (contents keys)[row]? = some mark.shown

structure Marked (s : KeysWindow) : Prop where
  current : s.rows ≠ [] → s.currentKeyIndex < s.rows.length
  marks : ShownIn s.rows s.allStateEnvs

section
variable {s s' : KeysWindow}

theorem getElem?_insert_allStateEnvs (m : Std.ExtTreeMap Nat (StdMap Mark)) (key row : Nat)
    (states : StdMap Mark) : (m.insert key states)[row]? = if key = row then some states else m[row]? := by
  rw [Std.ExtTreeMap.getElem?_insert]
  exact if_congr Nat.compare_eq_eq rfl rfl

theorem Marked.environmentsItemChanged (h : s.Marked) (env : QString) (checked : Bool) :
    (s.environmentsItemChanged env checked).Marked := by
  rw [KeysWindow.environmentsItemChanged]
  split
  · exact h
  · rename_i hrows
    have hlt := h.current hrows
    have hcurrent : (contents s.rows)[s.currentKeyIndex]? =
        some (addressedKey s.rows s.currentKeyIndex).content := by
      rw [contents, List.getElem?_map, addressedKey, List.getElem?_eq_getElem hlt]
      rfl
    refine ⟨h.current, fun row states env' mark hstates hmark => ?_⟩
    dsimp only at hstates ⊢
    rw [getElem?_insert_allStateEnvs] at hstates
    split at hstates
    · rename_i hrow
      rw [Option.some.injEq] at hstates
      rw [← hstates, Lookups.getElem?_insert] at hmark
      rw [← hrow]
      split at hmark
      · rw [Option.some.injEq] at hmark
        rw [← hmark]
        exact hcurrent
      · rw [KeysWindow.states] at hmark
        cases hold : s.allStateEnvs[s.currentKeyIndex]? with
        | none =>
            rw [hold, Option.getD_none, Std.ExtTreeMap.getElem?_empty] at hmark
            cases hmark
        | some states' =>
            rw [hold] at hmark
            exact h.marks s.currentKeyIndex states' env' mark hold hmark
    · exact h.marks row states env' mark hstates hmark

/-- The boxes change, not the rows. -/
structure SameRows (s s' : KeysWindow) : Prop where
  controller : s'.controller = s.controller
  rows : s'.rows = s.rows

theorem sameRows_environmentsItemChanged (s : KeysWindow) (env : QString) (checked : Bool) :
    SameRows s (s.environmentsItemChanged env checked) := by
  rw [environmentsItemChanged]
  split
  · exact ⟨rfl, rfl⟩
  · exact ⟨rfl, rfl⟩

theorem sameRows_setCheckState (checked : QString → Bool) (s : KeysWindow) (i : Nat) :
    SameRows s (s.setCheckState checked i) := by
  rw [setCheckState]
  split
  · exact ⟨rfl, rfl⟩
  · split
    · exact ⟨rfl, rfl⟩
    · rename_i env _ _ _
      have h := sameRows_environmentsItemChanged
        { s with environments := s.environments.set i (env, checked env) } env (checked env)
      exact ⟨h.controller, h.rows⟩

theorem Marked.setCheckState (h : s.Marked) (checked : QString → Bool) (i : Nat) :
    (s.setCheckState checked i).Marked := by
  rw [KeysWindow.setCheckState]
  split
  · exact h
  · split
    · exact h
    · rename_i env _ _ _
      exact @Marked.environmentsItemChanged { s with environments := s.environments.set i (env, checked env) }
        ⟨h.current, h.marks⟩ env (checked env)

theorem Marked.setEnvironmentsCheckedFlag (h : s.Marked) :
    s.setEnvironmentsCheckedFlag.Marked ∧ SameRows s s.setEnvironmentsCheckedFlag := by
  rw [KeysWindow.setEnvironmentsCheckedFlag]
  split
  · exact ⟨h, rfl, rfl⟩
  · refine @Runs.invariant _ _ _ s (fun s' => s'.Marked ∧ SameRows s s') ⟨h, rfl, rfl⟩ ?_ _
    rintro s' i ⟨hmarked, hsame⟩
    have hnext := sameRows_setCheckState s'.flag s' i
    exact ⟨hmarked.setCheckState s'.flag i,
      hnext.controller.trans hsame.controller, hnext.rows.trans hsame.rows⟩

theorem Marked.chkSelectAllCheckedChanged (h : s.Marked) (checked : Bool) :
    (s.chkSelectAllCheckedChanged checked).Marked ∧
      SameRows s (s.chkSelectAllCheckedChanged checked) := by
  refine @Runs.invariant _ _ _ s (fun s' => s'.Marked ∧ SameRows s s') ⟨h, rfl, rfl⟩ ?_ _
  rintro s' i ⟨hmarked, hsame⟩
  have hnext := sameRows_setCheckState (fun _ => checked) s' i
  exact ⟨hmarked.setCheckState _ i,
    hnext.controller.trans hsame.controller, hnext.rows.trans hsame.rows⟩

theorem Marked.lstvKeysCurrentChanged (h : s.Marked) (row : Nat) :
    (s.lstvKeysCurrentChanged row).Marked ∧ SameRows s (s.lstvKeysCurrentChanged row) := by
  rw [KeysWindow.lstvKeysCurrentChanged]
  split
  · rename_i hlt
    have hflags := Marked.setEnvironmentsCheckedFlag
      (s := { s with currentKeyIndex := row }) ⟨fun _ => hlt, h.marks⟩
    exact ⟨hflags.1, hflags.2.controller, hflags.2.rows⟩
  · exact ⟨h, rfl, rfl⟩

/-- The rows are built anew from keys of the same contents. -/
theorem Marked.rebuild (hmarks : ShownIn s.controller.keys s.allStateEnvs)
    (hcurrent : s.controller.keys ≠ [] → s.currentKeyIndex < s.controller.keys.length) :
    s.rebuild.Marked ∧ s.rebuild.controller = s.controller ∧ s.rebuild.rows = s.controller.keys := by
  have hkeys := Marked.lstvKeysCurrentChanged
    (s := { s with rows := s.controller.keys }) ⟨hcurrent, hmarks⟩ s.currentKeyIndex
  have hflags := Marked.setEnvironmentsCheckedFlag
    (s := s.rebuildKeysModel.rebuildEnvironmentsModel) ⟨hkeys.1.current, hkeys.1.marks⟩
  exact ⟨hflags.1, hflags.2.controller.trans hkeys.2.controller, hflags.2.rows.trans hkeys.2.rows⟩

/-- The rows show what the controller has. -/
structure Synced (s : KeysWindow) : Prop where
  contents : contents s.rows = contents s.controller.keys
  marked : s.Marked

theorem Synced.length (h : s.Synced) : s.rows.length = s.controller.keys.length := by
  have := congrArg List.length h.contents
  rwa [SshKeyController.contents, SshKeyController.contents, List.length_map, List.length_map] at this

theorem Synced.rebuild (h : s.Synced) : s.rebuild.Synced := by
  have hmarks : ShownIn s.controller.keys s.allStateEnvs := by
    intro row states env mark hstates hmark
    rw [← h.contents]
    exact h.marked.marks row states env mark hstates hmark
  have hcurrent : s.controller.keys ≠ [] → s.currentKeyIndex < s.controller.keys.length := by
    intro hne
    rw [← h.length]
    apply h.marked.current
    rw [← List.length_pos_iff, h.length, List.length_pos_iff]
    exact hne
  obtain ⟨hmarked, hcontroller, hrows⟩ := Marked.rebuild hmarks hcurrent
  exact ⟨by rw [hrows, hcontroller], hmarked⟩

theorem Synced.of_sameRows (h : s.Synced) (hmarked : s'.Marked) (hsame : SameRows s s') : s'.Synced := by
  refine ⟨?_, hmarked⟩
  rw [hsame.rows, hsame.controller]
  exact h.contents

/-- The events of the controller are those that leave its contents as they are. -/
theorem Synced.step {event : Event} (h : s.Synced) (hstep : s.step event = some s')
    (hsame : SshKeyController.contents s'.controller.keys = SshKeyController.contents s.controller.keys) :
    s'.Synced := by
  have hcontroller {controller : SshKeyController} (heq : { s with controller := controller } = s') :
      s'.Synced := by
    subst heq
    exact ⟨h.contents.trans hsame.symm, ⟨h.marked.current, h.marked.marks⟩⟩
  cases event with
  | controller event =>
      cases event with
      | uploadKey keyWithSelectedEnvs => cases hstep
      | refreshKeyFiles _ | refreshHealthyEnvs _ | checkEnvironmentKeys _ _ | removeKey _ _ _ | removed _
      | uploaded _ =>
          rw [KeysWindow.step] at hstep
          · obtain ⟨controller, -, heq⟩ := Option.map_eq_some_iff.mp hstep
            exact hcontroller heq
          · rintro _ heq
            cases heq
  | keysUpdatedSlot =>
      rw [KeysWindow.step, Option.some.injEq, KeysWindow.keysUpdatedSlot,
        if_neg (fun hne => hne h.length.symm)] at hstep
      rw [← hstep]
      exact h.rebuild
  | lstvKeysCurrentChanged row =>
      obtain ⟨hmarked, hrows⟩ := h.marked.lstvKeysCurrentChanged row
      rw [← Option.some.inj hstep]
      exact h.of_sameRows hmarked hrows
  | environmentChecked i checked =>
      rw [← Option.some.inj hstep]
      exact h.of_sameRows (h.marked.setCheckState _ i) (sameRows_setCheckState _ s i)
  | chkSelectAllCheckedChanged checked =>
      obtain ⟨hmarked, hrows⟩ := h.marked.chkSelectAllCheckedChanged checked
      rw [← Option.some.inj hstep]
      exact h.of_sameRows hmarked hrows
  | btnSendToHubReleased =>
      rw [KeysWindow.step] at hstep
      obtain ⟨controller, -, heq⟩ := Option.map_eq_some_iff.mp hstep
      exact hcontroller heq

theorem synced_opened (controller : SshKeyController) :
    (opened controller).Synced ∧ (opened controller).controller = controller := by
  have hmarks : ShownIn controller.keys ∅ := by
    intro row states env mark hstates
    rw [Std.ExtTreeMap.getElem?_empty] at hstates
    cases hstates
  obtain ⟨hmarked, hcontroller, hrows⟩ :=
    @Marked.rebuild ⟨controller, [], [], 0, ∅⟩ hmarks List.length_pos_iff.mpr
  exact ⟨⟨by rw [opened, hrows, hcontroller], hmarked⟩, hcontroller⟩

/-- Where no two keys have one content, rows that show the keys are in place. -/
theorem Synced.inPlace (h : s.Synced) (hnodup : (SshKeyController.contents s.controller.keys).Nodup) :
    s.InPlace := by
  rintro row env content ⟨states, hstates, hmark⟩
  have hshown := h.marked.marks row states env _ hstates hmark
  rw [h.contents, SshKeyController.contents, List.getElem?_map] at hshown
  obtain ⟨key, hkey, hcontent⟩ := Option.map_eq_some_iff.mp hshown
  dsimp only at hcontent
  have hmem := List.mem_of_getElem? hkey
  have haddressed : addressedKey s.controller.keys row = key := by
    rw [addressedKey, hkey]
    rfl
  rw [haddressed]
  refine .inl ⟨hcontent, hcontent ▸ List.mem_map_of_mem hmem, ?_⟩
  constructor
  · exact fun henv => ⟨key, hmem, hcontent, henv⟩
  · rintro ⟨key', hmem', hcontent', henv⟩
    rwa [← List.inj_on_of_nodup_map hnodup hmem' hmem (hcontent'.trans hcontent.symm)]

end

/-- As long as the contents stay, each upload is right. -/
theorem uploads_right_of_contents {controller : SshKeyController}
    (hnodup : (contents controller.keys).Nodup) {events : List Event}
    (hstay : Runs.EachStepPartial step
      (fun s event => ∀ s', s.step event = some s' →
        contents s'.controller.keys = contents s.controller.keys) (opened controller) events) :
    Runs.EachStepPartial step (fun s event => event = .btnSendToHubReleased → s.UploadRight)
      (opened controller) events := by
  obtain ⟨hopened, hcontroller⟩ := synced_opened controller
  have hsynced := @Runs.alwaysPartial_of_eachStepPartial _ _ (opened controller) step
    (fun s => s.Synced ∧ (contents s.controller.keys).Nodup) _
    ⟨hopened, by rw [hcontroller]; exact hnodup⟩
    (fun s event s' h hsame hstep => ⟨h.1.step hstep (hsame s' hstep), by rw [hsame s' hstep]; exact h.2⟩)
    events hstay
  intro past event s hpast hrun _ _
  obtain ⟨h, hdistinct⟩ := hsynced past s ((List.prefix_append _ _).trans hpast) hrun
  exact (uploadRight_iff s).mpr (h.inPlace hdistinct)

/-- Each upload of a run is right if and only if it is begun with the rows in place. -/
theorem uploads_right_iff (controller : SshKeyController) (events : List Event) :
    Runs.EachStepPartial step (fun s event => event = .btnSendToHubReleased → s.UploadRight)
        (opened controller) events ↔
      Runs.EachStepPartial step (fun s event => event = .btnSendToHubReleased → s.InPlace)
        (opened controller) events := by
  simp only [uploadRight_iff]

/-- The dialog is open with two keys, of which the first is being removed. -/
def twoKeys : SshKeyController :=
  { new with
    keys :=
      [⟨"a.pub".toList, "/k/a.pub".toList, "ssh-rsa a".toList, []⟩,
        ⟨"b.pub".toList, "/k/b.pub".toList, "ssh-rsa b".toList, []⟩]
    lstHealthyEnvironments := (∅ : StdMap QString).insert "e1".toList "one".toList
    removing := ["ssh-rsa a".toList] }

/-- The environment is checked for the first row, and the key of that row goes before the signal
has reached the dialog. -/
def staleRow : List Event :=
  [.environmentChecked 0 true, .controller (.removed "ssh-rsa a".toList), .btnSendToHubReleased]

/-- The second key is uploaded in its place. -/
theorem not_uploads_right_staleRow :
    ¬ Runs.EachStepPartial step (fun s event => event = .btnSendToHubReleased → s.UploadRight)
        (opened twoKeys) staleRow := by
  intro hright
  have hends : ((staleRow.take 2).foldlM step (opened twoKeys)).map
      (fun s => (s.requests, (s.allStateEnvs[0]?).bind fun states => states["e1".toList]?)) =
        some ([⟨0, "b.pub".toList, "ssh-rsa b".toList, ["e1".toList]⟩], some ⟨true, "ssh-rsa a".toList⟩) := by
    decide +kernel
  obtain ⟨s, hrun, hends⟩ := Option.map_eq_some_iff.mp hends
  obtain ⟨hrequests, hmark⟩ := Prod.mk.injEq .. ▸ hends
  have hupload := hright (staleRow.take 2) .btnSendToHubReleased s (List.prefix_refl _) hrun rfl rfl
  have hsent : ∃ request ∈ s.requests, request.row = 0 ∧ request.content = "ssh-rsa b".toList ∧
      "e1".toList ∈ request.envIds := by
    rw [hrequests]
    exact ⟨_, List.mem_cons_self, rfl, rfl, List.mem_cons_self⟩
  obtain ⟨hselected, -⟩ := (hupload.targets 0 "e1".toList "ssh-rsa b".toList).mp hsent
  have hshown : s.Selected 0 "e1".toList "ssh-rsa a".toList := Option.bind_eq_some_iff.mp hmark
  have heq := selected_unique hselected hshown
  revert heq
  decide

end KeysWindow

end SubutaiTray.Hub
