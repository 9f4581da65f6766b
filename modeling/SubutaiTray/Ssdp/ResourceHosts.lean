import SubutaiTray.Library.Runs
import SubutaiTray.Qt.StdMap

/-!
The resource hosts that are found in the network (`CRhController`).

A refresh empties the list and waits for answers; when the delay is over the list is published
with a flag for changes. What the list was before is known to the history of a run only.
-/
namespace SubutaiTray.Ssdp

structure CRhController where
  dctResourceHosts : StdMap QString
  hasChanges : Bool
  refreshInProgress : Bool
  /-- Whether `m_delay_timer` runs. -/
  delayTimer : Bool

/-- The timer fires while it runs. -/
inductive RhEvent where
  | refresh
  | foundDevice (uid location : QString)
  | delayTimeout

namespace CRhController

def new : CRhController where
  dctResourceHosts := ∅
  hasChanges := false
  refreshInProgress := false
  delayTimer := false

def refresh (c : CRhController) : CRhController :=
  { c with dctResourceHosts := ∅, refreshInProgress := true, delayTimer := true }

def foundDeviceSlot (uid location : QString) (c : CRhController) : CRhController :=
  if !c.refreshInProgress then c
  else
    { c with
      hasChanges := c.hasChanges || (c.dctResourceHosts[uid]?).isNone
      dctResourceHosts := c.dctResourceHosts.insert uid location }

/-- The flag is emitted before it is reset. -/
def delayTimerTimeout (c : CRhController) : CRhController × Bool :=
  ({ c with refreshInProgress := false, delayTimer := false, hasChanges := false }, c.hasChanges)

end CRhController

/-- The controller with what was found since the last refresh, what was published last, and
whether a refresh since then was begun again after something had been found. -/
structure RhRun where
  controller : CRhController
  found : List (QString × QString)
  published : StdMap QString
  cutShort : Bool

namespace RhRun

def init : RhRun := ⟨.new, [], ∅, false⟩

def step (s : RhRun) : RhEvent → Option RhRun
  | .refresh =>
      some ⟨s.controller.refresh, [], s.published,
        s.cutShort || s.controller.refreshInProgress && !s.found.isEmpty⟩
  | .foundDevice uid location =>
      some { s with
        controller := s.controller.foundDeviceSlot uid location
        found := s.found ++ [(uid, location)] }
  | .delayTimeout =>
      if s.controller.delayTimer then
        some { s with
          controller := s.controller.delayTimerTimeout.1
          published := s.controller.dctResourceHosts
          cutShort := false }
      else none

/-- The hosts found since the last refresh are those that were published last. -/
def Unchanged (s : RhRun) : Prop := ∀ uid, uid ∈ s.found.map Prod.fst ↔ uid ∈ s.published

/-- An emission has the flag if and only if the hosts differ, and publishes those found. -/
def Right (s : RhRun) : RhEvent → Prop
  | .delayTimeout =>
      (s.controller.delayTimerTimeout.2 = true ↔ ¬ s.Unchanged) ∧
        ∀ uid, uid ∈ s.controller.delayTimerTimeout.1.dctResourceHosts ↔ uid ∈ s.found.map Prod.fst
  | .refresh | .foundDevice .. => True

/-- Hosts that are found are not those from before. When none is found, there were none before,
or a refresh that was begun again had found some. -/
def Good (s : RhRun) : RhEvent → Prop
  | .delayTimeout =>
      if s.found = [] then s.cutShort = true ↔ ∃ uid, uid ∈ s.published else ¬ s.Unchanged
  | .refresh | .foundDevice .. => True

structure Inv (s : RhRun) : Prop where
  timer : s.controller.delayTimer = s.controller.refreshInProgress
  hosts : s.controller.refreshInProgress = true →
    ∀ uid, uid ∈ s.controller.dctResourceHosts ↔ uid ∈ s.found.map Prod.fst
  flag : s.controller.refreshInProgress = true →
    (s.controller.hasChanges = true ↔ s.found ≠ [] ∨ s.cutShort = true)
  idle : s.controller.refreshInProgress = false →
    s.controller.hasChanges = false ∧ s.cutShort = false

variable {s s' : RhRun}

theorem inv_init : init.Inv where
  timer := rfl
  hosts h := absurd h Bool.false_ne_true
  flag h := absurd h Bool.false_ne_true
  idle _ := ⟨rfl, rfl⟩

theorem inv_refresh (h : s.Inv) (hstep : s.step .refresh = some s') : s'.Inv := by
  rw [step, Option.some.injEq] at hstep
  subst hstep
  refine ⟨rfl, ?_, ?_, ?_⟩
  · intro _ uid
    simp [CRhController.refresh]
  · intro _
    cases hprogress : s.controller.refreshInProgress with
    | true => simp [CRhController.refresh, h.flag hprogress, or_comm]
    | false => simp [CRhController.refresh, h.idle hprogress]
  · exact fun hidle => absurd hidle.symm Bool.false_ne_true

theorem inv_foundDevice (h : s.Inv) {uid location : QString}
    (hstep : s.step (.foundDevice uid location) = some s') : s'.Inv := by
  rw [step, Option.some.injEq] at hstep
  subst hstep
  cases hprogress : s.controller.refreshInProgress with
  | false =>
      have hsame : s.controller.foundDeviceSlot uid location = s.controller := by
        rw [CRhController.foundDeviceSlot, hprogress]
        rfl
      rw [hsame]
      have hnot : ¬ s.controller.refreshInProgress = true := by
        rw [hprogress]
        exact Bool.false_ne_true
      exact ⟨h.timer, fun hc => absurd hc hnot, fun hc => absurd hc hnot, h.idle⟩
  | true =>
      have hhosts := h.hosts hprogress
      have hflag := h.flag hprogress
      refine ⟨?_, ?_, ?_, ?_⟩
      · simp [CRhController.foundDeviceSlot, hprogress, h.timer]
      · intro _ other
        simp only [CRhController.foundDeviceSlot, hprogress, Bool.not_true, Bool.false_eq_true, if_false,
          Lookups.mem_insert, hhosts, List.map_append, List.map_cons, List.map_nil, List.mem_append,
          List.mem_singleton]
        exact or_comm
      · intro _
        -- a host that is not new has been found before
        have hnew : s.controller.hasChanges = true ∨ uid ∉ s.controller.dctResourceHosts := by
          rw [hflag, hhosts]
          by_cases hfound : s.found = []
          · right
            rw [hfound]
            exact List.not_mem_nil
          · exact Or.inl (Or.inl hfound)
        simp [CRhController.foundDeviceSlot, hprogress, hnew]
      · intro hidle
        simp [CRhController.foundDeviceSlot, hprogress] at hidle

theorem inv_step (h : s.Inv) {event : RhEvent} (hstep : s.step event = some s') : s'.Inv := by
  cases event with
  | refresh => exact inv_refresh h hstep
  | foundDevice uid location => exact inv_foundDevice h hstep
  | delayTimeout =>
      rw [step] at hstep
      split at hstep
      · rw [Option.some.injEq] at hstep
        subst hstep
        exact ⟨rfl, fun hc => absurd hc Bool.false_ne_true, fun hc => absurd hc Bool.false_ne_true,
          fun _ => ⟨rfl, rfl⟩⟩
      · exact absurd hstep.symm (Option.some_ne_none s')

theorem right_event_iff (h : s.Inv) (event : RhEvent) (hstep : (s.step event).isSome) :
    s.Right event ↔ s.Good event := by
  cases event with
  | refresh => exact Iff.rfl
  | foundDevice uid location => exact Iff.rfl
  | delayTimeout =>
      have hprogress : s.controller.refreshInProgress = true := by
        rw [← h.timer]
        rw [step] at hstep
        split at hstep
        · assumption
        · exact absurd hstep Bool.false_ne_true
      have hright : s.Right .delayTimeout ↔ (s.controller.hasChanges = true ↔ ¬ s.Unchanged) :=
        and_iff_left (h.hosts hprogress)
      rw [hright, h.flag hprogress, Good]
      split
      · rename_i hfound
        have hsame : ¬ s.Unchanged ↔ ∃ uid, uid ∈ s.published := by
          rw [Unchanged, hfound, ← not_forall_not]
          simp
        rw [hsame, or_iff_right (not_not.mpr hfound)]
      · rename_i hfound
        exact ⟨fun hflag => hflag.mp (Or.inl hfound), fun hchange => iff_of_true (Or.inl hfound) hchange⟩

/-- All emissions of a run are right if and only if the hosts come and go as the flag takes it. -/
theorem emissions_right_iff (events : List RhEvent) :
    Runs.EachStepPartial step Right init events ↔ Runs.EachStepPartial step Good init events :=
  Runs.eachStepPartial_congr inv_init (fun _ _ _ h hstep => inv_step h hstep)
    (fun _ event h hstep => right_event_iff h event hstep) events

/-- The same host answers to two refreshes. -/
theorem not_right_sameHost :
    ¬ Runs.EachStepPartial step Right init
      [.refresh, .foundDevice ['a'] ['x'], .delayTimeout, .refresh, .foundDevice ['a'] ['x'],
        .delayTimeout] := by
  intro right
  have hright := right
    [.refresh, .foundDevice ['a'] ['x'], .delayTimeout, .refresh, .foundDevice ['a'] ['x']]
    .delayTimeout _ (List.prefix_refl _) rfl rfl
  apply hright.1.mp rfl
  intro uid
  have hpublished : uid ∈ [['a']] ↔ uid ∈ (∅ : StdMap QString).insert ['a'] ['x'] := by
    rw [Lookups.mem_insert, List.mem_singleton]
    exact (or_iff_left Std.ExtTreeMap.not_mem_empty).symm
  exact hpublished

end RhRun

end SubutaiTray.Ssdp
