import SubutaiTray.Library.Runs
import SubutaiTray.Hub.Controller

/-!
The refresh loop over all runs.

The timer is armed by the reply that makes the counter two. Replies to older
refreshes and to repeated requests are counted like any other, so what has to be
kept is that below two there are always enough requests on their way.
-/
namespace SubutaiTray.Hub

inductive HubEvent where
  | refreshTimerTimeout
  | forceRefresh
  | start
  | settingsChanged
  | logout
  /-- `CSshKeyController` asks for the environments as well. -/
  | updateEnvironments
  | balanceReply (reply : BalanceReply)
  | environmentsReply (reply : EnvironmentsReply)
  | loginReturned (lerr : Int)

namespace HubController

def inFlight (hub : HubController) : Nat := hub.balanceRequests + hub.environmentsRequests

/-- A timeout needs the timer, a reply a request, and the end of a login a slot. -/
def step (hub : HubController) : HubEvent → Option HubController
  | .refreshTimerTimeout => if hub.refreshTimer then some hub.refreshTimerTimeout else none
  | .forceRefresh => some hub.forceRefresh
  | .start => some hub.start
  | .settingsChanged => some hub.settingsChanged
  | .logout => some hub.logout
  | .updateEnvironments => some hub.updateEnvironments
  | .balanceReply reply =>
      if hub.balanceRequests = 0 then none
      else some ({ hub with balanceRequests := hub.balanceRequests - 1 }.onBalanceUpdatedSl reply)
  | .environmentsReply reply =>
      if hub.environmentsRequests = 0 then none
      else
        some ({ hub with environmentsRequests := hub.environmentsRequests - 1 }.onEnvironmentsUpdatedSl
          reply).1
  | .loginReturned lerr => hub.loginReturned lerr

structure Steady (hub hub' : HubController) : Prop where
  updatedComponentsCount : hub'.updatedComponentsCount = hub.updatedComponentsCount
  refreshTimer : hub'.refreshTimer = hub.refreshTimer
  inFlight : hub.inFlight ≤ hub'.inFlight

structure Answered (hub hub' : HubController) : Prop where
  updatedComponentsCount : hub'.updatedComponentsCount = hub.updatedComponentsCount + 1
  refreshTimer : hub'.refreshTimer = true ↔
    hub.refreshTimer = true ∨ hub.updatedComponentsCount + 1 = 2
  inFlight : hub.inFlight ≤ hub'.inFlight + 1

variable {hub hub' : HubController}

theorem Steady.trans {hub'' : HubController} (h : hub.Steady hub') (h' : hub'.Steady hub'') :
    hub.Steady hub'' :=
  ⟨h'.updatedComponentsCount.trans h.updatedComponentsCount,
    h'.refreshTimer.trans h.refreshTimer, Nat.le_trans h.inFlight h'.inFlight⟩

theorem refreshTimer_countUpdated (hub : HubController) :
    hub.countUpdated.refreshTimer = true ↔
      hub.refreshTimer = true ∨ hub.updatedComponentsCount + 1 = 2 := by
  rw [countUpdated]
  by_cases h : hub.updatedComponentsCount + 1 = 2 <;> simp [h]

theorem steady_storeEnvironments (reply : EnvironmentsReply) (hub : HubController) :
    hub.Steady (hub.storeEnvironments reply).1 := by
  rw [storeEnvironments]
  split
  · exact ⟨rfl, rfl, Nat.le_refl _⟩
  · split
    · exact ⟨rfl, rfl, Nat.le_refl _⟩
    · exact ⟨rfl, rfl, Nat.le_refl _⟩

theorem answered_onBalanceUpdatedSl (reply : BalanceReply) (hub : HubController) :
    hub.Answered
      ({ hub with balanceRequests := hub.balanceRequests - 1 }.onBalanceUpdatedSl reply) := by
  have hcount := refreshTimer_countUpdated { hub with balanceRequests := hub.balanceRequests - 1 }
  have hflight : hub.balanceRequests + hub.environmentsRequests ≤
      hub.balanceRequests - 1 + hub.environmentsRequests + 1 := by omega
  rw [onBalanceUpdatedSl]
  split
  · exact ⟨rfl, hcount, hflight⟩
  · exact ⟨rfl, hcount, hflight⟩

theorem answered_onEnvironmentsUpdatedSl (reply : EnvironmentsReply) (hub : HubController) :
    hub.Answered
      ({ hub with environmentsRequests := hub.environmentsRequests - 1 }.onEnvironmentsUpdatedSl
        reply).1 := by
  have hcount := refreshTimer_countUpdated
    { hub with environmentsRequests := hub.environmentsRequests - 1 }
  have hflight : hub.balanceRequests + hub.environmentsRequests ≤
      hub.balanceRequests + (hub.environmentsRequests - 1) + 1 := by omega
  rw [onEnvironmentsUpdatedSl]
  split
  · exact ⟨rfl, hcount, hflight⟩
  · have hsteady := steady_storeEnvironments reply
      { hub with environmentsRequests := hub.environmentsRequests - 1 }.countUpdated
    refine ⟨hsteady.updatedComponentsCount, ?_, Nat.le_trans hflight (Nat.succ_le_succ hsteady.inFlight)⟩
    rw [hsteady.refreshTimer]
    exact hcount

theorem steady_loginReturned {lerr : Int} (h : hub.loginReturned lerr = some hub') :
    hub.Steady hub' := by
  rw [loginReturned] at h
  split at h
  · exact absurd h.symm (Option.some_ne_none _)
  · rw [← Option.some.inj h, balanceLoginReturned]
    split
    · dsimp only
      split
      · refine ⟨rfl, rfl, ?_⟩
        simp only [inFlight, setBalance, updateBalance]
        omega
      · exact ⟨rfl, rfl, Nat.le_refl _⟩
    · exact ⟨rfl, rfl, Nat.le_refl _⟩
  · rw [← Option.some.inj h, environmentsLoginReturned]
    split
    · dsimp only
      refine Steady.trans ?_ (steady_storeEnvironments _ _)
      split
      · refine ⟨rfl, rfl, ?_⟩
        simp only [inFlight, updateEnvironments]
        omega
      · exact ⟨rfl, rfl, Nat.le_refl _⟩
    · exact ⟨rfl, rfl, Nat.le_refl _⟩

def Effect (hub hub' : HubController) : HubEvent → Prop
  | .refreshTimerTimeout => hub' = hub.refreshTimerTimeout
  | .forceRefresh => hub' = hub.forceRefresh
  | .start => hub' = hub.start
  | .settingsChanged => hub' = hub.settingsChanged
  | .logout => hub' = hub.logout
  | .updateEnvironments | .loginReturned _ => hub.Steady hub'
  | .balanceReply _ | .environmentsReply _ => hub.Answered hub'

theorem eq_of_balanceReply {reply : BalanceReply} (h : hub.step (.balanceReply reply) = some hub') :
    hub' = { hub with balanceRequests := hub.balanceRequests - 1 }.onBalanceUpdatedSl reply := by
  rw [step] at h
  split at h
  · exact absurd h.symm (Option.some_ne_none _)
  · exact (Option.some.inj h).symm

theorem eq_of_environmentsReply {reply : EnvironmentsReply}
    (h : hub.step (.environmentsReply reply) = some hub') :
    hub' =
      ({ hub with environmentsRequests := hub.environmentsRequests - 1 }.onEnvironmentsUpdatedSl
        reply).1 := by
  rw [step] at h
  split at h
  · exact absurd h.symm (Option.some_ne_none _)
  · exact (Option.some.inj h).symm

theorem effect_of_step {event : HubEvent} (h : hub.step event = some hub') :
    hub.Effect hub' event := by
  cases event with
  | refreshTimerTimeout =>
      simp only [step] at h
      split at h
      · exact (Option.some.inj h).symm
      · exact absurd h.symm (Option.some_ne_none _)
  | forceRefresh | start | settingsChanged | logout => exact (Option.some.inj h).symm
  | updateEnvironments =>
      rw [← Option.some.inj h]
      exact ⟨rfl, rfl, Nat.le_succ _⟩
  | balanceReply reply =>
      rw [eq_of_balanceReply h]
      exact answered_onBalanceUpdatedSl reply hub
  | environmentsReply reply =>
      rw [eq_of_environmentsReply h]
      exact answered_onEnvironmentsUpdatedSl reply hub
  | loginReturned lerr => exact steady_loginReturned h

end HubController

/-- Whether there was a logout since the loop was last started or refreshed. -/
def HubEvent.loggedOut (before : Bool) : HubEvent → Bool
  | .logout => true
  | .refreshTimerTimeout | .forceRefresh | .start | .settingsChanged => false
  | _ => before

structure RefreshRun where
  hub : HubController
  loggedOut : Bool

def RefreshRun.new : RefreshRun := { hub := HubController.new, loggedOut := false }

def RefreshRun.step (run : RefreshRun) (event : HubEvent) : Option RefreshRun :=
  (run.hub.step event).map fun hub => { hub := hub, loggedOut := event.loggedOut run.loggedOut }

structure RefreshRun.Inv (run : RefreshRun) : Prop where
  enough : run.hub.updatedComponentsCount < 2 →
    2 ≤ run.hub.updatedComponentsCount + run.hub.inFlight
  armed : 2 ≤ run.hub.updatedComponentsCount → run.loggedOut = false →
    run.hub.refreshTimer = true

namespace RefreshRun

theorem inv_new : RefreshRun.new.Inv :=
  ⟨fun h => absurd h (by decide), fun _ _ => rfl⟩

theorem inv_refreshTimerTimeout (hub : HubController) (loggedOut : Bool) :
    RefreshRun.Inv ⟨hub.refreshTimerTimeout, loggedOut⟩ := by
  refine ⟨fun _ => ?_, fun h => absurd h (Nat.not_succ_le_zero 1)⟩
  simp only [HubController.refreshTimerTimeout, HubController.inFlight,
    HubController.updateEnvironments, HubController.updateBalance]
  omega

variable {hub hub' : HubController} {loggedOut : Bool}

theorem Inv.steady (h : RefreshRun.Inv ⟨hub, loggedOut⟩) (hsteady : hub.Steady hub') :
    RefreshRun.Inv ⟨hub', loggedOut⟩ := by
  have hcount := hsteady.updatedComponentsCount
  have hflight := hsteady.inFlight
  apply Inv.mk
  · intro hless
    have := h.enough (hcount ▸ hless)
    dsimp only at this ⊢
    omega
  · intro htwo hno
    exact hsteady.refreshTimer.trans (h.armed (hcount ▸ htwo) hno)

/-- The reply takes one request away and counts one, and it arms the timer when it
makes the counter two. -/
theorem Inv.answered (h : RefreshRun.Inv ⟨hub, loggedOut⟩) (hanswered : hub.Answered hub') :
    RefreshRun.Inv ⟨hub', loggedOut⟩ := by
  have hcount := hanswered.updatedComponentsCount
  have hflight := hanswered.inFlight
  apply Inv.mk
  · intro hless
    dsimp only at hless ⊢
    have := h.enough (by dsimp only; omega)
    dsimp only at this
    omega
  · intro htwo hno
    dsimp only at htwo
    apply hanswered.refreshTimer.mpr
    by_cases hbefore : 2 ≤ hub.updatedComponentsCount
    · exact Or.inl (h.armed hbefore hno)
    · right
      omega

theorem Inv.step {run run' : RefreshRun} {event : HubEvent} (h : run.Inv)
    (hstep : run.step event = some run') : run'.Inv := by
  obtain ⟨hub', hhub, rfl⟩ := Option.map_eq_some_iff.mp hstep
  have heffect := HubController.effect_of_step hhub
  cases event with
  | refreshTimerTimeout =>
      rw [show hub' = run.hub.refreshTimerTimeout from heffect]
      exact inv_refreshTimerTimeout run.hub false
  | forceRefresh =>
      rw [show hub' = run.hub.forceRefresh from heffect, HubController.forceRefresh]
      split
      · exact inv_refreshTimerTimeout run.hub false
      · exact ⟨h.enough, fun htwo => absurd htwo ‹_›⟩
  | start =>
      rw [show hub' = run.hub.start from heffect, HubController.start]
      split
      · exact ⟨h.enough, fun _ _ => rfl⟩
      · exact ⟨h.enough, fun htwo => absurd htwo ‹_›⟩
  | settingsChanged =>
      rw [show hub' = run.hub.settingsChanged from heffect]
      exact ⟨h.enough, fun _ _ => rfl⟩
  | logout =>
      rw [show hub' = run.hub.logout from heffect]
      exact ⟨h.enough, fun _ hno => absurd hno.symm Bool.false_ne_true⟩
  | updateEnvironments => exact Inv.steady h heffect
  | loginReturned lerr => exact Inv.steady h heffect
  | balanceReply reply => exact Inv.answered h heffect
  | environmentsReply reply => exact Inv.answered h heffect

theorem inv_of_run {events : List HubEvent} {run : RefreshRun}
    (h : events.foldlM RefreshRun.step RefreshRun.new = some run) : run.Inv :=
  Runs.invariant_of_foldlM inv_new (fun _ _ _ hinv hstep => hinv.step hstep) h

end RefreshRun

def HubEvent.answers : HubEvent → Bool
  | .balanceReply _ | .environmentsReply _ | .loginReturned _ | .updateEnvironments => true
  | _ => false

def HubEvent.isReply : HubEvent → Bool
  | .balanceReply _ | .environmentsReply _ => true
  | _ => false

/-- The timer is active, or it will be when as many replies have come. -/
def HubController.Armed (hub : HubController) (replies : Nat) : Prop :=
  hub.refreshTimer = true ∨
    hub.updatedComponentsCount < 2 ∧ 2 ≤ hub.updatedComponentsCount + replies

namespace HubController

variable {hub hub' : HubController} {replies : Nat}

theorem Armed.steady (h : hub.Armed replies) (hsteady : hub.Steady hub') : hub'.Armed replies := by
  rw [Armed, hsteady.refreshTimer, hsteady.updatedComponentsCount]
  exact h

theorem Armed.answered (h : hub.Armed (replies + 1)) (hanswered : hub.Answered hub') :
    hub'.Armed replies := by
  rw [Armed, hanswered.refreshTimer, hanswered.updatedComponentsCount]
  cases h with
  | inl htimer => exact Or.inl (Or.inl htimer)
  | inr hcount =>
      by_cases hone : hub.updatedComponentsCount + 1 = 2
      · exact Or.inl (Or.inr hone)
      · right
        omega

theorem refreshTimer_of_answers {events : List HubEvent}
    (hanswers : events.all HubEvent.answers = true)
    (hrun : events.foldlM HubController.step hub = some hub')
    (h : hub.Armed (events.countP HubEvent.isReply)) : hub'.refreshTimer = true := by
  induction events generalizing hub with
  | nil =>
      rw [← Option.some.inj hrun]
      cases h with
      | inl htimer => exact htimer
      | inr hcount =>
          rw [List.countP_nil] at hcount
          omega
  | cons event events ih =>
      rw [List.foldlM_cons] at hrun
      obtain ⟨next, hstep, hrest⟩ := Option.bind_eq_some_iff.mp hrun
      have heffect := effect_of_step hstep
      rw [List.all_cons, Bool.and_eq_true] at hanswers
      apply ih hanswers.2 hrest
      rw [List.countP_cons] at h
      cases event with
      | balanceReply reply => exact Armed.answered h heffect
      | environmentsReply reply => exact Armed.answered h heffect
      | loginReturned lerr => exact Armed.steady h heffect
      | updateEnvironments => exact Armed.steady h heffect
      | refreshTimerTimeout | forceRefresh | start | settingsChanged | logout =>
          exact absurd hanswers.1 Bool.false_ne_true

end HubController

/-- The loop never stalls: the timer is active, or enough requests are on their way,
and when as many replies have come as requests are on their way it is active. -/
theorem refreshLoop_never_stalls {events : List HubEvent} {run : RefreshRun}
    (hrun : events.foldlM RefreshRun.step RefreshRun.new = some run)
    (hno : run.loggedOut = false) :
    (run.hub.refreshTimer = true ∨ run.hub.updatedComponentsCount < 2 ∧
      2 - run.hub.updatedComponentsCount ≤ run.hub.inFlight) ∧
    ∀ (later : List HubEvent) (hub' : HubController),
      later.foldlM HubController.step run.hub = some hub' →
      later.all HubEvent.answers = true →
      run.hub.inFlight ≤ later.countP HubEvent.isReply → hub'.refreshTimer = true := by
  have hinv := RefreshRun.inv_of_run hrun
  have harmed : run.hub.Armed run.hub.inFlight := by
    by_cases htwo : 2 ≤ run.hub.updatedComponentsCount
    · exact Or.inl (hinv.armed htwo hno)
    · exact Or.inr ⟨Nat.not_le.mp htwo, hinv.enough (Nat.not_le.mp htwo)⟩
  constructor
  · cases harmed with
    | inl htimer => exact Or.inl htimer
    | inr hcount =>
        right
        omega
  · intro later hub' hlater hanswers hall
    apply HubController.refreshTimer_of_answers hanswers hlater
    cases harmed with
    | inl htimer => exact Or.inl htimer
    | inr hcount =>
        right
        omega

/-- A refresh whose balance reply is not JSON and whose repeated request is answered
after the environments. -/
theorem refreshLoop_never_stalls_relogin :
    ∃ (run : RefreshRun) (hub' : HubController),
      [.refreshTimerTimeout, .balanceReply ⟨[], reNotJsonDoc⟩, .loginReturned reSuccess].foldlM
        RefreshRun.step RefreshRun.new = some run ∧
      run.hub.refreshTimer = false ∧ run.hub.inFlight = 2 ∧
      [.environmentsReply ⟨[], 1, 0⟩, .balanceReply ⟨['7'], reSuccess⟩].foldlM
        HubController.step run.hub = some hub' ∧
      hub'.refreshTimer = true := by
  have hrun : [.refreshTimerTimeout, .balanceReply ⟨[], reNotJsonDoc⟩,
      .loginReturned reSuccess].foldlM RefreshRun.step RefreshRun.new = some
        { hub := { HubController.new with
            updatedComponentsCount := 1
            updateBalanceAttemptCount := 1
            refreshTimer := false
            balanceRequests := 1
            environmentsRequests := 1 }
          loggedOut := false } := rfl
  refine ⟨_, _, hrun, rfl, rfl, rfl, ?_⟩
  apply (refreshLoop_never_stalls hrun rfl).2
    [.environmentsReply ⟨[], 1, 0⟩, .balanceReply ⟨['7'], reSuccess⟩]
  · rfl
  · rfl
  · decide

end SubutaiTray.Hub
