import SubutaiTray.Library.Runs
import SubutaiTray.Hub.EnvironmentCache
import SubutaiTray.Hub.RefreshLoop

/-!
The state behind a logout.

`logout` clears what it knows of, and the handlers of replies write without asking
whether anybody is still logged in. A login that a reply has started ends without
harm, since only an answer that is no JSON document starts one.
-/
namespace SubutaiTray.Hub

/-- The hub controller with the list of the user's peers. `loggedOut` tells that there
was a logout and no start, settings change or refresh since. -/
structure HubSession (Peer : Type) where
  hub : HubController
  lstMyPeers : List Peer
  myPeersRequests : Nat
  loggedOut : Bool

inductive SessionEvent (Peer : Type) where
  | hub (event : HubEvent)
  | myPeersReply (lstPeers : List Peer)

/-- Whether the event sends all requests anew. -/
def HubController.refreshes (hub : HubController) : HubEvent → Bool
  | .refreshTimerTimeout => true
  | .forceRefresh => hub.updatedComponentsCount ≥ 2
  | _ => false

def HubController.loggedOutAfter (hub : HubController) (before : Bool) : HubEvent → Bool
  | .logout => true
  | .start | .settingsChanged => false
  | event => before && !hub.refreshes event

/-- Nothing of the user is left and nothing is fetched. -/
structure HubController.Quiet (hub : HubController) : Prop where
  lstEnvironments : hub.lstEnvironments = []
  lstEnvironmentsInternal : hub.lstEnvironmentsInternal = []
  lstHealthyEnvironments : hub.lstHealthyEnvironments = []
  balance : hub.balance = undefinedBalance
  refreshTimer : hub.refreshTimer = false

def Slot.errCode : Slot → Int
  | .balance reply => reply.errCode
  | .environments reply => reply.errCode

/-- A slot that waits for a login was called with an answer that is no JSON document. -/
def HubController.LoginsJustified (hub : HubController) : Prop :=
  ∀ slot ∈ hub.logins, slot.errCode = reNotJsonDoc

theorem arg_balance_ne (value : QString) : arg "Balance: %1".toList value ≠ undefinedBalance := by
  have hsplit : "Balance: %1".toList = "Balance: ".toList ++ "%1".toList := rfl
  rw [hsplit, arg_append (by decide)]
  intro h
  exact absurd (List.cons.inj h).1 (by decide)

namespace HubController

variable {hub hub' : HubController}

theorem Quiet.countUpdated_iff (h : hub.Quiet) :
    hub.countUpdated.Quiet ↔ hub.updatedComponentsCount + 1 ≠ 2 := by
  constructor
  · intro hquiet heq
    have htimer := (refreshTimer_countUpdated hub).mpr (Or.inr heq)
    exact Bool.false_ne_true (hquiet.refreshTimer.symm.trans htimer)
  · intro hne
    refine ⟨h.lstEnvironments, h.lstEnvironmentsInternal, h.lstHealthyEnvironments, h.balance, ?_⟩
    rw [countUpdated]
    dsimp only
    rw [if_neg hne]
    exact h.refreshTimer

theorem Quiet.setBalance_iff (h : hub.Quiet) (reply : BalanceReply) :
    (hub.setBalance reply).Quiet ↔ reply.errCode ≠ reSuccess := by
  constructor
  · intro hquiet hsuccess
    have hbalance := hquiet.balance
    rw [setBalance] at hbalance
    dsimp only at hbalance
    rw [if_neg (not_not.mpr hsuccess)] at hbalance
    exact arg_balance_ne reply.balance hbalance
  · intro hfail
    refine ⟨h.lstEnvironments, h.lstEnvironmentsInternal, h.lstHealthyEnvironments, ?_,
      h.refreshTimer⟩
    rw [setBalance]
    exact if_pos hfail

theorem Quiet.storeEnvironments_iff (h : hub.Quiet) (reply : EnvironmentsReply) :
    (hub.storeEnvironments reply).1.Quiet ↔ (reply.Success → reply.lstEnvironments = []) := by
  by_cases hsuccess : reply.Success
  · have hpass : ¬ (reply.errCode ≠ 0 ∨ reply.networkError ≠ 0) := by
      rw [hsuccess.1, hsuccess.2]
      decide
    rw [imp_iff_right hsuccess, storeEnvironments, if_neg hpass, h.lstEnvironmentsInternal]
    cases reply.lstEnvironments with
    | nil => exact iff_of_true h rfl
    | cons env lst =>
        apply iff_of_false
        · intro hquiet
          exact List.cons_ne_nil env lst hquiet.lstEnvironments
        · exact List.cons_ne_nil env lst
  · rw [storeEnvironments_of_failure hub reply hsuccess]
    exact iff_of_true h fun hs => absurd hs hsuccess

theorem Quiet.of_same (h : hub.Quiet) (environments : hub'.lstEnvironments = hub.lstEnvironments)
    (internal : hub'.lstEnvironmentsInternal = hub.lstEnvironmentsInternal)
    (healthy : hub'.lstHealthyEnvironments = hub.lstHealthyEnvironments)
    (balance : hub'.balance = hub.balance) (timer : hub'.refreshTimer = hub.refreshTimer) :
    hub'.Quiet :=
  ⟨environments.trans h.lstEnvironments, internal.trans h.lstEnvironmentsInternal,
    healthy.trans h.lstHealthyEnvironments, balance.trans h.balance, timer.trans h.refreshTimer⟩

/-- A reply that is counted as the second one arms the timer, whatever else it does. -/
theorem Quiet.answered_iff (h : hub.Quiet) {Good : Prop}
    (htimer : hub'.refreshTimer = hub.countUpdated.refreshTimer)
    (hreply : hub.countUpdated.Quiet → (hub'.Quiet ↔ Good)) :
    hub'.Quiet ↔ Good ∧ hub.updatedComponentsCount + 1 ≠ 2 := by
  by_cases htwo : hub.updatedComponentsCount + 1 = 2
  · apply iff_of_false
    · intro hquiet
      rw [(refreshTimer_countUpdated hub).mpr (Or.inr htwo)] at htimer
      exact Bool.false_ne_true (hquiet.refreshTimer.symm.trans htimer)
    · intro hboth
      exact hboth.2 htwo
  · rw [and_iff_left htwo]
    exact hreply (h.countUpdated_iff.mpr htwo)

theorem Quiet.onBalanceUpdatedSl_iff (h : hub.Quiet) (reply : BalanceReply) :
    (hub.onBalanceUpdatedSl reply).Quiet ↔
      reply.errCode ≠ reSuccess ∧ hub.updatedComponentsCount + 1 ≠ 2 := by
  apply h.answered_iff
  · rw [onBalanceUpdatedSl]
    split <;> rfl
  · intro hcount
    rw [onBalanceUpdatedSl]
    by_cases hjson : reply.errCode = reNotJsonDoc
    · rw [if_pos hjson, hjson]
      exact iff_of_true (hcount.of_same rfl rfl rfl rfl rfl) (by decide)
    · rw [if_neg hjson]
      exact hcount.setBalance_iff reply

theorem Quiet.onEnvironmentsUpdatedSl_iff (h : hub.Quiet) (reply : EnvironmentsReply) :
    (hub.onEnvironmentsUpdatedSl reply).1.Quiet ↔
      (reply.Success → reply.lstEnvironments = []) ∧ hub.updatedComponentsCount + 1 ≠ 2 := by
  apply h.answered_iff
  · rw [onEnvironmentsUpdatedSl]
    split
    · rfl
    · exact (steady_storeEnvironments reply hub.countUpdated).refreshTimer
  · intro hcount
    rw [onEnvironmentsUpdatedSl]
    by_cases hjson : reply.errCode = reNotJsonDoc
    · have hempty : reply.Success → reply.lstEnvironments = [] := fun hsuccess =>
        absurd (hjson.symm.trans hsuccess.1) (by decide)
      rw [if_pos hjson]
      exact iff_of_true (hcount.of_same rfl rfl rfl rfl rfl) hempty
    · rw [if_neg hjson]
      exact hcount.storeEnvironments_iff reply

/-- A slot that goes on after its login still has its old answer. -/
theorem Quiet.loginReturned (h : hub.Quiet) (justified : hub.LoginsJustified) {lerr : Int}
    (hlogin : hub.loginReturned lerr = some hub') : hub'.Quiet := by
  rw [HubController.loginReturned] at hlogin
  cases hlogins : hub.logins with
  | nil =>
      rw [hlogins] at hlogin
      exact absurd hlogin.symm (Option.some_ne_none _)
  | cons slot rest =>
      have hcode := justified slot (hlogins ▸ List.mem_cons_self)
      rw [hlogins] at hlogin
      cases slot with
      | balance reply =>
          rw [← Option.some.inj hlogin, balanceLoginReturned]
          apply (Quiet.setBalance_iff _ reply).mpr
          · rw [show reply.errCode = reNotJsonDoc from hcode]
            decide
          · split
            · dsimp only
              split
              · exact h.of_same rfl rfl rfl rfl rfl
              · exact h.of_same rfl rfl rfl rfl rfl
            · exact h.of_same rfl rfl rfl rfl rfl
      | environments reply =>
          have hfail : ¬ reply.Success := fun hsuccess =>
            absurd (hsuccess.1.symm.trans hcode) (by decide)
          rw [← Option.some.inj hlogin, environmentsLoginReturned]
          split
          · rw [storeEnvironments_of_failure _ reply hfail]
            dsimp only
            split
            · exact h.of_same rfl rfl rfl rfl rfl
            · exact h.of_same rfl rfl rfl rfl rfl
          · exact h.of_same rfl rfl rfl rfl rfl

theorem logins_storeEnvironments (hub : HubController) (reply : EnvironmentsReply) :
    (hub.storeEnvironments reply).1.logins = hub.logins := by
  rw [storeEnvironments]
  split
  · rfl
  · split <;> rfl

/-- The end of a login takes the first slot off. -/
theorem logins_of_loginReturned {lerr : Int} (h : hub.loginReturned lerr = some hub') :
    ∃ slot, hub.logins = slot :: hub'.logins := by
  rw [loginReturned] at h
  split at h
  · exact absurd h.symm (Option.some_ne_none _)
  · rename_i reply rest hlogins
    refine ⟨.balance reply, ?_⟩
    rw [hlogins, ← Option.some.inj h, balanceLoginReturned]
    split
    · dsimp only
      split <;> rfl
    · rfl
  · rename_i reply rest hlogins
    refine ⟨.environments reply, ?_⟩
    rw [hlogins, ← Option.some.inj h, environmentsLoginReturned]
    split
    · rw [logins_storeEnvironments]
      split <;> rfl
    · rfl

theorem LoginsJustified.cons (h : hub.LoginsJustified) {slot : Slot}
    (hcode : slot.errCode = reNotJsonDoc) : ∀ s ∈ slot :: hub.logins, s.errCode = reNotJsonDoc :=
  List.forall_mem_cons.mpr ⟨hcode, h⟩

theorem LoginsJustified.step (h : hub.LoginsJustified) {event : HubEvent}
    (hstep : hub.step event = some hub') : hub'.LoginsJustified := by
  cases event with
  | refreshTimerTimeout =>
      rw [show hub' = hub.refreshTimerTimeout from effect_of_step hstep]
      exact h
  | forceRefresh =>
      rw [show hub' = hub.forceRefresh from effect_of_step hstep, forceRefresh]
      split <;> exact h
  | start =>
      rw [show hub' = hub.start from effect_of_step hstep, start]
      split <;> exact h
  | settingsChanged =>
      rw [show hub' = hub.settingsChanged from effect_of_step hstep]
      exact h
  | logout =>
      rw [show hub' = hub.logout from effect_of_step hstep]
      exact h
  | updateEnvironments =>
      rw [← Option.some.inj hstep]
      exact h
  | balanceReply reply =>
      rw [eq_of_balanceReply hstep, onBalanceUpdatedSl]
      split
      · exact h.cons ‹_›
      · exact h
  | environmentsReply reply =>
      rw [eq_of_environmentsReply hstep, onEnvironmentsUpdatedSl]
      split
      · exact h.cons ‹_›
      · rw [LoginsJustified, logins_storeEnvironments]
        exact h
  | loginReturned lerr =>
      obtain ⟨slot, hlogins⟩ := logins_of_loginReturned hstep
      intro other hother
      exact h other (hlogins ▸ List.mem_cons_of_mem slot hother)

end HubController

namespace HubSession

variable {Peer : Type}

def new : HubSession Peer :=
  { hub := HubController.new, lstMyPeers := [], myPeersRequests := 0, loggedOut := false }

def step (session : HubSession Peer) : SessionEvent Peer → Option (HubSession Peer)
  | .hub event =>
      (session.hub.step event).map fun hub =>
        { session with
          hub := hub
          myPeersRequests :=
            session.myPeersRequests + if session.hub.refreshes event then 1 else 0
          loggedOut := session.hub.loggedOutAfter session.loggedOut event }
  | .myPeersReply lstPeers =>
      if session.myPeersRequests = 0 then none
      else
        some
          { session with
            lstMyPeers := lstPeers
            myPeersRequests := session.myPeersRequests - 1 }

structure Blank (session : HubSession Peer) : Prop where
  hub : session.hub.Quiet
  lstMyPeers : session.lstMyPeers = []

def Isolated (session : HubSession Peer) : Prop := session.loggedOut = true → session.Blank

/-- What may happen without breaking the isolation. -/
def Harmless (session : HubSession Peer) : SessionEvent Peer → Prop
  | .hub .logout => session.lstMyPeers = []
  | .hub (.balanceReply reply) =>
      session.loggedOut = true →
        reply.errCode ≠ reSuccess ∧ session.hub.updatedComponentsCount + 1 ≠ 2
  | .hub (.environmentsReply reply) =>
      session.loggedOut = true →
        (reply.Success → reply.lstEnvironments = []) ∧
          session.hub.updatedComponentsCount + 1 ≠ 2
  | .hub _ => True
  | .myPeersReply lstPeers => session.loggedOut = true → lstPeers = []

variable {session session' : HubSession Peer}

theorem blank_iff_quiet (hpeers : session.lstMyPeers = []) :
    session.Blank ↔ session.hub.Quiet :=
  ⟨fun h => h.hub, fun h => ⟨h, hpeers⟩⟩

/-- A step after which the answer is due again, however it was before. -/
theorem isolated_of_active (h : session.loggedOut = false) : session.Isolated :=
  fun hout => absurd (h.symm.trans hout) Bool.false_ne_true

/-- A reply may come at any time. Before a logout nothing is asked of it. -/
theorem isolated_iff_of_same (hout : session'.loggedOut = session.loggedOut)
    {Good : Prop} (hblank : session.loggedOut = true → (session'.Blank ↔ Good)) :
    session'.Isolated ↔ (session.loggedOut = true → Good) := by
  rw [Isolated, hout]
  exact forall_congr' hblank

theorem quiet_logout (hub : HubController) : hub.logout.Quiet :=
  ⟨rfl, rfl, rfl, rfl, rfl⟩

theorem isolated_hubStep_iff {hub : HubController} {event : HubEvent}
    (justified : session.hub.LoginsJustified) (h : session.Isolated)
    (hstep : session.hub.step event = some hub)
    (hhub : session'.hub = hub) (hpeers : session'.lstMyPeers = session.lstMyPeers)
    (hout : session'.loggedOut = session.hub.loggedOutAfter session.loggedOut event) :
    session'.Isolated ↔ session.Harmless (.hub event) := by
  cases event with
  | refreshTimerTimeout =>
      refine iff_of_true (isolated_of_active ?_) trivial
      rw [hout]
      exact Bool.and_false _
  | forceRefresh =>
      refine iff_of_true ?_ trivial
      have hafter : session'.loggedOut =
        (session.loggedOut && !decide (session.hub.updatedComponentsCount ≥ 2)) := hout
      rw [HubController.effect_of_step hstep, HubController.forceRefresh] at hhub
      by_cases hrefresh : session.hub.updatedComponentsCount ≥ 2
      · rw [decide_eq_true hrefresh] at hafter
        exact isolated_of_active (hafter.trans (Bool.and_false _))
      · rw [decide_eq_false hrefresh] at hafter
        intro hstill
        have hblank := h (((hafter.trans (Bool.and_true _)).symm).trans hstill)
        rw [if_neg hrefresh] at hhub
        exact ⟨hhub ▸ hblank.hub, hpeers.trans hblank.lstMyPeers⟩
  | start => exact iff_of_true (isolated_of_active hout) trivial
  | settingsChanged => exact iff_of_true (isolated_of_active hout) trivial
  | logout =>
      rw [show hub = session.hub.logout from HubController.effect_of_step hstep] at hhub
      constructor
      · intro hisolated
        exact hpeers.symm.trans (hisolated hout).lstMyPeers
      · intro hnone _
        exact ⟨hhub ▸ quiet_logout session.hub, hpeers.trans hnone⟩
  | updateEnvironments =>
      refine iff_of_true ?_ trivial
      intro hafter
      rw [hout] at hafter
      have hblank := h ((Bool.and_true _).symm.trans hafter)
      rw [← Option.some.inj hstep] at hhub
      refine ⟨?_, hpeers.trans hblank.lstMyPeers⟩
      rw [hhub]
      exact hblank.hub.of_same rfl rfl rfl rfl rfl
  | balanceReply reply =>
      apply isolated_iff_of_same (hout.trans (Bool.and_true _))
      intro hbefore
      have hblank := h hbefore
      have hquiet : HubController.Quiet
          { session.hub with balanceRequests := session.hub.balanceRequests - 1 } :=
        hblank.hub.of_same rfl rfl rfl rfl rfl
      rw [blank_iff_quiet (hpeers.trans hblank.lstMyPeers), hhub,
        HubController.eq_of_balanceReply hstep]
      exact hquiet.onBalanceUpdatedSl_iff reply
  | environmentsReply reply =>
      apply isolated_iff_of_same (hout.trans (Bool.and_true _))
      intro hbefore
      have hblank := h hbefore
      have hquiet : HubController.Quiet
          { session.hub with environmentsRequests := session.hub.environmentsRequests - 1 } :=
        hblank.hub.of_same rfl rfl rfl rfl rfl
      rw [blank_iff_quiet (hpeers.trans hblank.lstMyPeers), hhub,
        HubController.eq_of_environmentsReply hstep]
      exact hquiet.onEnvironmentsUpdatedSl_iff reply
  | loginReturned lerr =>
      refine iff_of_true ?_ trivial
      intro hafter
      rw [hout] at hafter
      have hblank := h ((Bool.and_true _).symm.trans hafter)
      exact ⟨hhub ▸ hblank.hub.loginReturned justified hstep, hpeers.trans hblank.lstMyPeers⟩

theorem justified_step {event : SessionEvent Peer} (h : session.hub.LoginsJustified)
    (hstep : session.step event = some session') : session'.hub.LoginsJustified := by
  cases event with
  | hub event =>
      obtain ⟨hub, hhub, hafter⟩ := Option.map_eq_some_iff.mp hstep
      rw [← hafter]
      exact h.step hhub
  | myPeersReply lstPeers =>
      rw [step] at hstep
      split at hstep
      · exact absurd hstep.symm (Option.some_ne_none _)
      · rw [← Option.some.inj hstep]
        exact h

theorem isolated_step_iff {event : SessionEvent Peer} (justified : session.hub.LoginsJustified)
    (h : session.Isolated) (hstep : session.step event = some session') :
    session'.Isolated ↔ session.Harmless event := by
  cases event with
  | hub event =>
      obtain ⟨hub, hhub, hafter⟩ := Option.map_eq_some_iff.mp hstep
      rw [← hafter]
      exact isolated_hubStep_iff justified h hhub rfl rfl rfl
  | myPeersReply lstPeers =>
      rw [step] at hstep
      split at hstep
      · exact absurd hstep.symm (Option.some_ne_none _)
      · rw [← Option.some.inj hstep]
        apply isolated_iff_of_same rfl
        intro hbefore
        exact ⟨fun hblank => hblank.lstMyPeers,
          fun hnone => ⟨(h hbefore).hub.of_same rfl rfl rfl rfl rfl, hnone⟩⟩

/-- Nothing of the session survives its logout exactly in the runs in which the list of
peers is empty at each logout and, until the next start, settings change or refresh,
no reply brings anything and no balance or environments reply is the second one. -/
theorem isolated_iff_harmless (events : List (SessionEvent Peer)) :
    Runs.AlwaysPartial step Isolated new events ↔ Runs.EachStepPartial step Harmless new events :=
  Runs.alwaysPartial_iff_eachStepPartial
    (fun _ hslot => absurd hslot List.not_mem_nil) (fun _ _ _ => justified_step)
    (isolated_of_active rfl) (fun _ _ _ => isolated_step_iff) events

/-- The list of peers survives a logout. -/
theorem not_isolated_peersKept :
    ¬ Runs.AlwaysPartial step Isolated (new : HubSession Nat)
      [.hub .refreshTimerTimeout, .myPeersReply [7], .hub .logout] := by
  intro always
  have hpeers := (always _ _ (List.prefix_refl _) rfl rfl).lstMyPeers
  exact absurd hpeers (List.cons_ne_nil 7 [])

end HubSession

end SubutaiTray.Hub
