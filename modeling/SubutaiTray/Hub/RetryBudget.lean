import Mathlib.Logic.Function.Basic
import SubutaiTray.Hub.RefreshLoop

/-!
How often a refresh repeats its requests.

A reply that is not a JSON document has the request sent again when the login behind
it succeeds, at most `UPDATE_ATTEMPT_MAX` times. The attempts are counted in one
static counter for each kind of request, whichever refresh they belong to, and only
giving up sets it back.
-/
namespace SubutaiTray.Hub

inductive RequestKind where
  | balance
  | environments
  deriving DecidableEq

def Slot.kind : Slot → RequestKind
  | .balance _ => .balance
  | .environments _ => .environments

def BalanceReply.usable (reply : BalanceReply) : Prop := reply.errCode = reSuccess

def EnvironmentsReply.usable (reply : EnvironmentsReply) : Prop :=
  reply.errCode = 0 ∧ reply.networkError = 0

/-- A reply that is not a JSON document. -/
def RequestKind.notJson : RequestKind → HubEvent
  | .balance => .balanceReply ⟨[], reNotJsonDoc⟩
  | .environments => .environmentsReply ⟨[], reNotJsonDoc, 0⟩

namespace HubController

def attempts (hub : HubController) : RequestKind → Nat
  | .balance => hub.updateBalanceAttemptCount
  | .environments => hub.updateEnvironmentsAttemptCount

def requests (hub : HubController) : RequestKind → Nat
  | .balance => hub.balanceRequests
  | .environments => hub.environmentsRequests

def ask (kind : RequestKind) (hub : HubController) : HubController :=
  match kind with
  | .balance => hub.updateBalance
  | .environments => hub.updateEnvironments

/-- How many times a request on its way is sent again when every reply to it is not
JSON and every login succeeds. -/
def reRequests (kind : RequestKind) : Nat → HubController → Nat
  | 0, _ => 0
  | rounds + 1, hub =>
      match [kind.notJson, .loginReturned reSuccess].foldlM step hub with
      | none => 0
      | some hub' =>
          if hub'.requests kind = hub.requests kind then reRequests kind rounds hub' + 1 else 0

def budget (kind : RequestKind) (hub : HubController) : Nat :=
  reRequests kind (updateAttemptMax + 1) (hub.ask kind)

/-! ## What a step does to the counters -/

structure SameRetries (hub hub' : HubController) : Prop where
  attempts : hub'.attempts = hub.attempts
  requests : hub'.requests = hub.requests
  logins : hub'.logins = hub.logins

/-- A login behind a slot of this kind has succeeded. -/
structure LoggedIn (kind : RequestKind) (hub hub' : HubController) : Prop where
  attempts : hub'.attempts = Function.update hub.attempts kind
    (if hub.attempts kind < updateAttemptMax then hub.attempts kind + 1 else 0)
  requests : hub'.requests = Function.update hub.requests kind
    (if hub.attempts kind < updateAttemptMax then hub.requests kind + 1 else hub.requests kind)

variable {hub hub' : HubController}

theorem sameRetries_storeEnvironments (reply : EnvironmentsReply) (hub : HubController) :
    hub.SameRetries (hub.storeEnvironments reply).1 := by
  rw [storeEnvironments]
  split
  · exact ⟨rfl, rfl, rfl⟩
  · split
    · exact ⟨rfl, rfl, rfl⟩
    · exact ⟨rfl, rfl, rfl⟩

theorem attempts_refreshTimerTimeout (hub : HubController) :
    hub.refreshTimerTimeout.attempts = hub.attempts := by
  funext kind
  cases kind <;> rfl

theorem requests_refreshTimerTimeout (hub : HubController) (kind : RequestKind) :
    hub.refreshTimerTimeout.requests kind = hub.requests kind + 1 := by
  cases kind <;> rfl

theorem attempts_ask (kind : RequestKind) (hub : HubController) :
    (hub.ask kind).attempts = hub.attempts := by
  funext kind'
  cases kind <;> cases kind' <;> rfl

theorem requests_ask (kind : RequestKind) (hub : HubController) :
    (hub.ask kind).requests = Function.update hub.requests kind (hub.requests kind + 1) := by
  funext kind'
  cases kind <;> cases kind' <;> rfl

theorem loggedIn_balanceLoginReturned (reply : BalanceReply) (hub : HubController) :
    hub.LoggedIn .balance (hub.balanceLoginReturned reply reSuccess) := by
  rw [balanceLoginReturned, if_pos rfl]
  dsimp only
  by_cases hless : hub.updateBalanceAttemptCount + 1 ≤ updateAttemptMax
  · have hattempts : hub.attempts .balance < updateAttemptMax := hless
    constructor
    · rw [if_pos hless, if_pos hattempts]
      funext kind
      cases kind <;> rfl
    · rw [if_pos hless, if_pos hattempts]
      funext kind
      cases kind <;> rfl
  · have hattempts : ¬hub.attempts .balance < updateAttemptMax := hless
    constructor
    · rw [if_neg hless, if_neg hattempts]
      funext kind
      cases kind <;> rfl
    · rw [if_neg hless, if_neg hattempts, Function.update_eq_self]
      funext kind
      cases kind <;> rfl

theorem loggedIn_environmentsLoginReturned (reply : EnvironmentsReply) (hub : HubController) :
    hub.LoggedIn .environments (hub.environmentsLoginReturned reply reSuccess).1 := by
  rw [environmentsLoginReturned, if_pos rfl]
  dsimp only
  have hsame (hub : HubController) := sameRetries_storeEnvironments reply hub
  by_cases hless : hub.updateEnvironmentsAttemptCount + 1 ≤ updateAttemptMax
  · have hattempts : hub.attempts .environments < updateAttemptMax := hless
    constructor
    · rw [(hsame _).attempts, if_pos hless, if_pos hattempts]
      funext kind
      cases kind <;> rfl
    · rw [(hsame _).requests, if_pos hless, if_pos hattempts]
      funext kind
      cases kind <;> rfl
  · have hattempts : ¬hub.attempts .environments < updateAttemptMax := hless
    constructor
    · rw [(hsame _).attempts, if_neg hless, if_neg hattempts]
      funext kind
      cases kind <;> rfl
    · rw [(hsame _).requests, if_neg hless, if_neg hattempts, Function.update_eq_self]
      funext kind
      cases kind <;> rfl

/-- A reply with this error code has come. -/
structure Replied (kind : RequestKind) (errCode : Int) (hub hub' : HubController) : Prop where
  attempts : hub'.attempts = hub.attempts
  requests : hub'.requests = Function.update hub.requests kind (hub.requests kind - 1)
  logins : hub'.logins.map Slot.kind =
    if errCode = reNotJsonDoc then kind :: hub.logins.map Slot.kind else hub.logins.map Slot.kind

theorem replied_onBalanceUpdatedSl (reply : BalanceReply) (hub : HubController) :
    hub.Replied .balance reply.errCode
      ({ hub with balanceRequests := hub.balanceRequests - 1 }.onBalanceUpdatedSl reply) := by
  rw [onBalanceUpdatedSl]
  by_cases hjson : reply.errCode = reNotJsonDoc
  · rw [if_pos hjson]
    refine ⟨rfl, ?_, (if_pos hjson).symm⟩
    funext kind
    cases kind <;> rfl
  · rw [if_neg hjson]
    refine ⟨rfl, ?_, (if_neg hjson).symm⟩
    funext kind
    cases kind <;> rfl

theorem replied_onEnvironmentsUpdatedSl (reply : EnvironmentsReply) (hub : HubController) :
    hub.Replied .environments reply.errCode
      ({ hub with environmentsRequests := hub.environmentsRequests - 1 }.onEnvironmentsUpdatedSl
        reply).1 := by
  rw [onEnvironmentsUpdatedSl]
  by_cases hjson : reply.errCode = reNotJsonDoc
  · rw [if_pos hjson]
    refine ⟨rfl, ?_, (if_pos hjson).symm⟩
    funext kind
    cases kind <;> rfl
  · rw [if_neg hjson]
    have hsame := sameRetries_storeEnvironments reply
      { hub with environmentsRequests := hub.environmentsRequests - 1 }.countUpdated
    refine ⟨hsame.attempts, ?_, ?_⟩
    · rw [hsame.requests]
      funext kind
      cases kind <;> rfl
    · rw [hsame.logins, if_neg hjson]
      rfl

/-- The innermost login has returned and its slot gone on. -/
structure Returned (kind : RequestKind) (lerr : Int) (hub hub' : HubController) : Prop where
  logins : hub.logins.map Slot.kind = kind :: hub'.logins.map Slot.kind
  loggedIn : lerr = reSuccess → hub.LoggedIn kind hub'
  failed : lerr ≠ reSuccess → hub'.attempts = hub.attempts ∧ hub'.requests = hub.requests

theorem logins_balanceLoginReturned (reply : BalanceReply) (lerr : Int) (hub : HubController) :
    (hub.balanceLoginReturned reply lerr).logins = hub.logins := by
  rw [balanceLoginReturned]
  split
  · dsimp only
    split <;> rfl
  · rfl

theorem logins_environmentsLoginReturned (reply : EnvironmentsReply) (lerr : Int)
    (hub : HubController) : (hub.environmentsLoginReturned reply lerr).1.logins = hub.logins := by
  rw [environmentsLoginReturned]
  split
  · dsimp only
    rw [(sameRetries_storeEnvironments _ _).logins]
    split <;> rfl
  · rfl

theorem returned_of_loginReturned {lerr : Int} (h : hub.loginReturned lerr = some hub') :
    ∃ kind, hub.Returned kind lerr hub' := by
  rw [loginReturned] at h
  split at h
  · exact absurd h.symm (Option.some_ne_none _)
  · next reply rest hlogins =>
    rw [← Option.some.inj h]
    refine ⟨.balance, ?_, ?_, ?_⟩
    · rw [hlogins, logins_balanceLoginReturned]
      rfl
    · rintro rfl
      have hlogged := loggedIn_balanceLoginReturned reply { hub with logins := rest }
      exact ⟨hlogged.attempts, hlogged.requests⟩
    · intro hlerr
      rw [balanceLoginReturned, if_neg hlerr]
      exact ⟨rfl, rfl⟩
  · next reply rest hlogins =>
    rw [← Option.some.inj h]
    refine ⟨.environments, ?_, ?_, ?_⟩
    · rw [hlogins, logins_environmentsLoginReturned]
      rfl
    · rintro rfl
      have hlogged := loggedIn_environmentsLoginReturned reply { hub with logins := rest }
      exact ⟨hlogged.attempts, hlogged.requests⟩
    · intro hlerr
      rw [environmentsLoginReturned, if_neg hlerr]
      exact ⟨rfl, rfl⟩

/-! ## The budget of one request -/

/-- A request on its way is answered by something else than JSON, and the login succeeds. -/
theorem exists_retried (kind : RequestKind) (hub : HubController) (h : 0 < hub.requests kind) :
    ∃ hub', [kind.notJson, .loginReturned reSuccess].foldlM step hub = some hub' ∧
      hub'.attempts kind =
        (if hub.attempts kind < updateAttemptMax then hub.attempts kind + 1 else 0) ∧
      (hub'.requests kind = hub.requests kind ↔ hub.attempts kind < updateAttemptMax) := by
  obtain ⟨hub₀, hub', hreply, hreplied, hreturned, hlogged⟩ :
      ∃ hub₀ hub', hub.step kind.notJson = some hub₀ ∧ hub.Replied kind reNotJsonDoc hub₀ ∧
        hub₀.step (.loginReturned reSuccess) = some hub' ∧ hub₀.LoggedIn kind hub' := by
    cases kind with
    | balance =>
        refine ⟨_, _, if_neg (Nat.ne_of_gt h), replied_onBalanceUpdatedSl ⟨[], reNotJsonDoc⟩ hub,
          rfl, ?_⟩
        have hlogged := loggedIn_balanceLoginReturned ⟨[], reNotJsonDoc⟩
          { hub with balanceRequests := hub.balanceRequests - 1 }.countUpdated
        exact ⟨hlogged.attempts, hlogged.requests⟩
    | environments =>
        refine ⟨_, _, if_neg (Nat.ne_of_gt h),
          replied_onEnvironmentsUpdatedSl ⟨[], reNotJsonDoc, 0⟩ hub, rfl, ?_⟩
        have hlogged := loggedIn_environmentsLoginReturned ⟨[], reNotJsonDoc, 0⟩
          { hub with environmentsRequests := hub.environmentsRequests - 1 }.countUpdated
        exact ⟨hlogged.attempts, hlogged.requests⟩
  refine ⟨hub', ?_, ?_, ?_⟩
  · rw [List.foldlM_cons, hreply]
    exact (List.foldlM_cons ..).trans (congrArg (· >>= _) hreturned)
  · rw [hlogged.attempts, Function.update_self, hreplied.attempts]
  · rw [hlogged.requests, Function.update_self, hreplied.attempts, hreplied.requests,
      Function.update_self]
    split
    · next hless => exact iff_of_true (Nat.sub_add_cancel h) hless
    · next hless => exact iff_of_false (Nat.ne_of_lt (Nat.sub_lt h Nat.one_pos)) hless

theorem reRequests_eq (kind : RequestKind) {rounds : Nat} (h : 0 < hub.requests kind)
    (hattempts : hub.attempts kind ≤ updateAttemptMax)
    (hrounds : updateAttemptMax - hub.attempts kind < rounds) :
    reRequests kind rounds hub = updateAttemptMax - hub.attempts kind := by
  induction rounds generalizing hub with
  | zero => exact absurd hrounds (Nat.not_lt_zero _)
  | succ rounds ih =>
      obtain ⟨hub', hrun, hcount, hsent⟩ := exists_retried kind hub h
      simp only [reRequests, hrun]
      by_cases hless : hub.attempts kind < updateAttemptMax
      · rw [if_pos hless] at hcount
        have hsame := hsent.mpr hless
        rw [if_pos hsame, ih (hsame ▸ h) (by omega) (by omega)]
        omega
      · rw [if_neg (hless ∘ hsent.mp)]
        omega

/-- However long one waits, the request is sent again as often as the counter is
below its bound. -/
theorem budget_eq (kind : RequestKind) (hattempts : hub.attempts kind ≤ updateAttemptMax) :
    hub.budget kind = updateAttemptMax - hub.attempts kind := by
  rw [budget, reRequests_eq kind, attempts_ask]
  · rw [requests_ask, Function.update_self]
    exact Nat.succ_pos _
  · rw [attempts_ask]
    exact hattempts
  · rw [attempts_ask]
    omega

end HubController

/-! ## Runs -/

/-- How often the refresh of a request has repeated it so far, and nothing for a request
of `CSshKeyController`. -/
abbrev Used := Option Nat

/-- A run with the requests on their way and, beside `logins`, those waiting for a login. -/
structure RetryRun where
  hub : HubController
  inFlight : RequestKind → List Used
  waiting : List (RequestKind × Used)

/-- An event, and for a reply which request it answers. -/
structure RetryEvent where
  event : HubEvent
  used : Used

namespace RetryRun

def new : RetryRun := { hub := HubController.new, inFlight := fun _ => [], waiting := [] }

def send (kind : RequestKind) (used : Used) (run : RetryRun) : RetryRun :=
  { run with inFlight := Function.update run.inFlight kind (used :: run.inFlight kind) }

def refresh (run : RetryRun) : RetryRun :=
  (run.send .balance (some 0)).send .environments (some 0)

def answer (kind : RequestKind) (used : Used) (errCode : Int) (run : RetryRun) :
    Option RetryRun :=
  if used ∈ run.inFlight kind then
    some
      { run with
        inFlight := Function.update run.inFlight kind ((run.inFlight kind).erase used)
        waiting := if errCode = reNotJsonDoc then (kind, used) :: run.waiting else run.waiting }
  else none

/-- The request on top goes on its way again if the controller has sent one. -/
def goOn (hub : HubController) (run : RetryRun) : RetryRun :=
  match run.waiting with
  | [] => run
  | (kind, used) :: rest =>
      let run := { run with waiting := rest }
      if run.hub.requests kind < hub.requests kind then run.send kind (used.map (· + 1)) else run

/-- What becomes of the requests when the controller takes a step to `hub`. -/
def follow (hub : HubController) (run : RetryRun) (a : RetryEvent) : Option RetryRun :=
  match a.event with
  | .refreshTimerTimeout => some run.refresh
  | .forceRefresh => some (if run.hub.updatedComponentsCount ≥ 2 then run.refresh else run)
  | .updateEnvironments => some (run.send .environments none)
  | .balanceReply reply => run.answer .balance a.used reply.errCode
  | .environmentsReply reply => run.answer .environments a.used reply.errCode
  | .loginReturned _ => some (run.goOn hub)
  | .start | .settingsChanged | .logout => some run

def step (run : RetryRun) (a : RetryEvent) : Option RetryRun :=
  (run.hub.step a.event).bind fun hub =>
    (run.follow hub a).map fun run => { run with hub := hub }

/-- The requests of a kind that are on their way or wait for a login. -/
def live (run : RetryRun) (kind : RequestKind) : List Used :=
  run.inFlight kind ++ (run.waiting.filter fun w => w.1 = kind).map Prod.snd

/-- If the replies to a refresh are not JSON from here on, it sends each request as often
as it should over all. -/
def Budgeted (run : RetryRun) : Prop :=
  ∀ kind used, some used ∈ run.live kind → used + run.hub.budget kind = updateAttemptMax

/-- A usable reply restores the budget, and a login that succeeds has the request sent
again unless that was done as often as it should. -/
def Right (run : RetryRun) (a : RetryEvent) : Prop :=
  ∀ run', run.step a = some run' →
    match a.event with
    | .balanceReply reply => reply.usable → run'.hub.budget .balance = updateAttemptMax
    | .environmentsReply reply => reply.usable → run'.hub.budget .environments = updateAttemptMax
    | .loginReturned lerr =>
        lerr = reSuccess → ∀ kind used rest, run.waiting = (kind, some used) :: rest →
          (run.hub.requests kind < run'.hub.requests kind ↔ used < updateAttemptMax)
    | _ => True

/-- A refresh and a usable reply find the counters at zero, and no two refreshes have a
request of the same kind open when a login succeeds. -/
def Good (run : RetryRun) (a : RetryEvent) : Prop :=
  match a.event with
  | .refreshTimerTimeout => ∀ kind, run.hub.attempts kind = 0
  | .forceRefresh => run.hub.updatedComponentsCount ≥ 2 → ∀ kind, run.hub.attempts kind = 0
  | .balanceReply reply => reply.usable → run.hub.attempts .balance = 0
  | .environmentsReply reply => reply.usable → run.hub.attempts .environments = 0
  | .loginReturned lerr =>
      lerr = reSuccess → ∀ top rest, run.waiting = top :: rest →
        ∀ used, some used ∉ { run with waiting := rest }.live top.1
  | _ => True

structure Inv (run : RetryRun) : Prop where
  attempts : ∀ kind, run.hub.attempts kind ≤ updateAttemptMax
  inFlight : ∀ kind, (run.inFlight kind).length = run.hub.requests kind
  waiting : run.waiting.map Prod.fst = run.hub.logins.map Slot.kind

/-- All open requests have used up what the counter says. -/
def Counted (run : RetryRun) : Prop :=
  ∀ kind used, some used ∈ run.live kind → used = run.hub.attempts kind

variable {run run' : RetryRun} {a : RetryEvent}

theorem budget_eq_max_iff (h : run.Inv) (kind : RequestKind) :
    run.hub.budget kind = updateAttemptMax ↔ run.hub.attempts kind = 0 := by
  have := h.attempts kind
  have hpos : 0 < updateAttemptMax := by decide
  rw [HubController.budget_eq kind this]
  omega

theorem budgeted_iff_counted (h : run.Inv) : run.Budgeted ↔ run.Counted := by
  refine forall_congr' fun kind => forall_congr' fun used => imp_congr_right fun _ => ?_
  have := h.attempts kind
  rw [HubController.budget_eq kind this]
  omega

theorem mem_live {kind : RequestKind} {used : Used} :
    used ∈ run.live kind ↔ used ∈ run.inFlight kind ∨ (kind, used) ∈ run.waiting := by
  simp [live]

theorem mem_live_send {kind kind' : RequestKind} {used used' : Used} :
    used' ∈ (run.send kind used).live kind' ↔ kind' = kind ∧ used' = used ∨ used' ∈ run.live kind' := by
  by_cases hkind : kind' = kind
  · subst hkind
    simp [live, send]
  · simp [live, send, hkind]

theorem mem_live_waiting {kind kind' : RequestKind} {used used' : Used}
    {rest : List (RequestKind × Used)} (h : run.waiting = (kind, used) :: rest) :
    used' ∈ run.live kind' ↔
      kind' = kind ∧ used' = used ∨ used' ∈ { run with waiting := rest }.live kind' := by
  by_cases hkind : kind' = kind
  · subst hkind
    simp [live, h, or_left_comm]
  · simp [live, h, hkind, Ne.symm hkind]

theorem mem_live_refresh {kind : RequestKind} {used : Used} :
    used ∈ run.refresh.live kind ↔ used = some 0 ∨ used ∈ run.live kind := by
  rw [refresh, mem_live_send, mem_live_send]
  cases kind <;> simp

/-! ## What each event does to the requests -/

theorem counted_refresh_iff {hub : HubController} (hattempts : hub.attempts = run.hub.attempts)
    (h : run.Counted) :
    Counted { run.refresh with hub := hub } ↔ ∀ kind, run.hub.attempts kind = 0 := by
  constructor
  · intro hcounted kind
    rw [← hattempts]
    exact (hcounted kind 0 (mem_live_refresh.mpr (Or.inl rfl))).symm
  · intro hzero kind used hused
    change used = hub.attempts kind
    rw [hattempts]
    cases mem_live_refresh.mp hused with
    | inl hnew => rw [Option.some.inj hnew, hzero kind]
    | inr hold => exact h kind used hold

theorem Counted.of_subset (h : run.Counted) (hattempts : run'.hub.attempts = run.hub.attempts)
    (hlive : ∀ kind used, some used ∈ run'.live kind → some used ∈ run.live kind) :
    run'.Counted := by
  intro kind used hused
  rw [hattempts]
  exact h kind used (hlive kind used hused)

theorem mem_live_of_answer {kind kind' : RequestKind} {used used' : Used} {errCode : Int}
    (hanswer : run.answer kind used errCode = some run') (h : used' ∈ run'.live kind') :
    used' ∈ run.live kind' := by
  rw [answer] at hanswer
  split at hanswer
  · next hmem =>
    rw [← Option.some.inj hanswer, mem_live] at h
    rw [mem_live]
    cases h with
    | inl hflight =>
        left
        dsimp only at hflight
        by_cases hkind : kind' = kind
        · subst hkind
          rw [Function.update_self] at hflight
          exact List.mem_of_mem_erase hflight
        · rw [Function.update_of_ne hkind] at hflight
          exact hflight
    | inr hwaiting =>
        dsimp only at hwaiting
        split at hwaiting
        · cases List.mem_cons.mp hwaiting with
          | inl htop =>
              cases htop
              exact Or.inl hmem
          | inr hrest => exact Or.inr hrest
        · exact Or.inr hwaiting
  · exact absurd hanswer.symm (Option.some_ne_none _)

/-- The counter of the kind moves, that of the request on top moves with it, and the
others stay. -/
theorem counted_goOn_iff {hub : HubController} {kind : RequestKind} {used : Used}
    {rest : List (RequestKind × Used)} (h : run.Counted)
    (hwaiting : run.waiting = (kind, used) :: rest) (hlogged : run.hub.LoggedIn kind hub) :
    Counted { run.goOn hub with hub := hub } ↔
      ∀ used, some used ∉ { run with waiting := rest }.live kind := by
  have hold (kind' : RequestKind) (used' : Nat)
      (hused : some used' ∈ { run with waiting := rest }.live kind') :
      used' = run.hub.attempts kind' :=
    h kind' used' ((mem_live_waiting hwaiting).mpr (Or.inr hused))
  have hmoved : hub.attempts kind ≠ run.hub.attempts kind := by
    rw [hlogged.attempts, Function.update_self]
    have hpos : 0 < updateAttemptMax := by decide
    split <;> omega
  have hmem (kind' : RequestKind) (used' : Nat) :
      some used' ∈ (run.goOn hub).live kind' ↔
        (kind' = kind ∧ run.hub.attempts kind < updateAttemptMax ∧
          some used' = used.map (· + 1)) ∨ some used' ∈ { run with waiting := rest }.live kind' := by
    rw [goOn, hwaiting]
    dsimp only
    rw [hlogged.requests, Function.update_self]
    by_cases hless : run.hub.attempts kind < updateAttemptMax
    · rw [if_pos hless, if_pos (Nat.lt_succ_self _), mem_live_send]
      simp [hless]
    · rw [if_neg hless, if_neg (Nat.lt_irrefl _)]
      simp [hless]
  constructor
  · intro hcounted used' hused
    have hnew : used' = hub.attempts kind := hcounted kind used' ((hmem kind used').mpr (Or.inr hused))
    exact hmoved (hnew.symm.trans (hold kind used' hused))
  · intro hnone kind' used' hused
    change used' = hub.attempts kind'
    cases (hmem kind' used').mp hused with
    | inl hsent =>
        obtain ⟨rfl, hless, hsucc⟩ := hsent
        obtain ⟨before, rfl, rfl⟩ := Option.map_eq_some_iff.mp hsucc.symm
        rw [hlogged.attempts, Function.update_self, if_pos hless,
          h kind' before ((mem_live_waiting hwaiting).mpr (Or.inl ⟨rfl, rfl⟩))]
    | inr hother =>
        have hkind : kind' ≠ kind := by
          rintro rfl
          exact hnone used' hother
        rw [hlogged.attempts, Function.update_of_ne hkind]
        exact hold kind' used' hother

/-! ## Steps -/

theorem exists_of_step (h : run.step a = some run') :
    ∃ hub run₀, run.hub.step a.event = some hub ∧ run.follow hub a = some run₀ ∧
      run' = { run₀ with hub := hub } := by
  obtain ⟨hub, hhub, hfollow⟩ := Option.bind_eq_some_iff.mp h
  obtain ⟨run₀, hrun₀, hrun'⟩ := Option.map_eq_some_iff.mp hfollow
  exact ⟨hub, run₀, hhub, hrun₀, hrun'.symm⟩

theorem Inv.new : RetryRun.new.Inv :=
  ⟨fun kind => by cases kind <;> exact Nat.zero_le _, fun kind => by cases kind <;> rfl, rfl⟩

/-- The slot that goes on is that of the request on top. -/
theorem Inv.returned (h : run.Inv) {lerr : Int} {hub : HubController}
    (hlogin : run.hub.loginReturned lerr = some hub) :
    ∃ kind used rest, run.waiting = (kind, used) :: rest ∧
      rest.map Prod.fst = hub.logins.map Slot.kind ∧ run.hub.Returned kind lerr hub := by
  obtain ⟨kind, hreturned⟩ := HubController.returned_of_loginReturned hlogin
  have hwaiting := h.waiting.trans hreturned.logins
  obtain ⟨top, rest, heq, htop, hrest⟩ := List.map_eq_cons_iff.mp hwaiting
  subst htop
  exact ⟨top.1, top.2, rest, heq, hrest, hreturned⟩

theorem Inv.refresh (h : run.Inv) {hub : HubController} (hattempts : hub.attempts = run.hub.attempts)
    (hrequests : ∀ kind, hub.requests kind = run.hub.requests kind + 1)
    (hlogins : hub.logins = run.hub.logins) : Inv { run.refresh with hub := hub } := by
  refine ⟨?_, ?_, ?_⟩
  · intro kind
    change hub.attempts kind ≤ updateAttemptMax
    rw [hattempts]
    exact h.attempts kind
  · intro kind
    change _ = hub.requests kind
    rw [hrequests, ← h.inFlight kind]
    cases kind <;> rfl
  · change _ = hub.logins.map Slot.kind
    rw [hlogins]
    exact h.waiting

theorem Inv.answer (h : run.Inv) {kind : RequestKind} {used : Used} {errCode : Int}
    {hub : HubController} {run₀ : RetryRun} (hreplied : run.hub.Replied kind errCode hub)
    (hanswer : run.answer kind used errCode = some run₀) : Inv { run₀ with hub := hub } := by
  rw [RetryRun.answer] at hanswer
  split at hanswer
  · next hmem =>
    rw [← Option.some.inj hanswer]
    refine ⟨?_, ?_, ?_⟩
    · intro kind'
      change hub.attempts kind' ≤ updateAttemptMax
      rw [hreplied.attempts]
      exact h.attempts kind'
    · intro kind'
      change _ = hub.requests kind'
      rw [hreplied.requests]
      by_cases hkind : kind' = kind
      · subst hkind
        simp only [Function.update_self]
        rw [List.length_erase_of_mem hmem, h.inFlight]
      · simp only [Function.update_of_ne hkind]
        exact h.inFlight kind'
    · change _ = hub.logins.map Slot.kind
      rw [hreplied.logins, ← h.waiting]
      dsimp only
      split <;> rfl
  · exact absurd hanswer.symm (Option.some_ne_none _)

theorem waiting_goOn {hub : HubController} {top : RequestKind × Used}
    {rest : List (RequestKind × Used)} (h : run.waiting = top :: rest) :
    (run.goOn hub).waiting = rest := by
  rw [goOn, h]
  dsimp only
  split <;> rfl

theorem Inv.goOn (h : run.Inv) {hub : HubController} {kind : RequestKind} {lerr : Int}
    {used : Used} {rest : List (RequestKind × Used)}
    (hwaiting : run.waiting = (kind, used) :: rest)
    (hrest : rest.map Prod.fst = hub.logins.map Slot.kind)
    (hreturned : run.hub.Returned kind lerr hub) : Inv { run.goOn hub with hub := hub } := by
  by_cases hlerr : lerr = reSuccess
  · have hlogged := hreturned.loggedIn hlerr
    refine ⟨?_, ?_, ?_⟩
    · intro kind'
      change hub.attempts kind' ≤ updateAttemptMax
      rw [hlogged.attempts]
      by_cases hkind : kind' = kind
      · subst hkind
        rw [Function.update_self]
        split
        · next hless => exact hless
        · exact Nat.zero_le _
      · rw [Function.update_of_ne hkind]
        exact h.attempts kind'
    · intro kind'
      change ((run.goOn hub).inFlight kind').length = hub.requests kind'
      rw [RetryRun.goOn, hwaiting]
      dsimp only
      rw [hlogged.requests, Function.update_self]
      by_cases hless : run.hub.attempts kind < updateAttemptMax
      · rw [if_pos hless, if_pos (Nat.lt_succ_self _)]
        by_cases hkind : kind' = kind
        · subst hkind
          simp [send, h.inFlight]
        · simp [send, hkind, h.inFlight]
      · rw [if_neg hless, if_neg (Nat.lt_irrefl _), Function.update_eq_self]
        exact h.inFlight kind'
    · exact (congrArg _ (waiting_goOn hwaiting)).trans hrest
  · obtain ⟨hattempts, hrequests⟩ := hreturned.failed hlerr
    refine ⟨?_, ?_, ?_⟩
    · intro kind'
      change hub.attempts kind' ≤ updateAttemptMax
      rw [hattempts]
      exact h.attempts kind'
    · intro kind'
      change ((run.goOn hub).inFlight kind').length = hub.requests kind'
      rw [RetryRun.goOn, hwaiting]
      dsimp only
      rw [hrequests, if_neg (Nat.lt_irrefl _)]
      exact h.inFlight kind'
    · exact (congrArg _ (waiting_goOn hwaiting)).trans hrest

/-- An event that touches neither counters nor requests. -/
theorem Inv.same (h : run.Inv) {hub : HubController} (hsame : run.hub.SameRetries hub) :
    Inv { run with hub := hub } := by
  refine ⟨?_, ?_, ?_⟩
  · intro kind
    change hub.attempts kind ≤ updateAttemptMax
    rw [hsame.attempts]
    exact h.attempts kind
  · intro kind
    change _ = hub.requests kind
    rw [hsame.requests]
    exact h.inFlight kind
  · change _ = hub.logins.map Slot.kind
    rw [hsame.logins]
    exact h.waiting

theorem Inv.updateEnvironments (h : run.Inv) :
    Inv { run.send .environments none with hub := run.hub.updateEnvironments } := by
  refine ⟨?_, ?_, h.waiting⟩
  · intro kind
    cases kind with
    | balance => exact h.attempts .balance
    | environments => exact h.attempts .environments
  · intro kind
    cases kind with
    | balance => exact h.inFlight .balance
    | environments => exact congrArg (· + 1) (h.inFlight .environments)

theorem Inv.refreshTimerTimeout (h : run.Inv) :
    Inv { run.refresh with hub := run.hub.refreshTimerTimeout } :=
  h.refresh run.hub.attempts_refreshTimerTimeout run.hub.requests_refreshTimerTimeout rfl

theorem sameRetries_start (hub : HubController) : hub.SameRetries hub.start := by
  rw [HubController.start]
  split <;> exact ⟨rfl, rfl, rfl⟩

theorem Inv.step (h : run.Inv) (hstep : run.step a = some run') : run'.Inv := by
  obtain ⟨hub, run₀, hhub, hfollow, rfl⟩ := exists_of_step hstep
  obtain ⟨event, used⟩ := a
  have heffect := HubController.effect_of_step hhub
  cases event with
  | refreshTimerTimeout =>
      rw [show hub = run.hub.refreshTimerTimeout from heffect, ← Option.some.inj hfollow]
      exact h.refreshTimerTimeout
  | forceRefresh =>
      rw [show hub = run.hub.forceRefresh from heffect, ← Option.some.inj hfollow,
        HubController.forceRefresh]
      by_cases htwo : run.hub.updatedComponentsCount ≥ 2
      · rw [if_pos htwo, if_pos htwo]
        exact h.refreshTimerTimeout
      · rw [if_neg htwo, if_neg htwo]
        exact h
  | start =>
      rw [show hub = run.hub.start from heffect, ← Option.some.inj hfollow]
      exact h.same (sameRetries_start run.hub)
  | settingsChanged =>
      rw [show hub = run.hub.settingsChanged from heffect, ← Option.some.inj hfollow]
      exact h.same ⟨rfl, rfl, rfl⟩
  | logout =>
      rw [show hub = run.hub.logout from heffect, ← Option.some.inj hfollow]
      exact h.same ⟨rfl, rfl, rfl⟩
  | updateEnvironments =>
      rw [← Option.some.inj hhub, ← Option.some.inj hfollow]
      exact h.updateEnvironments
  | balanceReply reply =>
      refine Inv.answer h ?_ hfollow
      rw [HubController.eq_of_balanceReply hhub]
      exact HubController.replied_onBalanceUpdatedSl reply run.hub
  | environmentsReply reply =>
      refine Inv.answer h ?_ hfollow
      rw [HubController.eq_of_environmentsReply hhub]
      exact HubController.replied_onEnvironmentsUpdatedSl reply run.hub
  | loginReturned lerr =>
      obtain ⟨kind, used, rest, hwaiting, hrest, hreturned⟩ := h.returned hhub
      rw [← Option.some.inj hfollow]
      exact h.goOn hwaiting hrest hreturned

theorem right_reply_iff {kind : RequestKind} {Usable : Prop} (h : run'.Inv)
    (hattempts : run'.hub.attempts = run.hub.attempts) (hstep : run.step a = some run') :
    (∀ run'', run.step a = some run'' → Usable → run''.hub.budget kind = updateAttemptMax) ↔
      (Usable → run.hub.attempts kind = 0) := by
  rw [← hattempts, ← budget_eq_max_iff h]
  constructor
  · intro hright
    exact hright run' hstep
  · intro hgood run'' hstep''
    rw [← Option.some.inj (hstep.symm.trans hstep'')]
    exact hgood

theorem right_loginReturned {hub : HubController} {kind : RequestKind} {lerr : Int}
    {used : Used} {rest : List (RequestKind × Used)} (h : run.Counted)
    (hwaiting : run.waiting = (kind, used) :: rest) (hlogged : run.hub.LoggedIn kind hub)
    (hhub : run.hub.step (.loginReturned lerr) = some hub) (answered : Used) :
    run.Right ⟨.loginReturned lerr, answered⟩ := by
  intro run' hstep _ kind' used' rest' hwaiting'
  obtain ⟨hub', run₀, hhub', -, rfl⟩ := exists_of_step hstep
  rw [hwaiting] at hwaiting'
  cases hwaiting'
  have hused : used' = run.hub.attempts kind :=
    h kind used' ((mem_live_waiting hwaiting).mpr (Or.inl ⟨rfl, rfl⟩))
  rw [← Option.some.inj (hhub.symm.trans hhub'), hused]
  change _ < hub.requests kind ↔ _
  rw [hlogged.requests, Function.update_self]
  split
  · next hless => exact iff_of_true (Nat.lt_succ_self _) hless
  · next hless => exact iff_of_false (Nat.lt_irrefl _) hless

/-- An answer takes the request from those open, and a usable one ends its refresh. -/
theorem turn_reply {kind : RequestKind} {errCode : Int} {Usable : Prop} {hub : HubController}
    {used : Used} {run₀ : RetryRun} (hcounted : run.Counted)
    (hreplied : run.hub.Replied kind errCode hub)
    (hanswer : run.answer kind used errCode = some run₀)
    (hinv : Inv { run₀ with hub := hub }) (hstep : run.step a = some { run₀ with hub := hub }) :
    Counted { run₀ with hub := hub } ∧
      (∀ run'', run.step a = some run'' → Usable → run''.hub.budget kind = updateAttemptMax) ↔
      (Usable → run.hub.attempts kind = 0) := by
  have hcounted' : Counted { run₀ with hub := hub } :=
    hcounted.of_subset hreplied.attempts fun _ _ hused => mem_live_of_answer hanswer hused
  refine (and_iff_right hcounted').trans ?_
  exact right_reply_iff hinv hreplied.attempts hstep

/-- If the login succeeds the counter leaves all other open requests behind. -/
theorem turn_loginReturned {lerr : Int} {hub : HubController} (h : run.Inv)
    (hcounted : run.Counted) (hhub : run.hub.step (.loginReturned lerr) = some hub)
    (answered : Used) :
    Counted { run.goOn hub with hub := hub } ∧ run.Right ⟨.loginReturned lerr, answered⟩ ↔
      run.Good ⟨.loginReturned lerr, answered⟩ := by
  obtain ⟨kind, used, rest, hwaiting, -, hreturned⟩ := h.returned hhub
  by_cases hlerr : lerr = reSuccess
  · have hlogged := hreturned.loggedIn hlerr
    have hright := right_loginReturned hcounted hwaiting hlogged hhub answered
    refine (and_iff_left hright).trans ?_
    rw [counted_goOn_iff hcounted hwaiting hlogged]
    constructor
    · intro hnone _ top rest' hwaiting'
      rw [hwaiting] at hwaiting'
      cases hwaiting'
      exact hnone
    · intro hgood
      exact hgood hlerr _ _ hwaiting
  · obtain ⟨hattempts, hrequests⟩ := hreturned.failed hlerr
    refine iff_of_true ⟨?_, fun _ _ h => absurd h hlerr⟩ fun h => absurd h hlerr
    refine hcounted.of_subset hattempts fun kind' used' hused => ?_
    apply (mem_live_waiting hwaiting).mpr
    right
    rw [goOn, hwaiting] at hused
    dsimp only at hused
    rw [hrequests, if_neg (Nat.lt_irrefl _)] at hused
    exact hused

theorem turn (h : run.Inv) (hbudgeted : run.Budgeted) (hstep : run.step a = some run') :
    run'.Budgeted ∧ run.Right a ↔ run.Good a := by
  have hinv := h.step hstep
  have hcounted := (budgeted_iff_counted h).mp hbudgeted
  rw [budgeted_iff_counted hinv]
  obtain ⟨hub, run₀, hhub, hfollow, rfl⟩ := exists_of_step hstep
  obtain ⟨event, answered⟩ := a
  have heffect := HubController.effect_of_step hhub
  cases event with
  | refreshTimerTimeout =>
      rw [show hub = run.hub.refreshTimerTimeout from heffect, ← Option.some.inj hfollow]
      refine (and_iff_left fun _ _ => trivial).trans ?_
      exact counted_refresh_iff run.hub.attempts_refreshTimerTimeout hcounted
  | forceRefresh =>
      rw [show hub = run.hub.forceRefresh from heffect, ← Option.some.inj hfollow,
        HubController.forceRefresh]
      refine (and_iff_left fun _ _ => trivial).trans ?_
      by_cases htwo : run.hub.updatedComponentsCount ≥ 2
      · rw [if_pos htwo, if_pos htwo,
          counted_refresh_iff run.hub.attempts_refreshTimerTimeout hcounted]
        exact (imp_iff_right htwo).symm
      · rw [if_neg htwo, if_neg htwo]
        exact iff_of_true hcounted fun h => absurd h htwo
  | start =>
      rw [show hub = run.hub.start from heffect, ← Option.some.inj hfollow]
      refine iff_of_true ⟨?_, fun _ _ => trivial⟩ trivial
      exact hcounted.of_subset (sameRetries_start run.hub).attempts fun _ _ h => h
  | settingsChanged | logout =>
      rw [show hub = _ from heffect, ← Option.some.inj hfollow]
      exact iff_of_true ⟨hcounted, fun _ _ => trivial⟩ trivial
  | updateEnvironments =>
      rw [← Option.some.inj hhub, ← Option.some.inj hfollow]
      refine iff_of_true ⟨?_, fun _ _ => trivial⟩ trivial
      refine hcounted.of_subset (run.hub.attempts_ask .environments) fun kind used hused => ?_
      cases mem_live_send.mp hused with
      | inl hnew => exact absurd hnew.2 (Option.some_ne_none _)
      | inr hold => exact hold
  | balanceReply reply =>
      have hreplied : run.hub.Replied .balance reply.errCode hub := by
        rw [HubController.eq_of_balanceReply hhub]
        exact HubController.replied_onBalanceUpdatedSl reply run.hub
      exact turn_reply hcounted hreplied hfollow hinv hstep
  | environmentsReply reply =>
      have hreplied : run.hub.Replied .environments reply.errCode hub := by
        rw [HubController.eq_of_environmentsReply hhub]
        exact HubController.replied_onEnvironmentsUpdatedSl reply run.hub
      exact turn_reply hcounted hreplied hfollow hinv hstep
  | loginReturned lerr =>
      rw [← Option.some.inj hfollow]
      exact turn_loginReturned h hcounted hhub answered

/-- Whatever the controller does, some request can be told to be the one answered. -/
theorem exists_step (h : run.Inv) {event : HubEvent} {hub : HubController}
    (hhub : run.hub.step event = some hub) :
    ∃ used run', run.step ⟨event, used⟩ = some run' ∧ run'.hub = hub := by
  suffices hfollow : ∃ used, (run.follow hub ⟨event, used⟩).isSome by
    obtain ⟨used, hsome⟩ := hfollow
    obtain ⟨run₀, hrun₀⟩ := Option.isSome_iff_exists.mp hsome
    exact ⟨used, { run₀ with hub := hub }, by simp [RetryRun.step, hhub, hrun₀], rfl⟩
  have hanswer (kind : RequestKind) (errCode : Int) (hsome : run.hub.requests kind ≠ 0) :
      ∃ used, (run.answer kind used errCode).isSome := by
    have hlength := h.inFlight kind
    obtain ⟨used, hused⟩ := List.exists_mem_of_ne_nil (run.inFlight kind) (by
      rintro hnil
      rw [hnil] at hlength
      exact hsome hlength.symm)
    exact ⟨used, by rw [RetryRun.answer, if_pos hused]; rfl⟩
  cases event with
  | balanceReply reply =>
      apply hanswer .balance reply.errCode
      intro hzero
      have hrefused : run.hub.step (.balanceReply reply) = none := if_pos hzero
      exact absurd (hhub.symm.trans hrefused) (Option.some_ne_none _)
  | environmentsReply reply =>
      apply hanswer .environments reply.errCode
      intro hzero
      have hrefused : run.hub.step (.environmentsReply reply) = none := if_pos hzero
      exact absurd (hhub.symm.trans hrefused) (Option.some_ne_none _)
  | refreshTimerTimeout | forceRefresh | start | settingsChanged | logout | updateEnvironments
  | loginReturned _ => exact ⟨none, rfl⟩

/-- The runs are all runs of the controller. -/
theorem exists_run {events : List HubEvent} {hub : HubController}
    (h : events.foldlM HubController.step HubController.new = some hub) :
    ∃ (inputs : List RetryEvent) (run : RetryRun), inputs.map RetryEvent.event = events ∧
      inputs.foldlM step new = some run ∧ run.hub = hub := by
  suffices hfrom : ∀ (events : List HubEvent) (run : RetryRun), run.Inv →
      events.foldlM HubController.step run.hub = some hub →
      ∃ (inputs : List RetryEvent) (run' : RetryRun), inputs.map RetryEvent.event = events ∧
        inputs.foldlM step run = some run' ∧ run'.hub = hub from hfrom events new Inv.new h
  intro events
  induction events with
  | nil =>
      intro run _ hrun
      exact ⟨[], run, rfl, rfl, Option.some.inj hrun⟩
  | cons event events ih =>
      intro run hinv hrun
      rw [List.foldlM_cons] at hrun
      obtain ⟨hub₀, hhub, hrest⟩ := Option.bind_eq_some_iff.mp hrun
      obtain ⟨used, run₀, hstep, rfl⟩ := exists_step hinv hhub
      obtain ⟨inputs, run', hmap, hinputs, hhub'⟩ := ih run₀ (hinv.step hstep) hrest
      refine ⟨⟨event, used⟩ :: inputs, run', congrArg (event :: ·) hmap, ?_, hhub'⟩
      rw [List.foldlM_cons, hstep]
      exact hinputs

/-- Every refresh has its whole budget, and every usable reply restores it, if and only
if refreshes and usable replies find the counters at zero and refreshes do not overlap
in their repetitions. -/
theorem budgeted_and_restored_iff (inputs : List RetryEvent) :
    Runs.AlwaysPartial step Budgeted new inputs ∧ Runs.EachStepPartial step Right new inputs ↔
      Runs.EachStepPartial step Good new inputs := by
  apply Runs.alwaysPartial_and_eachStepPartial_iff Inv.new
  · intro kind used hused
    cases kind <;> exact absurd hused List.not_mem_nil
  · intro run a run' hinv hbudgeted hstep
    exact turn hinv hbudgeted hstep
  · intro run a run' hinv _ _ hstep
    exact hinv.step hstep

/-- A balance that comes with the first repetition: it leaves a budget of four, and the
next refresh has no more. -/
theorem not_budgeted_afterBalance :
    let inputs : List RetryEvent :=
      [⟨.refreshTimerTimeout, none⟩, ⟨.balanceReply ⟨[], reNotJsonDoc⟩, some 0⟩,
        ⟨.loginReturned reSuccess, none⟩, ⟨.balanceReply ⟨['7'], reSuccess⟩, some 1⟩,
        ⟨.refreshTimerTimeout, none⟩]
    ¬Runs.AlwaysPartial step Budgeted new inputs ∧ ¬Runs.EachStepPartial step Right new inputs := by
  intro inputs
  have hbefore : ∃ run, (inputs.take 3).foldlM step new = some run ∧
      ∃ run', run.step ⟨.balanceReply ⟨['7'], reSuccess⟩, some 1⟩ = some run' ∧
        run'.hub.budget .balance = 4 :=
    ⟨_, rfl, _, rfl, rfl⟩
  have hafter : ∃ run, inputs.foldlM step new = some run ∧ some 0 ∈ run.live .balance ∧
      run.hub.budget .balance = 4 :=
    ⟨_, rfl, List.mem_cons_self, rfl⟩
  constructor
  · obtain ⟨run, hrun, hlive, hfour⟩ := hafter
    intro halways
    have hfull := halways inputs run (List.prefix_refl _) hrun .balance 0 hlive
    rw [hfour] at hfull
    exact absurd hfull (by decide)
  · obtain ⟨run, hrun, run', hstep, hfour⟩ := hbefore
    intro hright
    have hfull := hright (inputs.take 3) _ run (List.take_prefix 4 inputs) hrun
      (Option.isSome_iff_exists.mpr ⟨run', hstep⟩) run' hstep rfl
    rw [hfour] at hfull
    exact absurd hfull (by decide)

end RetryRun

end SubutaiTray.Hub
