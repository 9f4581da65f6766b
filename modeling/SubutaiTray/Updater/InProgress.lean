import Mathlib.Algebra.Group.Int.Defs
import SubutaiTray.Library.Runs
import SubutaiTray.Updater.Exits

/-!
The flag `m_in_progress` of `IUpdaterComponent`.

The base class sets it before an operation, and only the slots of the finished signals
clear it. So an exit without such a signal leaves it set for good; the exits of that kind
are listed once, and everything else follows from a reading of each operation against
the list.
-/
namespace SubutaiTray.Updater

/-- An operation that has been started: what is left of it, and what it has said. -/
structure Operation where
  kind : Kind
  rest : Script
  notified : List Notification

/-- `lastPbValue` is `last_pb_value`, and `codes` what the requests have returned so far. -/
structure IUpdaterComponent where
  inProgress : Bool
  lastPbValue : Nat × Nat
  codes : List Chue
  operations : List Operation

def quint64 (value : Int) : Nat := (value % 2 ^ 64).toNat

namespace Script

/-- Something has still to happen before the operation goes on. -/
def waits : Script → Bool
  | .ask .. => true
  | .download .. => true
  | .work .. => true
  | _ => false

/-- The question that the operation waits for; a download is one. -/
def question : Script → Option Question
  | .ask question _ => some question
  | .download .. => some .downloaded
  | _ => none

end Script

namespace IUpdaterComponent

def new : IUpdaterComponent where
  inProgress := false
  lastPbValue := (0, 0)
  codes := []
  operations := []

def updateProgressSl (part total : Int) (run : IUpdaterComponent) : IUpdaterComponent :=
  { run with lastPbValue := (quint64 part, quint64 total) }

/-- The operation goes on until it has to wait or is over. -/
def advance (run : IUpdaterComponent) (operation : Operation) :
    Script → IUpdaterComponent × Operation
  | .finish notification next =>
      advance { run with inProgress := false }
        { operation with notified := operation.notified ++ [notification] } next
  | .clear next => advance { run with inProgress := false } operation next
  | .progress part total next => advance (run.updateProgressSl part total) operation next
  | .returns code next => advance { run with codes := run.codes ++ [code] } operation next
  | rest => (run, { operation with rest := rest })

/-- `update`, `install` and `uninstall` -/
def request (operations : Operations) (kind : Kind) (run : IUpdaterComponent) :
    IUpdaterComponent :=
  if run.inProgress then { run with codes := run.codes ++ [.inProgress] }
  else
    let started :=
      { run with inProgress := true }.updateProgressSl 0 (if kind = Kind.uninstall then 0 else 100)
    let advanced := started.advance ⟨kind, .ends, []⟩ (operations.internal kind)
    { advanced.1 with operations := advanced.1.operations ++ [advanced.2] }

def resume (index : Nat) (operation : Operation) (next : Script) (run : IUpdaterComponent) :
    IUpdaterComponent :=
  let advanced := run.advance operation next
  { advanced.1 with operations := advanced.1.operations.set index advanced.2 }

/-- The index is that of the operation. -/
inductive Event where
  | request (kind : Kind)
  | answered (index : Nat) (yes : Bool)
  | worked (index : Nat) (success : Bool) (version : QString)
  | downloadProgress (index : Nat) (rec total : Int)

def step (operations : Operations) (run : IUpdaterComponent) (event : Event) :
    Option IUpdaterComponent :=
  match event with
  | .request kind => some (run.request operations kind)
  | .answered index yes =>
      match run.operations[index]? with
      | none => none
      | some operation =>
          match operation.rest with
          | .ask _ next => some (run.resume index operation (next yes))
          | .download _ next => some (run.resume index operation (next yes))
          | _ => none
  | .worked index success version =>
      match run.operations[index]? with
      | none => none
      | some operation =>
          match operation.rest with
          | .work silent cc next =>
              if silent.handles cc then some (run.resume index operation (next success version))
              else none
          | _ => none
  | .downloadProgress index rec total =>
      match run.operations[index]? with
      | none => none
      | some operation =>
          match operation.rest with
          | .download shown _ =>
              some (run.updateProgressSl (shown rec total).1 (shown rec total).2)
          | _ => none

/-- The flag is set while an operation goes on, and each operation that is over has sent
one finished signal. -/
structure InProgressRight (run : IUpdaterComponent) : Prop where
  flag : run.inProgress = true ↔ ∃ operation ∈ run.operations, operation.rest.waits = true
  once : ∀ operation ∈ run.operations,
    operation.notified.length = if operation.rest.waits then 0 else 1

end IUpdaterComponent

/-! ## One operation goes on -/

namespace IUpdaterComponent

section
variable {quiet : Question → Bool → Bool} {script : Script} {run : IUpdaterComponent}
  {operation : Operation}

theorem operations_advance (run : IUpdaterComponent) (operation : Operation) (script : Script) :
    (run.advance operation script).1.operations = run.operations := by
  induction script generalizing run operation with
  | ends | ask _ _ | download _ _ | work _ _ _ => rfl
  | finish _ next ih | clear next ih | progress _ _ next ih | returns _ next ih => exact ih _ _

theorem kind_advance (run : IUpdaterComponent) (operation : Operation) (script : Script) :
    (run.advance operation script).2.kind = operation.kind := by
  induction script generalizing run operation with
  | ends | ask _ _ | download _ _ | work _ _ _ => rfl
  | finish _ next ih | clear next ih | progress _ _ next ih | returns _ next ih => exact ih _ _

/-- An exit without a signal. -/
theorem advance_silent (hsilent : script.silent = true) :
    (run.advance operation script).2 = { operation with rest := .ends } ∧
      (run.advance operation script).1.inProgress = run.inProgress := by
  induction script generalizing run operation with
  | ends => exact ⟨rfl, rfl⟩
  | progress part total next ih => exact @ih (run.updateProgressSl part total) operation hsilent
  | returns code next ih => exact @ih { run with codes := run.codes ++ [code] } operation hsilent
  | finish _ _ | clear _ | ask _ _ | download _ _ | work _ _ _ =>
      exact absurd hsilent Bool.false_ne_true

/-- After its signal an operation is over. -/
theorem advance_said (hspeaks : script.Speaks quiet true) :
    (run.advance operation script).2 = { operation with rest := .ends } ∧
      (run.advance operation script).1.inProgress = run.inProgress := by
  induction script generalizing run operation with
  | ends => exact ⟨rfl, rfl⟩
  | progress part total next ih => exact @ih (run.updateProgressSl part total) operation hspeaks
  | returns code next ih => exact @ih { run with codes := run.codes ++ [code] } operation hspeaks
  | clear next _ => exact absurd hspeaks id
  | finish _ _ | ask _ _ | download _ _ | work _ _ _ =>
      exact absurd hspeaks.1.symm Bool.false_ne_true

/-- Either the operation waits again and has said nothing, or it has sent its signal and is
over. -/
theorem advance_speaks (hspeaks : script.Speaks quiet false) :
    ((run.advance operation script).2.rest.waits = true ∧
        (run.advance operation script).2.rest.Speaks quiet false ∧
        (run.advance operation script).2.notified = operation.notified ∧
        (run.advance operation script).1.inProgress = run.inProgress) ∨
      ((run.advance operation script).2.rest = .ends ∧
        (run.advance operation script).2.notified.length = operation.notified.length + 1 ∧
        (run.advance operation script).1.inProgress = false) := by
  induction script generalizing run operation with
  | ends => exact absurd hspeaks Bool.false_ne_true
  | clear next _ => exact absurd hspeaks id
  | progress part total next ih => exact @ih (run.updateProgressSl part total) operation hspeaks
  | returns code next ih => exact @ih { run with codes := run.codes ++ [code] } operation hspeaks
  | finish notification next _ =>
      obtain ⟨hover, hflag⟩ := @advance_said quiet next { run with inProgress := false }
        { operation with notified := operation.notified ++ [notification] } hspeaks.2
      refine Or.inr ⟨congrArg Operation.rest hover, ?_, hflag⟩
      exact (congrArg (fun operation : Operation => operation.notified.length) hover).trans
        List.length_append
  | ask _ _ | download _ _ | work _ _ _ => exact Or.inl ⟨rfl, hspeaks, rfl, rfl⟩

end

/-! ## Steps -/

section
variable {os : OS} {id : ComponentId} {run run' : IUpdaterComponent} {index : Nat}
  {operation : Operation}

/-- What is known of a run, right or not: at most one operation goes on, it has said
nothing yet, and the flag is set for it. -/
structure Tracked (os : OS) (id : ComponentId) (run : IUpdaterComponent) : Prop where
  speaks : ∀ (index : Nat) (operation : Operation), run.operations[index]? = some operation →
    operation.rest.waits = true → operation.rest.Speaks (quiet os id operation.kind) false
  unsaid : ∀ (index : Nat) (operation : Operation), run.operations[index]? = some operation →
    operation.rest.waits = true → operation.notified = []
  flag : ∀ (index : Nat) (operation : Operation), run.operations[index]? = some operation →
    operation.rest.waits = true → run.inProgress = true
  single : ∀ (index index' : Nat) (operation operation' : Operation),
    run.operations[index]? = some operation → run.operations[index']? = some operation' → operation.rest.waits = true →
    operation'.rest.waits = true → index = index'

/-- A step is about one operation, and no other one goes on. -/
structure Turned (run run' : IUpdaterComponent) (index : Nat) (operation : Operation) : Prop where
  here : run'.operations[index]? = some operation
  others : ∀ (other : Nat) (operation' : Operation), other ≠ index → run'.operations[other]? = some operation' →
    run.operations[other]? = some operation' ∧ operation'.rest.waits = false

namespace Turned

variable (h : Turned run run' index operation)
include h

theorem eq_of_waits {other : Nat} {operation' : Operation}
    (hother : run'.operations[other]? = some operation') (hwaits : operation'.rest.waits = true) :
    other = index ∧ operation' = operation := by
  have heq : other = index := by
    by_contra hne
    exact Bool.false_ne_true ((h.others other operation' hne hother).2.symm.trans hwaits)
  rw [heq, h.here] at hother
  exact ⟨heq, (Option.some.inj hother).symm⟩

theorem tracked
    (hgoes : operation.rest.waits = true → operation.rest.Speaks (quiet os id operation.kind) false ∧
      operation.notified = [] ∧ run'.inProgress = true) : run'.Tracked os id := by
  refine ⟨?_, ?_, ?_, ?_⟩
  · intro other operation' hother hwaits
    obtain ⟨_, heq⟩ := h.eq_of_waits hother hwaits
    rw [heq] at hwaits ⊢
    exact (hgoes hwaits).1
  · intro other operation' hother hwaits
    obtain ⟨_, heq⟩ := h.eq_of_waits hother hwaits
    rw [heq] at hwaits ⊢
    exact (hgoes hwaits).2.1
  · intro other operation' hother hwaits
    obtain ⟨_, heq⟩ := h.eq_of_waits hother hwaits
    rw [heq] at hwaits
    exact (hgoes hwaits).2.2
  · intro other other' operation' operation'' hother hother' hwaits hwaits'
    rw [(h.eq_of_waits hother hwaits).1, (h.eq_of_waits hother' hwaits').1]

theorem inProgressRight_iff (hright : run.InProgressRight) :
    run'.InProgressRight ↔
      operation.notified.length = (if operation.rest.waits then 0 else 1) ∧
        (run'.inProgress = true ↔ operation.rest.waits = true) := by
  have hwaits : (∃ operation ∈ run'.operations, operation.rest.waits = true) ↔
      operation.rest.waits = true := by
    constructor
    · rintro ⟨operation', hmem, hwaits⟩
      obtain ⟨other, hother⟩ := List.mem_iff_getElem?.mp hmem
      rw [← (h.eq_of_waits hother hwaits).2]
      exact hwaits
    · intro hwaits
      exact ⟨operation, List.mem_of_getElem? h.here, hwaits⟩
  constructor
  · intro hright'
    exact ⟨hright'.once operation (List.mem_of_getElem? h.here), hright'.flag.trans hwaits⟩
  · rintro ⟨honce, hflag⟩
    refine ⟨hflag.trans hwaits.symm, ?_⟩
    intro operation' hmem
    obtain ⟨other, hother⟩ := List.mem_iff_getElem?.mp hmem
    by_cases hne : other = index
    · rw [hne, h.here] at hother
      rw [← Option.some.inj hother]
      exact honce
    · exact hright.once operation' (List.mem_of_getElem? (h.others other operation' hne hother).1)

end Turned

section
variable {start : IUpdaterComponent} {begun : Operation} {script : Script}
  (h : Turned run run' index (start.advance begun script).2)
  (hunsaid : begun.notified = [])
include h hunsaid

/-- An operation goes on as the list of exits wants it. -/
theorem tracked_of_speaks (hspeaks : script.Speaks (quiet os id begun.kind) false)
    (hflag : run'.inProgress = (start.advance begun script).1.inProgress)
    (hstart : start.inProgress = true) :
    run'.Tracked os id ∧ (run.InProgressRight → run'.InProgressRight) := by
  rcases @advance_speaks _ script start begun hspeaks with
    ⟨hwaits, hrest, hnotified, hsame⟩ | ⟨hover, hlength, hclear⟩
  · rw [hunsaid] at hnotified
    rw [hsame, hstart] at hflag
    constructor
    · apply h.tracked
      intro _
      rw [kind_advance]
      exact ⟨hrest, hnotified, hflag⟩
    · intro hright
      rw [h.inProgressRight_iff hright, hnotified, hwaits]
      exact ⟨rfl, iff_of_true hflag rfl⟩
  · rw [hclear] at hflag
    rw [hunsaid] at hlength
    constructor
    · apply h.tracked
      intro hwaits
      rw [hover] at hwaits
      exact absurd hwaits Bool.false_ne_true
    · intro hright
      rw [h.inProgressRight_iff hright, hlength, hover, hflag]
      exact ⟨rfl, Iff.rfl⟩

/-- It takes an exit without a signal. -/
theorem tracked_of_silent (hover : (start.advance begun script).2 = { begun with rest := .ends }) :
    run'.Tracked os id ∧ (run.InProgressRight → ¬ run'.InProgressRight) := by
  rw [hover] at h
  constructor
  · apply h.tracked
    intro hwaits
    exact absurd hwaits Bool.false_ne_true
  · intro hright hright'
    have honce := ((h.inProgressRight_iff hright).mp hright').1
    dsimp only at honce
    rw [hunsaid] at honce
    exact Nat.zero_ne_one honce

end

theorem turned_resume (h : run.Tracked os id) (hhere : run.operations[index]? = some operation)
    (hwaits : operation.rest.waits = true) (next : Script) :
    Turned run (run.resume index operation next) index (run.advance operation next).2 := by
  rw [resume, operations_advance]
  constructor
  · have hlt : index < run.operations.length := (List.getElem?_eq_some_iff.mp hhere).1
    exact List.getElem?_set_self hlt
  · intro other operation' hne hother
    dsimp only at hother
    rw [List.getElem?_set_ne hne.symm] at hother
    refine ⟨hother, ?_⟩
    rw [← Bool.not_eq_true]
    intro hwaits'
    exact hne (h.single other index operation' operation hother hhere hwaits' hwaits)

/-- The request starts an operation. -/
theorem turned_request (h : run.Tracked os id) (hfree : run.inProgress = false)
    (operations : Operations) (kind : Kind) :
    ∃ start : IUpdaterComponent, start.inProgress = true ∧
      Turned run (run.request operations kind) run.operations.length
        (start.advance ⟨kind, .ends, []⟩ (operations.internal kind)).2 ∧
      (run.request operations kind).inProgress =
        (start.advance ⟨kind, .ends, []⟩ (operations.internal kind)).1.inProgress := by
  have hbusy : ¬ run.inProgress = true := by
    rw [hfree]
    exact Bool.false_ne_true
  rw [request, if_neg hbusy]
  refine ⟨_, rfl, ⟨?_, ?_⟩, rfl⟩
  · dsimp only
    rw [operations_advance]
    exact List.getElem?_concat_length
  · intro other operation' hne hother
    dsimp only at hother
    rw [operations_advance] at hother
    change (run.operations ++ [_])[other]? = some operation' at hother
    have hbefore : run.operations[other]? = some operation' := by
      by_cases hlt : other < run.operations.length
      · rw [List.getElem?_append_left hlt] at hother
        exact hother
      · have hlength := (List.getElem?_eq_some_iff.mp hother).1
        rw [List.length_append, List.length_singleton] at hlength
        omega
    refine ⟨hbefore, ?_⟩
    rw [← Bool.not_eq_true]
    intro hwaits
    exact hbusy (h.flag other operation' hbefore hwaits)

/-- The step takes none of the exits without a signal, and starts no mute operation. -/
def Harmless (os : OS) (id : ComponentId) (run : IUpdaterComponent) (event : Event) : Prop :=
  match event with
  | .request kind => run.inProgress = true ∨ ¬ mute id kind
  | .answered index yes =>
      ∀ operation question, run.operations[index]? = some operation →
        operation.rest.question = some question → quiet os id operation.kind question yes = false
  | .worked .. => True
  | .downloadProgress .. => True

theorem tracked_of_same (h : run.Tracked os id) (hoperations : run'.operations = run.operations)
    (hflag : run'.inProgress = run.inProgress) :
    run'.Tracked os id ∧ (run.InProgressRight → run'.InProgressRight) := by
  constructor
  · refine ⟨?_, ?_, ?_, ?_⟩
    · rw [hoperations]
      exact h.speaks
    · rw [hoperations]
      exact h.unsaid
    · rw [hoperations, hflag]
      exact h.flag
    · rw [hoperations]
      exact h.single
  · intro hright
    refine ⟨?_, ?_⟩
    · rw [hoperations, hflag]
      exact hright.flag
    · rw [hoperations]
      exact hright.once

theorem advance_mute (os : OS) {kind : Kind} (hmute : mute id kind) (start : IUpdaterComponent)
    (begun : Operation) :
    (start.advance begun ((component os id).internal kind)).2 = { begun with rest := .ends } := by
  rw [hmute.1]
  cases kind with
  | update => exact absurd rfl hmute.2
  | install => rfl
  | uninstall => rfl

/-- What a step keeps, and when it keeps the flag right. -/
def Kept (os : OS) (id : ComponentId) (run run' : IUpdaterComponent) (event : Event) : Prop :=
  run'.Tracked os id ∧ (run.InProgressRight → (run'.InProgressRight ↔ Harmless os id run event))

theorem Kept.of_right {event : Event}
    (h : run'.Tracked os id ∧ (run.InProgressRight → run'.InProgressRight))
    (hharmless : Harmless os id run event) : Kept os id run run' event :=
  ⟨h.1, fun hright => iff_of_true (h.2 hright) hharmless⟩

theorem kept_request (h : run.Tracked os id) (kind : Kind) :
    Kept os id run (run.request (component os id) kind) (.request kind) := by
  cases hflag : run.inProgress with
  | true =>
      apply Kept.of_right
      · rw [request, if_pos hflag]
        exact tracked_of_same h rfl rfl
      · exact Or.inl hflag
  | false =>
      obtain ⟨start, hstart, hturned, hsame⟩ := turned_request h hflag (component os id) kind
      by_cases hmute : mute id kind
      · obtain ⟨htracked, hwrong⟩ :=
          @tracked_of_silent os id _ _ _ _ _ _ hturned rfl (advance_mute os hmute start _)
        refine ⟨htracked, fun hright => iff_of_false (hwrong hright) ?_⟩
        rintro (hc | hc)
        · exact Bool.false_ne_true (hflag.symm.trans hc)
        · exact hc hmute
      · exact Kept.of_right (tracked_of_speaks hturned rfl (speaks_internal os hmute) hsame hstart)
          (Or.inr hmute)

/-- The answer to a question, and the end of a download. -/
theorem kept_answered (h : run.Tracked os id) (hhere : run.operations[index]? = some operation)
    {question : Question} {next : Bool → Script} (yes : Bool)
    (hquestion : operation.rest.question = some question) (hwaits : operation.rest.waits = true)
    (hspeaks : if quiet os id operation.kind question yes then (next yes).silent = true
      else (next yes).Speaks (quiet os id operation.kind) false) :
    Kept os id run (run.resume index operation (next yes)) (.answered index yes) := by
  have hturned := turned_resume h hhere hwaits (next yes)
  have hunsaid := h.unsaid index operation hhere hwaits
  have hharmless : Harmless os id run (.answered index yes) ↔
      quiet os id operation.kind question yes = false := by
    constructor
    · intro hall
      exact hall operation question hhere hquestion
    · intro hone operation' question' hhere' hquestion'
      rw [hhere] at hhere'
      rw [← Option.some.inj hhere'] at hquestion' ⊢
      rw [hquestion] at hquestion'
      rw [← Option.some.inj hquestion']
      exact hone
  cases hquiet : quiet os id operation.kind question yes with
  | true =>
      rw [if_pos hquiet] at hspeaks
      obtain ⟨htracked, hwrong⟩ :=
        @tracked_of_silent os id _ _ _ _ _ _ hturned hunsaid (advance_silent hspeaks).1
      refine ⟨htracked, fun hright => iff_of_false (hwrong hright) ?_⟩
      rw [hharmless, hquiet]
      exact fun hc => Bool.false_ne_true hc.symm
  | false =>
      rw [if_neg (by rw [hquiet]; exact Bool.false_ne_true)] at hspeaks
      exact Kept.of_right (tracked_of_speaks hturned hunsaid hspeaks rfl
        (h.flag index operation hhere hwaits)) (hharmless.mpr hquiet)

theorem kept_step {event : Event} (h : run.Tracked os id)
    (hstep : step (component os id) run event = some run') : Kept os id run run' event := by
  cases event with
  | request kind =>
      rw [← Option.some.inj hstep]
      exact kept_request h kind
  | answered index yes =>
      rw [step] at hstep
      split at hstep
      · exact absurd hstep.symm (Option.some_ne_none run')
      · rename_i operation hhere
        split at hstep
        · rename_i question next hrest
          have hspeaks := h.speaks index operation hhere (by rw [hrest]; rfl)
          rw [hrest] at hspeaks
          rw [← Option.some.inj hstep]
          exact @kept_answered os id run index operation h hhere question next yes
            (by rw [hrest]; rfl) (by rw [hrest]; rfl) (hspeaks.2 yes)
        · rename_i shown next hrest
          have hspeaks := h.speaks index operation hhere (by rw [hrest]; rfl)
          rw [hrest] at hspeaks
          rw [← Option.some.inj hstep]
          exact @kept_answered os id run index operation h hhere .downloaded next yes
            (by rw [hrest]; rfl) (by rw [hrest]; rfl) (hspeaks.2 yes)
        · exact absurd hstep.symm (Option.some_ne_none run')
  | worked index success version =>
      rw [step] at hstep
      split at hstep
      · exact absurd hstep.symm (Option.some_ne_none run')
      · rename_i operation hhere
        split at hstep
        · rename_i silent cc next hrest
          have hwaits : operation.rest.waits = true := by
            rw [hrest]
            rfl
          have hspeaks := h.speaks index operation hhere hwaits
          rw [hrest] at hspeaks
          rw [if_pos hspeaks.2.1] at hstep
          rw [← Option.some.inj hstep]
          exact Kept.of_right (tracked_of_speaks (turned_resume h hhere hwaits _)
            (h.unsaid index operation hhere hwaits) (hspeaks.2.2 success version) rfl
            (h.flag index operation hhere hwaits)) trivial
        · exact absurd hstep.symm (Option.some_ne_none run')
  | downloadProgress index rec total =>
      rw [step] at hstep
      split at hstep
      · exact absurd hstep.symm (Option.some_ne_none run')
      · split at hstep
        · rw [← Option.some.inj hstep]
          exact Kept.of_right (tracked_of_same h rfl rfl) trivial
        · exact absurd hstep.symm (Option.some_ne_none run')

end

theorem tracked_new (os : OS) (id : ComponentId) : new.Tracked os id := by
  have hnone {index : Nat} {operation : Operation} (h : new.operations[index]? = some operation) :
      False := absurd h.symm (Option.some_ne_none operation)
  exact ⟨fun _ _ h => (hnone h).elim, fun _ _ h => (hnone h).elim, fun _ _ h => (hnone h).elim,
    fun _ _ _ _ h => (hnone h).elim⟩

theorem inProgressRight_new : new.InProgressRight := by
  refine ⟨iff_of_false Bool.false_ne_true ?_, ?_⟩
  · rintro ⟨operation, hmem, _⟩
    exact List.not_mem_nil hmem
  · intro operation hmem
    exact absurd hmem List.not_mem_nil

/-- The flag is right all along a run exactly when no step takes an exit without a signal or
starts a mute operation. -/
theorem inProgressRight_iff_harmless (os : OS) (id : ComponentId) (events : List Event) :
    Runs.AlwaysPartial (step (component os id)) InProgressRight new events ↔
      Runs.EachStepPartial (step (component os id)) (Harmless os id) new events :=
  @Runs.alwaysPartial_iff_eachStepPartial _ _ new (step (component os id)) (Tracked os id)
    InProgressRight (Harmless os id) (tracked_new os id) (fun _ _ _ h hstep => (kept_step h hstep).1)
    inProgressRight_new (fun _ _ _ h hright hstep => (kept_step h hstep).2 hright) events

/-- The package is not on the server, and the flag stays. -/
theorem not_inProgressRight_notOnKurjun :
    ¬ Runs.AlwaysPartial (step (component .linux .p2p)) InProgressRight new
      [.request .install, .answered 0 true, .answered 0 false] := by
  intro always
  have hright := always _ _ (List.prefix_refl _) rfl
  obtain ⟨operation, hmem, hwaits⟩ := hright.flag.mp rfl
  rw [List.mem_singleton.mp hmem] at hwaits
  exact Bool.false_ne_true hwaits

end IUpdaterComponent

end SubutaiTray.Updater
