import SubutaiTray.Library.Runs

/-!
Routines that share one lock and ask their surroundings.

The lock is not recursive: who asks for it while it is held waits for ever. A routine is
clean when, whatever it is told, it takes the lock once and gives it back before it
returns; that is read off the routine, path by path. For a whole sequence of calls the
lock is free after each of them if and only if none of them keeps it.
-/
namespace Locking

universe u v
variable {Step : Type u} {Answer : Step → Type v} {R : Type v}

/-- `undefined` is a path on which nothing can be said of what follows. -/
inductive Routine (Answer : Step → Type v) (R : Type v) where
  | returns (value : R)
  | undefined
  | lock (next : Routine Answer R)
  | unlock (next : Routine Answer R)
  | call (step : Step) (next : Answer step → Routine Answer R)

/-- What the surroundings answer. -/
abbrev Oracle (Answer : Step → Type v) := (step : Step) → Answer step

inductive Ending (R : Type v) where
  | returned (value : R) (held : Bool)
  | blocked
  | undefined

namespace Routine

def run (oracle : Oracle Answer) : Bool → Routine Answer R → Ending R
  | held, .returns value => .returned value held
  | _, .undefined => .undefined
  | held, .lock next => if held then .blocked else run oracle true next
  | _, .unlock next => run oracle false next
  | held, .call step next => run oracle held (next (oracle step))

/-- The routine ends, and keeps the lock under this condition. -/
def Keeps (oracle : Oracle Answer) (held : Bool) (routine : Routine Answer R) (keeps : Prop) :
    Prop :=
  routine.run oracle held = .undefined ∨
    ∃ value held', routine.run oracle held = .returned value held' ∧ (held' = true ↔ keeps)

/-- No path takes a lock that is held, gives back one that is not, or returns with it. -/
def Clean : Bool → Routine Answer R → Prop
  | held, .returns _ => held = false
  | _, .undefined => True
  | held, .lock next => held = false ∧ Clean true next
  | held, .unlock next => held = true ∧ Clean false next
  | held, .call _ next => ∀ answer, Clean held (next answer)

theorem Clean.keeps {oracle : Oracle Answer} {held : Bool} {routine : Routine Answer R}
    (h : routine.Clean held) : routine.Keeps oracle held False := by
  induction routine generalizing held with
  | returns value => exact Or.inr ⟨value, held, rfl, iff_of_false (ne_true_of_eq_false h) id⟩
  | undefined => exact Or.inl rfl
  | lock next ih =>
      have hrun : (Routine.lock next).run oracle held = next.run oracle true := by
        rw [h.1]
        rfl
      rw [Keeps, hrun]
      exact ih h.2
  | unlock next ih => exact ih h.2
  | call step next ih => exact ih (oracle step) (h (oracle step))

section
variable {oracle : Oracle Answer} {keeps : Prop}

theorem keeps_lock {next : Routine Answer R} (h : next.Keeps oracle true keeps) :
    (Routine.lock next).Keeps oracle false keeps := h

theorem keeps_call {held : Bool} {step : Step} {next : Answer step → Routine Answer R}
    (h : (next (oracle step)).Keeps oracle held keeps) :
    (Routine.call step next).Keeps oracle held keeps := h

theorem keeps_returns (value : R) (hkeeps : keeps) :
    (Routine.returns value : Routine Answer R).Keeps oracle true keeps :=
  Or.inr ⟨value, true, rfl, iff_of_true rfl hkeeps⟩

theorem Clean.keeps_of_not {held : Bool} {routine : Routine Answer R} (h : routine.Clean held)
    (hkeeps : ¬ keeps) : routine.Keeps oracle held keeps := by
  rcases @Clean.keeps _ _ _ oracle held routine h with hundefined | ⟨value, held', hrun, hfree⟩
  · exact Or.inl hundefined
  · exact Or.inr ⟨value, held', hrun, hfree.trans (iff_of_false id hkeeps)⟩

end

end Routine

/-! ## Sequences of calls -/

/-- `waiting` says that a caller waits for ever. -/
structure Mutex where
  held : Bool
  waiting : Bool

namespace Mutex

def new : Mutex where
  held := false
  waiting := false

def Free (mutex : Mutex) : Prop := mutex.held = false ∧ mutex.waiting = false

variable {Call : Type u} {Reply : Call → Type v}
  (routine : (call : Call) → Routine Answer (Reply call))

/-- Calls come one after the other, each with the answers it will get. -/
def step (mutex : Mutex) (event : Call × Oracle Answer) : Option Mutex :=
  match (routine event.1).run event.2 mutex.held with
  | .returned _ held => some { mutex with held := held }
  | .blocked => some { mutex with waiting := true }
  | .undefined => none

theorem free_step_iff {keeps : Call → Oracle Answer → Prop} {mutex mutex' : Mutex}
    {event : Call × Oracle Answer}
    (hroutine : ∀ call oracle, (routine call).Keeps oracle false (keeps call oracle))
    (hfree : mutex.Free) (hstep : step routine mutex event = some mutex') :
    mutex'.Free ↔ ¬ keeps event.1 event.2 := by
  rw [step, hfree.1] at hstep
  rcases hroutine event.1 event.2 with hundefined | ⟨value, held, hrun, hkeeps⟩
  · rw [hundefined] at hstep
    exact absurd hstep.symm (Option.some_ne_none mutex')
  · rw [hrun] at hstep
    rw [← Option.some.inj hstep, ← hkeeps, Bool.not_eq_true]
    exact and_iff_left hfree.2

/-- The lock is free and nobody waits for it all along a sequence of calls, exactly when
none of the calls keeps it. -/
theorem alwaysFree_iff {keeps : Call → Oracle Answer → Prop}
    (hroutine : ∀ call oracle, (routine call).Keeps oracle false (keeps call oracle))
    (events : List (Call × Oracle Answer)) :
    Runs.AlwaysPartial (step routine) Free new events ↔
      Runs.EachStepPartial (step routine) (fun _ event => ¬ keeps event.1 event.2) new events :=
  Runs.alwaysPartial_iff_eachStepPartial_of_turn ⟨rfl, rfl⟩
    (fun _ _ _ hfree hstep => free_step_iff routine hroutine hfree hstep) events

end Mutex

end Locking
