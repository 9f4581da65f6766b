import Mathlib.Data.List.Induction
import Mathlib.Data.List.Infix

/-!
Runs of a deterministic machine.

A run is a list of inputs folded over the state. Two rules: an invariant that
every step keeps holds at the end of every run; and when a property, held before
a step, is kept by exactly the good steps, then it holds all along a run if and
only if all steps of the run are good.
-/
namespace Runs

universe u v
variable {σ : Type u} {α : Type v} {step : σ → α → σ} {s : σ}

/-- What every step keeps, every run keeps. -/
theorem invariant {Inv : σ → Prop} (start : Inv s)
    (keep : ∀ s a, Inv s → Inv (step s a)) (inputs : List α) :
    Inv (inputs.foldl step s) := by
  induction inputs generalizing s with
  | nil => exact start
  | cons a inputs ih => exact ih (keep s a start)

/-- The same for a machine that refuses some inputs. -/
theorem invariant_of_foldlM {step : σ → α → Option σ} {Inv : σ → Prop} (start : Inv s)
    (keep : ∀ s a s', Inv s → step s a = some s' → Inv s') {inputs : List α} {t : σ}
    (run : inputs.foldlM step s = some t) : Inv t := by
  induction inputs generalizing s with
  | nil =>
      rw [← Option.some.inj run]
      exact start
  | cons a inputs ih =>
      rw [List.foldlM_cons] at run
      obtain ⟨s', hstep, hrest⟩ := Option.bind_eq_some_iff.mp run
      exact ih (keep s a s' start hstep) hrest

def Always (step : σ → α → σ) (P : σ → Prop) (s : σ) (inputs : List α) : Prop :=
  ∀ past, past <+: inputs → P (past.foldl step s)

/-- Every step of the run is `Good` in the state it is taken from. -/
def EachStep (step : σ → α → σ) (Good : σ → α → Prop) (s : σ) (inputs : List α) : Prop :=
  ∀ past a, past ++ [a] <+: inputs → Good (past.foldl step s) a

theorem always_iff_eachStep {Inv P : σ → Prop} {Good : σ → α → Prop}
    (start : Inv s) (keep : ∀ s a, Inv s → Inv (step s a)) (initial : P s)
    (turn : ∀ s a, Inv s → P s → (P (step s a) ↔ Good s a)) (inputs : List α) :
    Always step P s inputs ↔ EachStep step Good s inputs := by
  have next (past : List α) (a : α) (h : P (past.foldl step s)) :
      P ((past ++ [a]).foldl step s) ↔ Good (past.foldl step s) a := by
    rw [List.foldl_append]
    exact turn _ a (invariant start keep past) h
  constructor
  · intro always past a hpast
    have before : P (past.foldl step s) := always past ((List.prefix_append _ _).trans hpast)
    exact (next past a before).mp (always _ hpast)
  · intro good past hpast
    induction past using List.reverseRecOn with
    | nil => exact initial
    | append_singleton past a ih =>
        have before : P (past.foldl step s) := ih ((List.prefix_append _ _).trans hpast)
        exact (next past a before).mpr (good past a hpast)

theorem always_iff_eachStep_of_turn {P : σ → Prop} {Good : σ → α → Prop} (initial : P s)
    (turn : ∀ s a, P s → (P (step s a) ↔ Good s a)) (inputs : List α) :
    Always step P s inputs ↔ EachStep step Good s inputs := by
  refine @always_iff_eachStep σ α step s (fun _ => True) P Good trivial ?_ initial ?_ inputs
  · intro _ _ _
    trivial
  · intro s a _ h
    exact turn s a h

/-! ## Machines that refuse some inputs -/

section
variable {step : σ → α → Option σ}

/-- The property holds in every state of the run, up to the first refused input. -/
def AlwaysPartial (step : σ → α → Option σ) (P : σ → Prop) (s : σ) (inputs : List α) : Prop :=
  ∀ past t, past <+: inputs → past.foldlM step s = some t → P t

def EachStepPartial (step : σ → α → Option σ) (Good : σ → α → Prop) (s : σ) (inputs : List α) :
    Prop :=
  ∀ past a t, past ++ [a] <+: inputs → past.foldlM step s = some t → (step t a).isSome → Good t a

theorem foldlM_concat (s : σ) (past : List α) (a : α) :
    (past ++ [a]).foldlM step s = (past.foldlM step s).bind fun t => step t a := by
  rw [List.foldlM_append]
  apply Option.bind_congr
  intro t _
  rw [List.foldlM_cons]
  exact bind_pure (step t a)

/-- What every good step keeps holds all along a run of good steps. -/
theorem alwaysPartial_of_eachStepPartial {Inv : σ → Prop} {Good : σ → α → Prop} (start : Inv s)
    (keep : ∀ s a s', Inv s → Good s a → step s a = some s' → Inv s') {inputs : List α}
    (good : EachStepPartial step Good s inputs) : AlwaysPartial step Inv s inputs := by
  intro past
  induction past using List.reverseRecOn with
  | nil =>
      intro t _ hrun
      rw [← Option.some.inj hrun]
      exact start
  | append_singleton past a ih =>
      intro t hpast hrun
      rw [foldlM_concat] at hrun
      obtain ⟨t₀, hrun₀, hstep⟩ := Option.bind_eq_some_iff.mp hrun
      refine keep t₀ a t (ih t₀ ((List.prefix_append _ _).trans hpast) hrun₀) ?_ hstep
      exact good past a t₀ hpast hrun₀ (Option.isSome_iff_exists.mpr ⟨t, hstep⟩)

theorem alwaysPartial_iff_eachStepPartial {Inv P : σ → Prop} {Good : σ → α → Prop}
    (start : Inv s) (keep : ∀ s a s', Inv s → step s a = some s' → Inv s') (initial : P s)
    (turn : ∀ s a s', Inv s → P s → step s a = some s' → (P s' ↔ Good s a)) (inputs : List α) :
    AlwaysPartial step P s inputs ↔ EachStepPartial step Good s inputs := by
  constructor
  · intro always past a t hpast hrun hstep
    obtain ⟨t', ht'⟩ := Option.isSome_iff_exists.mp hstep
    have before : P t := always past t ((List.prefix_append _ _).trans hpast) hrun
    apply (turn t a t' (invariant_of_foldlM start keep hrun) before ht').mp
    apply always _ t' hpast
    rw [foldlM_concat, hrun]
    exact ht'
  · intro good past
    induction past using List.reverseRecOn with
    | nil =>
        intro t _ hrun
        rw [← Option.some.inj hrun]
        exact initial
    | append_singleton past a ih =>
        intro t hpast hrun
        rw [foldlM_concat] at hrun
        obtain ⟨t₀, hrun₀, hstep⟩ := Option.bind_eq_some_iff.mp hrun
        have before : P t₀ := ih t₀ ((List.prefix_append _ _).trans hpast) hrun₀
        apply (turn t₀ a t (invariant_of_foldlM start keep hrun₀) before hstep).mpr
        exact good past a t₀ hpast hrun₀ (Option.isSome_iff_exists.mpr ⟨t, hstep⟩)

theorem alwaysPartial_iff_eachStepPartial_of_turn {P : σ → Prop} {Good : σ → α → Prop}
    (initial : P s) (turn : ∀ s a s', P s → step s a = some s' → (P s' ↔ Good s a))
    (inputs : List α) : AlwaysPartial step P s inputs ↔ EachStepPartial step Good s inputs := by
  refine @alwaysPartial_iff_eachStepPartial σ α s step (fun _ => True) P Good trivial ?_ initial ?_
    inputs
  · intro _ _ _ _ _
    trivial
  · intro s a s' _ h hstep
    exact turn s a s' h hstep

/-- When the property may fail at the start already. -/
theorem alwaysPartial_iff_and_eachStepPartial {P : σ → Prop} {Good : σ → α → Prop}
    (turn : ∀ s a s', P s → step s a = some s' → (P s' ↔ Good s a)) (inputs : List α) :
    AlwaysPartial step P s inputs ↔ P s ∧ EachStepPartial step Good s inputs := by
  constructor
  · intro always
    have initial : P s := always [] s (List.nil_prefix) rfl
    exact ⟨initial, (alwaysPartial_iff_eachStepPartial_of_turn initial turn inputs).mp always⟩
  · rintro ⟨initial, good⟩
    exact (alwaysPartial_iff_eachStepPartial_of_turn initial turn inputs).mpr good

/-- Where the property holds no input is refused: it holds all along when every run gets to the end. -/
theorem alwaysPartial_iff_exists {P : σ → Prop} (initial : P s)
    (accepts : ∀ s a, P s → (step s a).isSome = true) (inputs : List α) :
    AlwaysPartial step P s inputs ↔ ∀ past, past <+: inputs → ∃ t, past.foldlM step s = some t ∧ P t := by
  constructor
  · intro always past
    induction past using List.reverseRecOn with
    | nil => exact fun _ => ⟨s, rfl, initial⟩
    | append_singleton past a ih =>
        intro hpast
        obtain ⟨t, hrun, ht⟩ := ih ((List.prefix_append _ _).trans hpast)
        obtain ⟨t', hstep⟩ := Option.isSome_iff_exists.mp (accepts t a ht)
        have hrun' : (past ++ [a]).foldlM step s = some t' := by
          rw [foldlM_concat, hrun]
          exact hstep
        exact ⟨t', hrun', always _ t' hpast hrun'⟩
  · intro h past t hpast hrun
    obtain ⟨t', hrun', ht'⟩ := h past hpast
    rw [Option.some.inj (hrun.symm.trans hrun')]
    exact ht'

/-- What relates each state of the run to the inputs that have led to it. -/
def AlwaysSince (step : σ → α → Option σ) (P : List α → σ → Prop) (s : σ) (inputs : List α) : Prop :=
  ∀ past t, past <+: inputs → past.foldlM step s = some t → P past t

theorem alwaysSince_of_concat {P : List α → σ → Prop} (start : P [] s)
    (keep : ∀ past t a t', P past t → step t a = some t' → P (past ++ [a]) t') (inputs : List α) :
    AlwaysSince step P s inputs := by
  intro past
  induction past using List.reverseRecOn with
  | nil =>
      intro t _ hrun
      rw [← Option.some.inj hrun]
      exact start
  | append_singleton past a ih =>
      intro t hpast hrun
      rw [foldlM_concat] at hrun
      obtain ⟨t₀, hrun₀, hstep⟩ := Option.bind_eq_some_iff.mp hrun
      exact keep past t₀ a t (ih t₀ ((List.prefix_append _ _).trans hpast) hrun₀) hstep

theorem AlwaysSince.imp {P Q : List α → σ → Prop} {inputs : List α} (h : AlwaysSince step P s inputs)
    (imp : ∀ past t, P past t → Q past t) : AlwaysSince step Q s inputs :=
  fun past t hpast hrun => imp past t (h past t hpast hrun)

/-- A property of the states and one of the steps, of which only good steps keep both. The
invariant is needed for good steps only. -/
theorem alwaysPartial_and_eachStepPartial_iff {Inv P : σ → Prop} {Right Good : σ → α → Prop}
    (start : Inv s) (initial : P s)
    (turn : ∀ s a s', Inv s → P s → step s a = some s' → (P s' ∧ Right s a ↔ Good s a))
    (keep : ∀ s a s', Inv s → P s → Good s a → step s a = some s' → Inv s') (inputs : List α) :
    AlwaysPartial step P s inputs ∧ EachStepPartial step Right s inputs ↔
      EachStepPartial step Good s inputs := by
  constructor
  · rintro ⟨always, right⟩
    have reached {past : List α} {a : α} {t t' : σ} (hpast : past ++ [a] <+: inputs)
        (hrun : past.foldlM step s = some t) (hstep : step t a = some t') : P t' := by
      apply always _ t' hpast
      rw [foldlM_concat, hrun]
      exact hstep
    have held : AlwaysPartial step (fun t => Inv t ∧ P t) s inputs := by
      refine @alwaysPartial_of_eachStepPartial σ α s step (fun t => Inv t ∧ P t)
        (fun s a => Right s a ∧ ∀ s', step s a = some s' → P s') ⟨start, initial⟩ ?_ inputs ?_
      · intro s a s' hinv hgood hstep
        have hP : P s' := hgood.2 s' hstep
        have hturn : Good s a := (turn s a s' hinv.1 hinv.2 hstep).mp ⟨hP, hgood.1⟩
        exact ⟨keep s a s' hinv.1 hinv.2 hturn hstep, hP⟩
      · intro past a t hpast hrun hstep
        exact ⟨right past a t hpast hrun hstep, fun t' => reached hpast hrun⟩
    intro past a t hpast hrun hstep
    obtain ⟨t', ht'⟩ := Option.isSome_iff_exists.mp hstep
    obtain ⟨hinv, hP⟩ := held past t ((List.prefix_append _ _).trans hpast) hrun
    exact (turn t a t' hinv hP ht').mp
      ⟨reached hpast hrun ht', right past a t hpast hrun hstep⟩
  · intro good
    have held : AlwaysPartial step (fun t => Inv t ∧ P t) s inputs := by
      refine alwaysPartial_of_eachStepPartial ⟨start, initial⟩ ?_ good
      intro s a s' hinv hgood hstep
      exact ⟨keep s a s' hinv.1 hinv.2 hgood hstep,
        ((turn s a s' hinv.1 hinv.2 hstep).mpr hgood).1⟩
    refine ⟨fun past t hpast hrun => (held past t hpast hrun).2, ?_⟩
    intro past a t hpast hrun hstep
    obtain ⟨t', ht'⟩ := Option.isSome_iff_exists.mp hstep
    obtain ⟨hinv, hP⟩ := held past t ((List.prefix_append _ _).trans hpast) hrun
    exact ((turn t a t' hinv hP ht').mpr (good past a t hpast hrun hstep)).2

/-- The same for the property alone. The invariant is kept where the property is. -/
theorem alwaysPartial_iff_eachStepPartial_of_kept {Inv P : σ → Prop} {Good : σ → α → Prop}
    (start : Inv s) (initial : P s)
    (turn : ∀ s a s', Inv s → step s a = some s' → (P s' ↔ Good s a))
    (keep : ∀ s a s', Inv s → step s a = some s' → P s' → Inv s') (inputs : List α) :
    AlwaysPartial step P s inputs ↔ EachStepPartial step Good s inputs := by
  have free : EachStepPartial step (fun _ _ => True) s inputs := fun _ _ _ _ _ _ => trivial
  rw [← and_iff_left (a := AlwaysPartial step P s inputs) free]
  apply alwaysPartial_and_eachStepPartial_iff start initial
  · intro s a s' hinv _ hstep
    rw [and_iff_left trivial]
    exact turn s a s' hinv hstep
  · intro s a s' hinv _ hgood hstep
    exact keep s a s' hinv hstep ((turn s a s' hinv hstep).mpr hgood)

/-- Two properties of the steps that the invariant makes one. -/
theorem eachStepPartial_congr {Inv : σ → Prop} {Right Good : σ → α → Prop} (start : Inv s)
    (keep : ∀ s a s', Inv s → step s a = some s' → Inv s')
    (turn : ∀ s a, Inv s → (step s a).isSome → (Right s a ↔ Good s a)) (inputs : List α) :
    EachStepPartial step Right s inputs ↔ EachStepPartial step Good s inputs := by
  apply forall₃_congr
  intro past a t
  apply forall₃_congr
  intro _ hrun hstep
  exact turn t a (invariant_of_foldlM start keep hrun) hstep

/-- A loop each of whose turns is a step of the machine, as `view` shows it. -/
theorem foldlM_map_of_view {τ β : Type*} {f : τ → β → τ} {view : τ → σ} {event : β → α}
    (turn : ∀ t b, step (view t) (event b) = some (view (f t b))) (bs : List β) (t : τ) :
    (bs.map event).foldlM step (view t) = some (view (bs.foldl f t)) := by
  induction bs generalizing t with
  | nil => rfl
  | cons b bs ih =>
      rw [List.map_cons, List.foldlM_cons, turn]
      exact ih (f t b)

/-! ## Loops over a list -/

/-- No turn of the loop is refused, and each is `Right` in the state in which it is begun. -/
def EachTurn (step : σ → α → Option σ) (Right : σ → α → Prop) (s : σ) (inputs : List α) : Prop :=
  (inputs.foldlM step s).isSome = true ∧
    ∀ past a t, past ++ [a] <+: inputs → past.foldlM step s = some t → Right t a

theorem getElem?_past {past inputs : List α} {a : α} (hpast : past ++ [a] <+: inputs) :
    inputs[past.length]? = some a := by
  obtain ⟨rest, rfl⟩ := hpast
  rw [List.append_assoc, List.getElem?_append_right (Nat.le_refl _), Nat.sub_self]
  rfl

/-- Right turns that keep the invariant of the position reach the end. -/
theorem exists_foldlM_of_right {Inv : Nat → σ → Prop} {Right : σ → α → Prop} {inputs : List α}
    (start : Inv 0 s)
    (keep : ∀ i a t, inputs[i]? = some a → Inv i t → Right t a → ∃ t', step t a = some t' ∧ Inv (i + 1) t')
    (right : ∀ past a t, past ++ [a] <+: inputs → past.foldlM step s = some t → Inv past.length t →
      Right t a) {past : List α} (hpast : past <+: inputs) :
    ∃ t, past.foldlM step s = some t ∧ Inv past.length t := by
  induction past using List.reverseRecOn with
  | nil => exact ⟨s, rfl, start⟩
  | append_singleton past a ih =>
      obtain ⟨t, hrun, hinv⟩ := ih ((List.prefix_append _ _).trans hpast)
      obtain ⟨t', hstep, hinv'⟩ :=
        keep past.length a t (getElem?_past hpast) hinv (right past a t hpast hrun hinv)
      refine ⟨t', ?_, ?_⟩
      · rw [foldlM_concat, hrun]
        exact hstep
      · rw [List.length_append]
        exact hinv'

/-- When the invariant tells at each position which turns are right, and right turns keep it, all
turns are right if and only if each is at its position. -/
theorem eachTurn_iff {Inv : Nat → σ → Prop} {Right : σ → α → Prop} {Good : Nat → α → Prop}
    {inputs : List α} (start : Inv 0 s)
    (turn : ∀ i a t, inputs[i]? = some a → Inv i t → (Right t a ↔ Good i a))
    (keep : ∀ i a t, inputs[i]? = some a → Inv i t → Right t a → ∃ t', step t a = some t' ∧ Inv (i + 1) t') :
    EachTurn step Right s inputs ↔ ∀ i a, inputs[i]? = some a → Good i a := by
  constructor
  · rintro ⟨-, right⟩ i a hget
    obtain ⟨hi, rfl⟩ := List.getElem?_eq_some_iff.mp hget
    have hpast : inputs.take i ++ [inputs[i]] <+: inputs := by
      rw [← List.take_succ_eq_append_getElem hi]
      exact List.take_prefix _ _
    obtain ⟨t, hrun, hinv⟩ := exists_foldlM_of_right start keep
      (fun past a t hpast hrun _ => right past a t hpast hrun) (List.take_prefix i inputs)
    rw [List.length_take_of_le (Nat.le_of_lt hi)] at hinv
    exact (turn i _ t hget hinv).mp (right _ _ t hpast hrun)
  · intro good
    have right (past : List α) (a : α) (t : σ) (hpast : past ++ [a] <+: inputs)
        (hinv : Inv past.length t) : Right t a :=
      (turn past.length a t (getElem?_past hpast) hinv).mpr (good _ a (getElem?_past hpast))
    have reached {past : List α} (hpast : past <+: inputs) :=
      exists_foldlM_of_right start keep (fun past a t hpast _ hinv => right past a t hpast hinv) hpast
    refine ⟨?_, ?_⟩
    · obtain ⟨t, hrun, -⟩ := reached (List.prefix_refl inputs)
      rw [hrun]
      rfl
    · intro past a t hpast hrun
      obtain ⟨t', hrun', hinv⟩ := reached ((List.prefix_append _ _).trans hpast)
      rw [hrun, Option.some.injEq] at hrun'
      subst hrun'
      exact right past a t hpast hinv

end

end Runs
