import Mathlib.Order.PiLex

/-!
Lists compared entry by entry, where a list that ends early goes on with a default.

A list stands for the sequence of its entries, and the sequences are in the lexicographic order.
-/
namespace PaddedOrder

universe u
variable {α : Type u} {rest : α}

def padded (rest : α) (xs : List α) : Lex (Nat → α) :=
  toLex fun n => xs.getD n rest

theorem padded_zero (rest : α) (xs : List α) : padded rest xs 0 = xs.headD rest := by
  cases xs <;> rfl

theorem padded_succ (rest : α) (xs : List α) (n : Nat) :
    padded rest xs (n + 1) = padded rest xs.tail n := by
  cases xs <;> rfl

/-- A default at the end changes nothing. -/
theorem padded_append_rest (xs : List α) : padded rest (xs ++ [rest]) = padded rest xs := by
  funext n
  induction xs generalizing n with
  | nil =>
      cases n with
      | zero => rfl
      | succ n => rfl
  | cons x xs ih =>
      cases n with
      | zero => rfl
      | succ n => exact ih n

variable [LinearOrder α]

/-- The first entries decide, or the others do. -/
theorem padded_lt_iff (xs ys : List α) :
    padded rest xs < padded rest ys ↔
      xs.headD rest < ys.headD rest ∨
        xs.headD rest = ys.headD rest ∧ padded rest xs.tail < padded rest ys.tail := by
  constructor
  · rintro ⟨n, hbefore, hat⟩
    cases n with
    | zero =>
        rw [padded_zero, padded_zero] at hat
        exact Or.inl hat
    | succ n =>
        have hfirst := hbefore 0 (Nat.zero_lt_succ n)
        rw [padded_zero, padded_zero] at hfirst
        refine Or.inr ⟨hfirst, n, ?_, ?_⟩
        · intro m hm
          rw [← padded_succ, ← padded_succ]
          exact hbefore (m + 1) (Nat.succ_lt_succ hm)
        · rw [← padded_succ, ← padded_succ]
          exact hat
  · rintro (hfirst | ⟨hfirst, n, hbefore, hat⟩)
    · refine ⟨0, fun m hm => absurd hm (Nat.not_lt_zero m), ?_⟩
      rw [padded_zero, padded_zero]
      exact hfirst
    · refine ⟨n + 1, ?_, ?_⟩
      · intro m hm
        cases m with
        | zero =>
            rw [padded_zero, padded_zero]
            exact hfirst
        | succ m =>
            rw [padded_succ, padded_succ]
            exact hbefore m (Nat.lt_of_succ_lt_succ hm)
      · rw [padded_succ, padded_succ]
        exact hat

/-- What decides a comparison of the first entries decides the comparison, and equal ones leave it to
the others. -/
structure Compares (result : Int) (xs ys : Lex (Nat → α)) : Prop where
  greater : result = 1 ↔ ys < xs
  less : result = -1 ↔ xs < ys
  equal : result = 0 ↔ xs = ys

theorem Compares.pos_iff {result : Int} {xs ys : Lex (Nat → α)} (h : Compares result xs ys) :
    result > 0 ↔ ys < xs := by
  rcases lt_trichotomy xs ys with hlt | heq | hgt
  · have hresult := h.less.mpr hlt
    exact iff_of_false (by omega) hlt.asymm
  · have hresult := h.equal.mpr heq
    exact iff_of_false (by omega) (not_lt_of_ge heq.le)
  · have hresult := h.greater.mpr hgt
    exact iff_of_true (by omega) hgt

variable {xs ys : List α}

theorem compares_refl (sequence : Lex (Nat → α)) : Compares 0 sequence sequence :=
  ⟨iff_of_false (by decide) (lt_irrefl _), iff_of_false (by decide) (lt_irrefl _), iff_of_true rfl rfl⟩

theorem compares_one (h : ys.headD rest < xs.headD rest) :
    Compares 1 (padded rest xs) (padded rest ys) := by
  have hlt := (padded_lt_iff ys xs).mpr (Or.inl h)
  exact ⟨iff_of_true rfl hlt, iff_of_false (by decide) hlt.asymm, iff_of_false (by decide) hlt.ne'⟩

theorem compares_neg_one (h : xs.headD rest < ys.headD rest) :
    Compares (-1) (padded rest xs) (padded rest ys) := by
  have hlt := (padded_lt_iff xs ys).mpr (Or.inl h)
  exact ⟨iff_of_false (by decide) hlt.asymm, iff_of_true rfl hlt, iff_of_false (by decide) hlt.ne⟩

theorem compares_of_tail {result : Int} (hhead : xs.headD rest = ys.headD rest)
    (h : Compares result (padded rest xs.tail) (padded rest ys.tail)) :
    Compares result (padded rest xs) (padded rest ys) := by
  have hlt : padded rest xs < padded rest ys ↔ padded rest xs.tail < padded rest ys.tail := by
    rw [padded_lt_iff, hhead, or_iff_right (lt_irrefl _), and_iff_right rfl]
  have hgt : padded rest ys < padded rest xs ↔ padded rest ys.tail < padded rest xs.tail := by
    rw [padded_lt_iff, hhead, or_iff_right (lt_irrefl _), and_iff_right rfl]
  have heq : padded rest xs = padded rest ys ↔ padded rest xs.tail = padded rest ys.tail := by
    constructor
    · intro heq
      funext n
      rw [← padded_succ, ← padded_succ, heq]
    · intro heq
      funext n
      cases n with
      | zero => rw [padded_zero, padded_zero, hhead]
      | succ n => rw [padded_succ, padded_succ, heq]
  exact ⟨h.greater.trans hgt.symm, h.less.trans hlt.symm, h.equal.trans heq.symm⟩

end PaddedOrder
