import Mathlib.Data.List.Nodup
import Mathlib.Data.List.Perm.Basic

/-!
Erasing the positions of a list one after the other.

A position is looked up in what the erasures before it have left. The elements that stood at the
positions at first are the ones that go exactly when the positions descend: an erasure moves
what stands behind it to the front, so a later position that is not smaller hits an element too
far behind, and nothing makes up for that.
-/
namespace Erasure

universe u v
variable {α : Type u} {β : Type v}

/-- Behind the end nothing can be erased. -/
def eraseAt (xs : List α) (i : Nat) : Option (List α) :=
  if i < xs.length then some (xs.eraseIdx i) else none

def eraseAll (xs : List α) (rows : List Nat) : Option (List α) := rows.foldlM eraseAt xs

/-- The elements of a list that begins at position `k`, without those at the given positions. -/
def keepFrom (k : Nat) (rows : List Nat) (xs : List α) : List α :=
  ((xs.zipIdx k).filter fun x => x.2 ∉ rows).map Prod.fst

def keep (rows : List Nat) (xs : List α) : List α := keepFrom 0 rows xs

theorem keepFrom_append (k : Nat) (rows : List Nat) (xs ys : List α) :
    keepFrom k rows (xs ++ ys) = keepFrom k rows xs ++ keepFrom (k + xs.length) rows ys := by
  rw [keepFrom, List.zipIdx_append, List.filter_append, List.map_append]
  rfl

theorem keepFrom_cons (k : Nat) (rows : List Nat) (x : α) (xs : List α) :
    keepFrom k rows (x :: xs) = if k ∈ rows then keepFrom (k + 1) rows xs
      else x :: keepFrom (k + 1) rows xs := by
  rw [keepFrom, List.zipIdx_cons, List.filter_cons]
  by_cases h : k ∈ rows
  · simp [h, keepFrom]
  · simp [h, keepFrom]

/-- Whether a position is kept is asked in the range of the list only. -/
theorem keepFrom_congr {k : Nat} {rows rows' : List Nat} {xs : List α}
    (h : ∀ i, k ≤ i → i < k + xs.length → (i ∈ rows ↔ i ∈ rows')) :
    keepFrom k rows xs = keepFrom k rows' xs := by
  induction xs generalizing k with
  | nil => rfl
  | cons x xs ih =>
      rw [List.length_cons] at h
      have hrest := @ih (k + 1) fun i hle hlt => h i (by omega) (by omega)
      rw [keepFrom_cons, keepFrom_cons, hrest, if_congr (h k (Nat.le_refl k) (by omega)) rfl rfl]

theorem keepFrom_nil (k : Nat) (xs : List α) : keepFrom k [] xs = xs := by
  induction xs generalizing k with
  | nil => rfl
  | cons x xs ih => rw [keepFrom_cons, if_neg List.not_mem_nil, ih]

theorem keepFrom_map (f : α → β) (k : Nat) (rows : List Nat) (xs : List α) :
    keepFrom k rows (xs.map f) = (keepFrom k rows xs).map f := by
  induction xs generalizing k with
  | nil => rfl
  | cons x xs ih =>
      rw [List.map_cons, keepFrom_cons, keepFrom_cons, ih]
      split
      · rfl
      · rfl

theorem keepFrom_range' (k n : Nat) (rows : List Nat) :
    keepFrom k rows (List.range' k n) = (List.range' k n).filter fun i => i ∉ rows := by
  induction n generalizing k with
  | zero => rfl
  | succ n ih =>
      rw [List.range'_succ, keepFrom_cons, ih, List.filter_cons]
      by_cases h : k ∈ rows
      · simp [h]
      · simp [h]

theorem eraseAll_map (f : α → β) (rows : List Nat) (xs : List α) :
    eraseAll (xs.map f) rows = (eraseAll xs rows).map (List.map f) := by
  induction rows generalizing xs with
  | nil => rfl
  | cons row rows ih =>
      rw [eraseAll, eraseAll, List.foldlM_cons, List.foldlM_cons, eraseAt, eraseAt, List.length_map]
      split
      · rw [List.eraseIdx_map]
        exact ih _
      · rfl

/-! ## Descending positions -/

theorem keep_eraseIdx {row : Nat} {rows : List Nat} {xs : List α} (hrow : row < xs.length)
    (hless : ∀ other ∈ rows, other < row) : keep rows (xs.eraseIdx row) = keep (row :: rows) xs := by
  have hlength : (xs.take row).length = row := List.length_take_of_le (Nat.le_of_lt hrow)
  have hsplit : xs = xs.take row ++ xs[row] :: xs.drop (row + 1) := by
    rw [List.getElem_cons_drop, List.take_append_drop]
  have hbehind (k : Nat) (hk : row ≤ k) (ys : List α) : keepFrom k rows ys = ys := by
    refine (keepFrom_congr fun i hle _ => ?_).trans (keepFrom_nil k ys)
    refine iff_of_false (fun hmem => ?_) List.not_mem_nil
    have := hless i hmem
    omega
  have hbefore : keepFrom 0 (row :: rows) (xs.take row) = keepFrom 0 rows (xs.take row) := by
    refine keepFrom_congr fun i _ hlt => ?_
    rw [hlength, Nat.zero_add] at hlt
    rw [List.mem_cons, or_iff_right (Nat.ne_of_lt hlt)]
  have hlast : keepFrom (row + 1) (row :: rows) (xs.drop (row + 1)) = xs.drop (row + 1) := by
    refine (keepFrom_congr fun i hle _ => ?_).trans (hbehind (row + 1) (Nat.le_succ row) _)
    rw [List.mem_cons, or_iff_right (by omega)]
  nth_rewrite 2 [hsplit]
  rw [keep, keep, List.eraseIdx_eq_take_drop_succ, keepFrom_append, keepFrom_append, keepFrom_cons,
    hlength, Nat.zero_add, if_pos List.mem_cons_self, hbefore, hlast, hbehind row (Nat.le_refl row)]

theorem eraseAll_of_descending {rows : List Nat} (hdesc : rows.Pairwise (· > ·)) {xs : List α}
    (hlt : ∀ row ∈ rows, row < xs.length) : eraseAll xs rows = some (keep rows xs) := by
  induction rows generalizing xs with
  | nil => exact congrArg some (keepFrom_nil 0 xs).symm
  | cons row rows ih =>
      rw [List.pairwise_cons] at hdesc
      rw [List.forall_mem_cons] at hlt
      have hlength := List.length_eraseIdx_of_lt hlt.1
      have hrest : eraseAll (xs.eraseIdx row) rows = some (keep rows (xs.eraseIdx row)) := by
        refine ih hdesc.2 fun other hmem => ?_
        have := hdesc.1 other hmem
        omega
      rw [eraseAll, List.foldlM_cons, eraseAt, if_pos hlt.1]
      exact hrest.trans (congrArg some (keep_eraseIdx hlt.1 hdesc.1))

/-! ## Positions that do not descend -/

def total (xs : List Nat) : Nat := xs.foldr (· + ·) 0

theorem total_cons (x : Nat) (xs : List Nat) : total (x :: xs) = x + total xs := rfl

theorem total_perm {xs ys : List Nat} (h : xs.Perm ys) : total xs = total ys :=
  h.foldr_eq' (fun x _ y _ z => Nat.add_left_comm y x z) 0

theorem total_eraseIdx {xs : List Nat} {i : Nat} (h : i < xs.length) :
    xs[i] + total (xs.eraseIdx i) = total xs := total_perm (List.getElem_cons_eraseIdx_perm h)

theorem total_filter (p : Nat → Bool) (xs : List Nat) :
    total (xs.filter p) + total (xs.filter fun x => !p x) = total xs := by
  induction xs with
  | nil => rfl
  | cons x xs ih =>
      rw [List.filter_cons, List.filter_cons, total_cons, ← ih]
      cases p x with
      | true =>
          simp only [if_true, Bool.not_true, Bool.false_eq_true, if_false, total_cons]
          omega
      | false =>
          simp only [if_true, Bool.not_false, Bool.false_eq_true, if_false, total_cons]
          omega

/-- In an ascending list an element is at least as large as its position, by as much as the
elements before it leave out. -/
theorem getElem_add_le {xs : List Nat} (h : xs.Pairwise (· < ·)) {i j : Nat} (hij : i ≤ j)
    (hj : j < xs.length) : xs[i] + (j - i) ≤ xs[j] := by
  induction j with
  | zero => simp [Nat.le_zero.mp hij]
  | succ j ih =>
      rcases Nat.eq_or_lt_of_le hij with rfl | hlt
      · simp
      · have hbefore := ih (Nat.le_of_lt_succ hlt) (by omega)
        have hstep := List.pairwise_iff_getElem.mp h j (j + 1) (by omega) hj (Nat.lt_succ_self j)
        omega

theorem le_getElem {xs : List Nat} (h : xs.Pairwise (· < ·)) {j : Nat} (hj : j < xs.length) : j ≤ xs[j] := by
  have := getElem_add_le h (Nat.zero_le j) hj
  omega

/-- An element that is its own position has all smaller numbers before it. -/
theorem mem_of_getElem_eq {xs : List Nat} (h : xs.Pairwise (· < ·)) {j : Nat} (hj : j < xs.length)
    (heq : xs[j] = j) {i : Nat} (hij : i ≤ j) : i ∈ xs := by
  have hle := getElem_add_le h hij hj
  have hge := le_getElem h (Nat.lt_of_le_of_lt hij hj)
  have hi : xs[i] = i := by omega
  exact hi ▸ List.getElem_mem _

/-- What is erased adds up to no less than the positions, and to no more only if they descend. -/
theorem total_eraseAll {xs ys : List Nat} (h : xs.Pairwise (· < ·)) {rows : List Nat}
    (hall : eraseAll xs rows = some ys) :
    total ys + total rows ≤ total xs ∧
      (total ys + total rows = total xs →
        rows.Pairwise (· > ·) ∧ ∀ row ∈ rows, ∀ i ≤ row, i ∈ xs) := by
  induction rows generalizing xs with
  | nil =>
      rw [eraseAll, List.foldlM_nil] at hall
      cases hall
      exact ⟨Nat.le_refl _, fun _ => ⟨List.Pairwise.nil, fun row hmem => absurd hmem List.not_mem_nil⟩⟩
  | cons row rows ih =>
      rw [eraseAll, List.foldlM_cons, eraseAt] at hall
      split at hall
      · rename_i hrow
        obtain ⟨hle, hdesc⟩ := ih (h.sublist (List.eraseIdx_sublist xs row)) hall
        have htotal := total_eraseIdx hrow
        have hge := le_getElem h hrow
        rw [total_cons]
        refine ⟨by omega, fun heq => ?_⟩
        obtain ⟨hpairwise, hmem⟩ := hdesc (by omega)
        have hself : xs[row] = row := by omega
        -- the row that has gone bounds the later ones
        have hgone : row ∉ xs.eraseIdx row := by
          intro hin
          obtain ⟨i, hi, hne, hget⟩ := List.mem_eraseIdx_iff_getElem.mp hin
          have hnodup : xs.Nodup := h.imp fun hlt => Nat.ne_of_lt hlt
          exact hne ((hnodup.getElem_inj_iff).mp (hget.trans hself.symm))
        refine ⟨List.pairwise_cons.mpr ⟨fun other hother => ?_, hpairwise⟩, ?_⟩
        · apply Nat.lt_of_not_le
          exact fun hle => hgone (hmem other hother row hle)
        · rw [List.forall_mem_cons]
          refine ⟨fun i hi => mem_of_getElem_eq h hrow hself hi, fun other hother i hi => ?_⟩
          exact (List.eraseIdx_sublist xs row).mem (hmem other hother i hi)
      · exact absurd hall.symm (Option.some_ne_none ys)

theorem eraseAll_range_eq_iff {n : Nat} {rows : List Nat} (hnodup : rows.Nodup)
    (hlt : ∀ row ∈ rows, row < n) :
    eraseAll (List.range n) rows = some (keep rows (List.range n)) ↔ rows.Pairwise (· > ·) := by
  constructor
  · intro hall
    refine ((total_eraseAll List.pairwise_lt_range hall).2 ?_).1
    have hrows : ((List.range n).filter fun i => i ∈ rows).Perm rows := by
      rw [List.perm_ext_iff_of_nodup (List.nodup_range.filter _) hnodup]
      intro i
      rw [List.mem_filter, List.mem_range, decide_eq_true_eq]
      exact and_iff_right_of_imp (hlt i)
    have hkeep : keep rows (List.range n) = (List.range n).filter fun i => !decide (i ∈ rows) := by
      rw [keep, List.range_eq_range', keepFrom_range']
      simp only [decide_not]
    rw [hkeep, ← total_filter (fun i => decide (i ∈ rows)) (List.range n), total_perm hrows]
    omega
  · intro hdesc
    exact eraseAll_of_descending hdesc (by simpa using hlt)

/-- Of a list without repetitions the elements at the positions are erased if and only if the
positions descend. -/
theorem eraseAll_eq_iff {xs : List α} (hxs : xs.Nodup) {rows : List Nat} (hnodup : rows.Nodup)
    (hlt : ∀ row ∈ rows, row < xs.length) :
    eraseAll xs rows = some (keep rows xs) ↔ rows.Pairwise (· > ·) := by
  classical
  constructor
  · intro hall
    have hidx : xs.map xs.idxOf = List.range xs.length := by
      apply List.ext_getElem
      · simp
      · intro i hi _
        rw [List.getElem_map, List.getElem_range, hxs.idxOf_getElem]
    rw [← eraseAll_range_eq_iff hnodup hlt, ← hidx, eraseAll_map, hall]
    exact congrArg some (keepFrom_map _ 0 rows xs).symm
  · exact fun hdesc => eraseAll_of_descending hdesc hlt

end Erasure
