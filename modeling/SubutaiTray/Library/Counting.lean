import Mathlib.Data.List.Infix
import Mathlib.Data.Nat.Count

/-!
Places in a filtered list, counted by the elements before that pass the filter, and lists
that leave out as much as a filter.
-/
namespace Counting

theorem length_filter_range (p : Nat → Bool) (size : Nat) :
    ((List.range size).filter p).length = Nat.count (fun m => p m = true) size := by
  induction size with
  | zero => rfl
  | succ size ih =>
      rw [List.range_succ, List.filter_append, List.length_append, ih, Nat.count_succ,
        List.filter_singleton]
      cases p size <;> rfl

/-- A number of a filtered range stands behind those before it that pass. -/
theorem getElem?_filter_range (p : Nat → Bool) (k n size : Nat) :
    ((List.range size).filter p)[k]? = some n ↔
      n < size ∧ p n = true ∧ Nat.count (fun m => p m = true) n = k := by
  induction size with
  | zero => exact iff_of_false (Option.some_ne_none n).symm fun h => Nat.not_lt_zero n h.1
  | succ size ih =>
      have hlength := length_filter_range p size
      rw [List.range_succ, List.filter_append, List.getElem?_append, List.filter_singleton]
      split
      · rename_i hless
        rw [ih, Nat.lt_succ_iff_lt_or_eq]
        constructor
        · intro h
          exact ⟨Or.inl h.1, h.2⟩
        · intro h
          cases h.1 with
          | inl hn => exact ⟨hn, h.2⟩
          | inr hn =>
              rw [hn] at h
              omega
      · rename_i hless
        rw [hlength, Nat.not_lt] at hless
        have hlast : n < size + 1 ∧ p n = true ∧ Nat.count (fun m => p m = true) n = k →
            n = size := by
          intro h
          apply Nat.le_antisymm (Nat.le_of_lt_succ h.1)
          apply Nat.not_lt.mp
          intro hn
          have hmore := Nat.count_strict_mono (p := fun m => p m = true) h.2.1 hn
          omega
        rw [hlength]
        cases hp : p size with
        | false =>
            apply iff_of_false (Option.some_ne_none n).symm
            intro h
            rw [hlast h, hp] at h
            exact Bool.false_ne_true h.2.1
        | true =>
            rw [cond_true, List.getElem?_singleton]
            split
            · rename_i hk
              rw [Option.some.injEq]
              constructor
              · intro heq
                rw [← heq]
                exact ⟨Nat.lt_succ_self size, hp, by omega⟩
              · intro h
                exact (hlast h).symm
            · rename_i hk
              apply iff_of_false (Option.some_ne_none n).symm
              intro h
              rw [hlast h] at h
              omega

universe u
variable {α : Type u} {p : α → Bool}

theorem exists_of_lt_countP {xs : List α} {k : Nat} (h : k < xs.countP p) :
    ∃ before x after, xs = before ++ x :: after ∧ p x = true ∧ before.countP p = k := by
  induction xs generalizing k with
  | nil => exact absurd h (Nat.not_lt_zero k)
  | cons x xs ih =>
      by_cases hp : p x = true
      · rw [List.countP_cons_of_pos hp] at h
        cases k with
        | zero => exact ⟨[], x, xs, rfl, hp, rfl⟩
        | succ k =>
            obtain ⟨before, next, after, hsplit, hnext, hcount⟩ := ih (Nat.lt_of_succ_lt_succ h)
            refine ⟨x :: before, next, after, congrArg (List.cons x) hsplit, hnext, ?_⟩
            rw [List.countP_cons_of_pos hp, hcount]
      · rw [List.countP_cons_of_neg hp] at h
        obtain ⟨before, next, after, hsplit, hnext, hcount⟩ := ih h
        refine ⟨x :: before, next, after, congrArg (List.cons x) hsplit, hnext, ?_⟩
        rw [List.countP_cons_of_neg hp, hcount]

universe v
variable {β : Type v}

theorem length_filterMap_le {f g : α → Option β} (l : List α)
    (h : ∀ a ∈ l, g a = none → f a = none) :
    (l.filterMap f).length ≤ (l.filterMap g).length := by
  induction l with
  | nil => exact Nat.le_refl _
  | cons a l ih =>
      have hrest := ih fun b hb => h b (List.mem_cons_of_mem a hb)
      cases hg : g a with
      | none => simpa [hg, h a List.mem_cons_self hg] using hrest
      | some b => cases hf : f a <;> simp [hg, hf] <;> omega

/-- What leaves out nothing but what the other leaves out, and comes to the same list,
is the same for each element. -/
theorem filterMap_eq_filterMap_iff {f g : α → Option β} (l : List α)
    (h : ∀ a ∈ l, g a = none → f a = none) :
    l.filterMap f = l.filterMap g ↔ ∀ a ∈ l, f a = g a := by
  induction l with
  | nil => simp
  | cons a l ih =>
      have hrest : ∀ b ∈ l, g b = none → f b = none := fun b hb => h b (List.mem_cons_of_mem a hb)
      rw [List.forall_mem_cons, ← ih hrest]
      cases hg : g a with
      | none => simp [hg, h a List.mem_cons_self hg]
      | some b =>
          cases hf : f a with
          | some c => simp [hg, hf]
          | none =>
              have hlength := length_filterMap_le l hrest
              refine iff_of_false ?_ (by simp)
              intro heq
              have := congrArg List.length heq
              simp [hg, hf] at this
              omega

/-- What is left out is only what may be left out, so nothing else is left out. -/
theorem filterMap_eq_map_filter_iff {f : α → Option β} {g : α → β} (l : List α)
    (h : ∀ a ∈ l, p a = false → f a = none) :
    l.filterMap f = (l.filter p).map g ↔ ∀ a ∈ l, p a = true → f a = some (g a) := by
  have hmap : (l.filter p).map g = l.filterMap fun a => if p a then some (g a) else none := by
    induction l with
    | nil => rfl
    | cons a l ih =>
        have hrest := ih fun b hb => h b (List.mem_cons_of_mem a hb)
        cases hp : p a <;> simp [hp, hrest]
  rw [hmap, filterMap_eq_filterMap_iff]
  · refine forall₂_congr ?_
    intro a ha
    cases hp : p a with
    | false => simp [h a ha hp]
    | true => simp
  · intro a ha hnone
    cases hp : p a with
    | false => exact h a ha hp
    | true => simp [hp] at hnone

end Counting
