import Mathlib.Order.Bounds.Basic
import Mathlib.Data.List.Sort
import Mathlib.Tactic.Common

/-!
The least number above the first of a sorted list that is not in the list.
-/
namespace LeastGap

def gapAfter : Int → List Int → Int
  | p, [] => p + 1
  | p, q :: rest => if p + 1 < q then p + 1 else gapAfter q rest

theorem isLeast_gapAfter {p : Int} {l : List Int} (sorted : (p :: l).Pairwise (· ≤ ·)) :
    IsLeast {k | p < k ∧ k ∉ l} (gapAfter p l) := by
  induction l generalizing p with
  | nil =>
      constructor
      · exact ⟨Int.lt_succ p, List.not_mem_nil⟩
      · exact fun k hk => hk.1
  | cons q rest ih =>
      obtain ⟨hfirst, hrest⟩ := List.pairwise_cons.mp sorted
      have hnext : p ≤ q := hfirst q List.mem_cons_self
      have hafter : ∀ k ∈ rest, q ≤ k := (List.pairwise_cons.mp hrest).1
      rw [gapAfter]
      split
      · rename_i hgap
        refine ⟨⟨Int.lt_succ p, ?_⟩, fun k hk => hk.1⟩
        intro hmem
        cases List.mem_cons.mp hmem with
        | inl heq => omega
        | inr hlater =>
            have := hafter _ hlater
            omega
      · -- Nothing lies between the two, so the gap after the second is the gap after the first.
        rename_i hno
        obtain ⟨⟨hless, hfree⟩, hleast⟩ := ih hrest
        constructor
        · refine ⟨Int.lt_of_le_of_lt hnext hless, ?_⟩
          intro hmem
          cases List.mem_cons.mp hmem with
          | inl heq => omega
          | inr hlater => exact hfree hlater
        · rintro k ⟨hk, hkfree⟩
          apply hleast
          constructor
          · have hne : k ≠ q := fun heq => hkfree (heq ▸ List.mem_cons_self)
            omega
          · exact fun hmem => hkfree (List.mem_cons_of_mem q hmem)

theorem gapAfter_le (p : Int) (l : List Int) : gapAfter p l ≤ p + 1 + l.length := by
  induction l generalizing p with
  | nil => exact Int.le_add_of_nonneg_right (Int.natCast_nonneg 0)
  | cons q rest ih =>
      rw [gapAfter, List.length_cons]
      split
      · omega
      · have := ih q
        omega

end LeastGap
