import Mathlib.Data.List.Basic
import Mathlib.Tactic.Linarith

/-!
What stands under a key of an ordered map after insertions and erasures.
-/
namespace Lookups

universe u v
variable {K : Type u} {V : Type v} [Ord K] [Std.TransOrd K] (m : Std.ExtTreeMap K V)

theorem mem_iff_exists (a : K) : a ∈ m ↔ ∃ value, m[a]? = some value := by
  rw [← Std.ExtTreeMap.isSome_getElem?_iff_mem, Option.isSome_iff_exists]

theorem empty_ne_some {a : K} {value : V} : (∅ : Std.ExtTreeMap K V)[a]? ≠ some value := by
  rw [Std.ExtTreeMap.getElem?_empty]
  exact (Option.some_ne_none value).symm

variable [Std.LawfulEqOrd K] [DecidableEq K]

theorem getElem?_insert (key a : K) (value : V) :
    (m.insert key value)[a]? = if a = key then some value else m[a]? := by
  rw [Std.ExtTreeMap.getElem?_insert]
  refine if_congr ?_ rfl rfl
  rw [Std.LawfulEqOrd.compare_eq_iff_eq]
  exact eq_comm

theorem getElem?_erase (key a : K) :
    (m.erase key)[a]? = if a = key then none else m[a]? := by
  rw [Std.ExtTreeMap.getElem?_erase]
  refine if_congr ?_ rfl rfl
  rw [Std.LawfulEqOrd.compare_eq_iff_eq]
  exact eq_comm

theorem getElem?_insert_self (key : K) (value : V) : (m.insert key value)[key]? = some value := by
  rw [getElem?_insert, if_pos rfl]

theorem getElem?_insert_of_ne {key a : K} (h : a ≠ key) (value : V) :
    (m.insert key value)[a]? = m[a]? := by
  rw [getElem?_insert, if_neg h]

theorem mem_insert (key a : K) (value : V) : a ∈ m.insert key value ↔ a = key ∨ a ∈ m := by
  rw [mem_iff_exists, mem_iff_exists, getElem?_insert]
  by_cases h : a = key
  · simp [h]
  · simp [h]

theorem mem_erase (key a : K) : a ∈ m.erase key ↔ a ≠ key ∧ a ∈ m := by
  rw [mem_iff_exists, mem_iff_exists, getElem?_erase]
  by_cases h : a = key
  · simp [h]
  · simp [h]

theorem getElem?_foldl_erase (keys : List K) (a : K) :
    (keys.foldl (fun m key => m.erase key) m)[a]? = if a ∈ keys then none else m[a]? := by
  induction keys generalizing m with
  | nil => exact (if_neg List.not_mem_nil).symm
  | cons key keys ih =>
      rw [List.foldl_cons, ih, getElem?_erase]
      by_cases hrest : a ∈ keys
      · rw [if_pos hrest, if_pos (List.mem_cons_of_mem key hrest)]
      · rw [if_neg hrest]
        refine if_congr ?_ rfl rfl
        rw [List.mem_cons]
        exact (or_iff_left hrest).symm

theorem mem_foldl_erase (keys : List K) (a : K) :
    a ∈ keys.foldl (fun m key => m.erase key) m ↔ a ∈ m ∧ a ∉ keys := by
  rw [← Std.ExtTreeMap.isSome_getElem?_iff_mem, getElem?_foldl_erase,
    ← Std.ExtTreeMap.isSome_getElem?_iff_mem]
  by_cases h : a ∈ keys
  · rw [if_pos h]
    exact iff_of_false Bool.false_ne_true fun hc => hc.2 h
  · rw [if_neg h]
    exact (and_iff_left h).symm

end Lookups
