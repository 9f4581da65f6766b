import Mathlib.Data.List.Nodup

/-!
Actions with footprints.

The footprint of an action holds all places that it changes, and what it makes of them depends on nothing
else. Actions with disjoint footprints do not interfere: done one after the other, each leaves in its
places what it would have left there alone.
-/
namespace Footprints

universe u v w
variable {σ : Type u} {α : Type v} {K : Type w} {V : K → Type*}

/-- The actions of a machine whose states are looked at place by place. -/
structure Local (obs : σ → (k : K) → V k) (step : σ → α → σ) (foot : α → List K) : Prop where
  frame : ∀ s a k, k ∉ foot a → obs (step s a) k = obs s k
  congr : ∀ s t a, (∀ k ∈ foot a, obs s k = obs t k) → ∀ k ∈ foot a, obs (step s a) k = obs (step t a) k

namespace Local

variable {obs : σ → (k : K) → V k} {step : σ → α → σ} {foot : α → List K}

theorem foldl_of_notMem (h : Local obs step foot) {actions : List α} {k : K}
    (hk : k ∉ actions.flatMap foot) (s : σ) : obs (actions.foldl step s) k = obs s k := by
  induction actions generalizing s with
  | nil => rfl
  | cons a actions ih =>
      rw [List.flatMap_cons, List.mem_append, not_or] at hk
      exact (ih hk.2 _).trans (h.frame s a k hk.1)

/-- Each action does in the sequence what it does alone. -/
theorem foldl_eq_alone (h : Local obs step foot) {actions : List α} (hdisjoint : (actions.flatMap foot).Nodup)
    {a : α} (hmem : a ∈ actions) {k : K} (hk : k ∈ foot a) (s : σ) :
    obs (actions.foldl step s) k = obs (step s a) k := by
  obtain ⟨before, after, rfl⟩ := List.append_of_mem hmem
  rw [List.flatMap_append, List.flatMap_cons] at hdisjoint
  obtain ⟨-, hrest, hapart⟩ := List.nodup_append.mp hdisjoint
  have hafter : k ∉ after.flatMap foot := by
    intro hlater
    exact (List.nodup_append.mp hrest).2.2 k hk k hlater rfl
  have hbefore (k' : K) (hk' : k' ∈ foot a) : obs (before.foldl step s) k' = obs s k' := by
    apply h.foldl_of_notMem
    intro hearlier
    exact hapart k' hearlier k' (List.mem_append_left _ hk') rfl
  rw [List.foldl_append, List.foldl_cons, h.foldl_of_notMem hafter]
  exact h.congr _ s a hbefore k hk

end Local

end Footprints
