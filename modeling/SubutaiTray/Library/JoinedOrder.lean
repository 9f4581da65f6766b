import Mathlib.Algebra.Group.Nat.Defs
import Mathlib.Data.List.Lex
import Mathlib.Order.Fin.Basic

/-!
The order of lists from the left, of lists joined to one, and of the keys of their elements.

Lists joined with a separator below all that they hold are ordered as the lists of
lists are. Comparing elements instead of their keys goes wrong at the first place where
the two differ, or nowhere. Digits have their number as such a key.
-/
namespace SubutaiTray.JoinedOrder

section joined
variable {α : Type*} {sep : α}

theorem head?_flatMap_cons (ws : List (List α)) :
    ∀ a ∈ (ws.flatMap (sep :: ·)).head?, a = sep := by
  intro a ha
  cases ws with
  | nil => exact absurd ha (by simp)
  | cons w ws => exact (Option.some.inj ha).symm

theorem flatMap_cons_eq_intercalate {ws : List (List α)} (h : ws ≠ []) :
    ws.flatMap (sep :: ·) = sep :: [sep].intercalate ws := by
  induction ws with
  | nil => exact absurd rfl h
  | cons w ws ih =>
      cases ws with
      | nil => simp [List.intercalate]
      | cons w' ws =>
          rw [List.flatMap_cons, ih (List.cons_ne_nil _ _)]
          simp [List.intercalate]

variable [Preorder α]

/-- Two words with what comes behind them, a separator first or nothing. -/
theorem append_lt_append_iff {w v t u : List α} (hw : ∀ a ∈ w, sep < a) (hv : ∀ a ∈ v, sep < a)
    (ht : ∀ a ∈ t.head?, a = sep) (hu : ∀ a ∈ u.head?, a = sep) :
    w ++ t < v ++ u ↔ w < v ∨ w = v ∧ t < u := by
  induction w generalizing v with
  | nil =>
      cases v with
      | nil => simp
      | cons b v =>
          have hb : sep < b := hv b List.mem_cons_self
          cases t with
          | nil => simp
          | cons a t =>
              obtain rfl := ht a rfl
              simp [List.cons_lt_cons_iff, hb]
  | cons a w ih =>
      have ha : sep < a := hw a List.mem_cons_self
      cases v with
      | nil =>
          cases u with
          | nil => simp
          | cons b u =>
              obtain rfl := hu b rfl
              simp [List.cons_lt_cons_iff, lt_asymm ha, ne_of_gt ha]
      | cons b v =>
          have hw' : ∀ c ∈ w, sep < c := fun c hc => hw c (List.mem_cons_of_mem _ hc)
          have hv' : ∀ c ∈ v, sep < c := fun c hc => hv c (List.mem_cons_of_mem _ hc)
          rw [List.cons_append, List.cons_append, List.cons_lt_cons_iff, List.cons_lt_cons_iff,
            ih hw' hv', List.cons.injEq, and_or_left, or_assoc, and_assoc]

theorem flatMap_lt_flatMap_iff {ws vs : List (List α)} (hws : ∀ w ∈ ws, ∀ a ∈ w, sep < a)
    (hvs : ∀ v ∈ vs, ∀ a ∈ v, sep < a) :
    ws.flatMap (sep :: ·) < vs.flatMap (sep :: ·) ↔ ws < vs := by
  induction ws generalizing vs with
  | nil =>
      cases vs with
      | nil => simp
      | cons v vs => simp
  | cons w ws ih =>
      cases vs with
      | nil => simp
      | cons v vs =>
          obtain ⟨hw, hws⟩ := List.forall_mem_cons.mp hws
          obtain ⟨hv, hvs⟩ := List.forall_mem_cons.mp hvs
          rw [List.flatMap_cons, List.flatMap_cons, List.cons_append, List.cons_append,
            List.cons_lt_cons_iff,
            append_lt_append_iff hw hv (head?_flatMap_cons ws) (head?_flatMap_cons vs),
            ih hws hvs, List.cons_lt_cons_iff]
          simp

end joined

section keys
variable {α β : Type*} [LinearOrder α] [LinearOrder β] {key : α → β}

theorem map_lt_map_iff (hkey : StrictMono key) (xs ys : List α) :
    xs.map key < ys.map key ↔ xs < ys := by
  induction xs generalizing ys with
  | nil => cases ys <;> simp
  | cons x xs ih =>
      cases ys with
      | nil => simp
      | cons y ys =>
          rw [List.map_cons, List.map_cons, List.cons_lt_cons_iff, List.cons_lt_cons_iff, ih,
            hkey.lt_iff_lt, hkey.injective.eq_iff]

variable (key)

/-- At the first place where the lists differ the elements are not ordered as the keys
are, or, these being equal, as the keys behind them. -/
def Misled : List α → List α → Prop
  | x :: xs, y :: ys =>
      if x = y then Misled xs ys
      else ¬ (x < y ↔ key x < key y ∨ key x = key y ∧ xs.map key < ys.map key)
  | _, _ => False

instance Misled.decidable : (xs ys : List α) → Decidable (Misled key xs ys)
  | x :: xs, y :: ys =>
      haveI := Misled.decidable xs ys
      inferInstanceAs (Decidable (if x = y then Misled key xs ys else ¬ (x < y ↔ _)))
  | [], _ => inferInstanceAs (Decidable False)
  | _ :: _, [] => inferInstanceAs (Decidable False)

variable {key}

theorem lt_iff_map_lt_iff_not_misled (xs ys : List α) :
    (xs < ys ↔ xs.map key < ys.map key) ↔ ¬ Misled key xs ys := by
  induction xs generalizing ys with
  | nil => cases ys <;> simp [Misled]
  | cons x xs ih =>
      cases ys with
      | nil => simp [Misled]
      | cons y ys =>
          rw [List.map_cons, List.map_cons, List.cons_lt_cons_iff, List.cons_lt_cons_iff, Misled]
          by_cases hxy : x = y
          · subst hxy
            simpa using ih ys
          · simp [hxy]

/-- Where elements are ordered as their keys are, so are the lists. -/
theorem not_misled_of_zip {xs ys : List α}
    (h : ∀ p ∈ xs.zip ys, (p.1 < p.2 ↔ key p.1 < key p.2) ∧ (key p.1 = key p.2 → p.1 = p.2)) :
    ¬ Misled key xs ys := by
  induction xs generalizing ys with
  | nil => simp [Misled]
  | cons x xs ih =>
      cases ys with
      | nil => simp [Misled]
      | cons y ys =>
          rw [List.zip_cons_cons, List.forall_mem_cons] at h
          obtain ⟨⟨hlt, heq⟩, hrest⟩ := h
          rw [Misled]
          split
          · exact ih hrest
          · rename_i hxy
            have hkey : key x ≠ key y := fun hk => hxy (heq hk)
            simp [hlt, hkey]

end keys

section digits
variable {b : Nat}

/-- The number that digits stand for, the first one being the highest. -/
def numeral : List (Fin b) → Nat
  | [] => 0
  | d :: w => d * b ^ w.length + numeral w

theorem numeral_lt_pow (w : List (Fin b)) : numeral w < b ^ w.length := by
  induction w with
  | nil => exact Nat.one_pos
  | cons d w ih =>
      have hd : (d + 1 : Nat) * b ^ w.length ≤ b * b ^ w.length :=
        Nat.mul_le_mul_right _ d.isLt
      rw [Nat.add_mul, Nat.one_mul] at hd
      rw [numeral, List.length_cons, Nat.pow_succ']
      omega

theorem high_lt_iff {d e : Fin b} {m n p : Nat} (hm : m < p) (hn : n < p) :
    d * p + m < e * p + n ↔ d < e ∨ d = e ∧ m < n := by
  rcases lt_trichotomy d e with hlt | rfl | hgt
  · have hmul : (d + 1 : Nat) * p ≤ e * p := Nat.mul_le_mul_right _ hlt
    rw [Nat.add_mul, Nat.one_mul] at hmul
    exact iff_of_true (by omega) (Or.inl hlt)
  · simp
  · have hmul : (e + 1 : Nat) * p ≤ d * p := Nat.mul_le_mul_right _ hgt
    rw [Nat.add_mul, Nat.one_mul] at hmul
    refine iff_of_false (by omega) ?_
    rintro (hlt | ⟨rfl, -⟩)
    · exact lt_asymm hgt hlt
    · exact lt_irrefl _ hgt

/-- As many digits are ordered as their numbers. -/
theorem numeral_lt_numeral_iff {w v : List (Fin b)} (h : w.length = v.length) :
    numeral w < numeral v ↔ w < v := by
  induction w generalizing v with
  | nil =>
      obtain rfl := List.length_eq_zero_iff.mp h.symm
      simp
  | cons d w ih =>
      cases v with
      | nil => exact absurd h (by simp)
      | cons e v =>
          have hlen : w.length = v.length := by simpa using h
          have hv := numeral_lt_pow v
          rw [numeral, numeral, List.cons_lt_cons_iff, ← ih hlen, hlen]
          rw [← hlen] at hv ⊢
          exact high_lt_iff (numeral_lt_pow w) hv

theorem numeral_injective_of_length {w v : List (Fin b)} (h : w.length = v.length)
    (heq : numeral w = numeral v) : w = v := by
  refine le_antisymm (not_lt.mp ?_) (not_lt.mp ?_)
  · rw [← numeral_lt_numeral_iff h.symm, heq]
    exact lt_irrefl _
  · rw [← numeral_lt_numeral_iff h, heq]
    exact lt_irrefl _

/-- Numerals of the same widths place by place mislead nowhere. -/
theorem not_misled_numeral {xs ys : List (List (Fin b))}
    (h : ∀ p ∈ xs.zip ys, p.1.length = p.2.length) : ¬ Misled numeral xs ys := by
  refine not_misled_of_zip ?_
  intro p hp
  exact ⟨(numeral_lt_numeral_iff (h p hp)).symm, numeral_injective_of_length (h p hp)⟩

end digits

end SubutaiTray.JoinedOrder
