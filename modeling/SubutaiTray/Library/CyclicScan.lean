import Mathlib.Data.Nat.Find
import Mathlib.Data.Nat.ModEq
import Mathlib.Tactic.Linarith

/-!
Scans that go around.

A scan begins somewhere in a range and goes on at its start when it comes to its end. It ends at the
first position that stops it, and it does so within one turn or never.
-/
namespace CyclicScan

variable (n : Nat) (stop : Nat → Bool)

/-- How many positions are passed before one stops the scan. -/
def scan : Nat → Nat → Option Nat
  | 0, _ => none
  | fuel + 1, i => if stop i then some 0 else (scan fuel ((i + 1) % n)).map Nat.succ

variable {n stop} {i : Nat}

theorem scan_eq_some_iff (fuel k : Nat) (hi : i < n) :
    scan n stop fuel i = some k ↔
      k < fuel ∧ stop ((i + k) % n) = true ∧ ∀ j < k, stop ((i + j) % n) = false := by
  induction fuel generalizing i k with
  | zero => simp [scan]
  | succ fuel ih =>
      have hnext : (i + 1) % n < n := Nat.mod_lt _ (Nat.zero_lt_of_lt hi)
      have hshift (j : Nat) : ((i + 1) % n + j) % n = (i + (j + 1)) % n := by
        rw [Nat.mod_add_mod, Nat.add_assoc, Nat.add_comm 1 j]
      rw [scan]
      cases hstop : stop i with
      | true =>
          cases k with
          | zero => simp [Nat.mod_eq_of_lt hi, hstop]
          | succ k =>
              refine iff_of_false (by simp) fun h => ?_
              have hfirst := h.2.2 0 (Nat.succ_pos k)
              rw [Nat.add_zero, Nat.mod_eq_of_lt hi, hstop] at hfirst
              exact Bool.false_ne_true hfirst.symm
      | false =>
          cases k with
          | zero =>
              refine iff_of_false (by simp) fun h => ?_
              have hfirst := h.2.1
              rw [Nat.add_zero, Nat.mod_eq_of_lt hi, hstop] at hfirst
              exact Bool.false_ne_true hfirst
          | succ k =>
              have hrest := ih k hnext
              simp only [hshift] at hrest
              simp only [Bool.false_eq_true, if_false, Option.map_eq_some_iff, Nat.succ.injEq,
                exists_eq_right, hrest, Nat.add_lt_add_iff_right]
              refine and_congr_right fun _ => and_congr_right fun _ => ?_
              constructor
              · intro h j hj
                cases j with
                | zero => rw [Nat.add_zero, Nat.mod_eq_of_lt hi, hstop]
                | succ j => exact h j (Nat.lt_of_succ_lt_succ hj)
              · intro h j hj
                exact h (j + 1) (Nat.succ_lt_succ hj)

/-- Each position is passed within one turn. -/
theorem exists_shift (hi : i < n) {p : Nat} (hp : p < n) : ∃ k < n, (i + k) % n = p := by
  by_cases hle : i ≤ p
  · refine ⟨p - i, by omega, ?_⟩
    rw [Nat.add_sub_cancel' hle, Nat.mod_eq_of_lt hp]
  · refine ⟨n - i + p, by omega, ?_⟩
    have hround : i + (n - i + p) = p + n := by omega
    rw [hround, Nat.add_mod_right, Nat.mod_eq_of_lt hp]

/-- One turn is enough, if anything stops the scan. -/
theorem exists_scan (hi : i < n) {p : Nat} (hp : p < n) (hstop : stop p = true) {fuel : Nat}
    (hfuel : n ≤ fuel) : ∃ k < n, scan n stop fuel i = some k := by
  obtain ⟨k, hk, hat⟩ := exists_shift hi hp
  have hex : ∃ k, stop ((i + k) % n) = true := ⟨k, hat ▸ hstop⟩
  have hleast : Nat.find hex < n := Nat.lt_of_le_of_lt (Nat.find_min' hex (hat ▸ hstop)) hk
  refine ⟨Nat.find hex, hleast, ?_⟩
  rw [scan_eq_some_iff fuel _ hi]
  refine ⟨by omega, Nat.find_spec hex, ?_⟩
  intro j hj
  exact Bool.not_eq_true _ ▸ Nat.find_min hex hj

/-- If nothing stops a scan within one turn, nothing ever does. -/
theorem scan_eq_none_iff (hi : i < n) {fuel : Nat} (hfuel : n ≤ fuel) :
    scan n stop fuel i = none ↔ ∀ p < n, stop p = false := by
  constructor
  · intro hnone p hp
    rw [← Bool.not_eq_true]
    intro hstop
    obtain ⟨k, -, hsome⟩ := exists_scan hi hp hstop hfuel
    rw [hnone] at hsome
    exact absurd hsome.symm (Option.some_ne_none k)
  · intro hnever
    rw [Option.eq_none_iff_forall_ne_some]
    intro k hsome
    rw [scan_eq_some_iff fuel k hi] at hsome
    rw [hnever _ (Nat.mod_lt _ (Nat.zero_lt_of_lt hi))] at hsome
    exact Bool.false_ne_true hsome.2.1

/-- More fuel than one turn makes no difference. -/
theorem scan_eq_scan (hi : i < n) {fuel fuel' : Nat} (hfuel : n ≤ fuel) (hfuel' : n ≤ fuel') :
    scan n stop fuel i = scan n stop fuel' i := by
  by_cases hstops : ∃ p < n, stop p = true
  · obtain ⟨p, hp, hstop⟩ := hstops
    obtain ⟨k, hk, hsome⟩ := exists_scan hi hp hstop hfuel
    rw [hsome, eq_comm, scan_eq_some_iff fuel' k hi]
    rw [scan_eq_some_iff fuel k hi] at hsome
    exact ⟨by omega, hsome.2⟩
  · have hnever : ∀ p < n, stop p = false := by
      intro p hp
      rw [← Bool.not_eq_true]
      exact fun hstop => hstops ⟨p, hp, hstop⟩
    rw [(scan_eq_none_iff hi hfuel).mpr hnever, (scan_eq_none_iff hi hfuel').mpr hnever]

/-! ## What is passed -/

universe u
variable {α : Type u}

theorem length_filterMap_range {f : Nat → Option α} {k : Nat} (h : ∀ j < k, (f j).isSome = true) :
    ((List.range k).filterMap f).length = k := by
  induction k with
  | zero => rfl
  | succ k ih =>
      obtain ⟨a, ha⟩ := Option.isSome_iff_exists.mp (h k (Nat.lt_succ_self k))
      rw [List.range_succ, List.filterMap_append, List.length_append,
        ih fun j hj => h j (Nat.lt_succ_of_lt hj)]
      simp [ha]

theorem getElem?_filterMap_range {f : Nat → Option α} {k : Nat} (h : ∀ j < k, (f j).isSome = true)
    {j : Nat} (hj : j < k) : ((List.range k).filterMap f)[j]? = f j := by
  induction k with
  | zero => exact absurd hj (Nat.not_lt_zero j)
  | succ k ih =>
      have hbefore : ∀ j < k, (f j).isSome = true := fun j hj => h j (Nat.lt_succ_of_lt hj)
      have hlength := length_filterMap_range hbefore
      rw [List.range_succ, List.filterMap_append]
      cases Nat.lt_succ_iff_lt_or_eq.mp hj with
      | inl hless =>
          rw [List.getElem?_append_left (by omega)]
          exact ih hbefore hless
      | inr hlast =>
          obtain ⟨a, ha⟩ := Option.isSome_iff_exists.mp (h k (Nat.lt_succ_self k))
          rw [hlast, List.getElem?_append_right (by omega), hlength, Nat.sub_self]
          simp [ha]

/-- The text of the positions that are passed. -/
theorem filterMap_range_eq_iff {f : Nat → Option α} {k : Nat} (h : ∀ j < k, (f j).isSome = true)
    (text : List α) :
    (List.range k).filterMap f = text ↔ text.length = k ∧ ∀ j < k, f j = text[j]? := by
  constructor
  · rintro rfl
    refine ⟨length_filterMap_range h, ?_⟩
    intro j hj
    exact (getElem?_filterMap_range h hj).symm
  · rintro ⟨hlength, htext⟩
    have hread := length_filterMap_range h
    apply List.ext_getElem?
    intro j
    by_cases hj : j < k
    · rw [getElem?_filterMap_range h hj, htext j hj]
    · rw [List.getElem?_eq_none (by omega), List.getElem?_eq_none (by omega)]

end CyclicScan
