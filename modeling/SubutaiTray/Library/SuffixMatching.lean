import Mathlib.Data.List.Infix

/-!
Longest recognised suffixes over an arbitrary alphabet.

A recogniser is a predicate on strings. The text is read letter by letter, and
the state kept between letters is the longest suffix of the text read so far
that the predicate holds of. When the predicate is closed under dropping the
last letter this state can be advanced without looking at the text again: the
rules below are exactly the moves of a suffix automaton with failure links.
-/
namespace SuffixMatching

universe u
variable {α : Type u} {P Q : List α → Prop} {s t u w : List α} {c : α}

def PrefixClosed (P : List α → Prop) : Prop :=
  ∀ s c, P (s ++ [c]) → P s

/-- `u` is the longest suffix of `w` satisfying `P`. -/
structure LongestSuffix (P : List α → Prop) (u w : List α) : Prop where
  holds : P u
  suffix : u <:+ w
  longest : ∀ t, P t → t <:+ w → t.length ≤ u.length

/-- `u` is the longest suffix of `w`, other than `w` itself, satisfying `P`. -/
structure LongestProperSuffix (P : List α → Prop) (u w : List α) : Prop where
  holds : P u
  suffix : u <:+ w
  proper : u ≠ w
  longest : ∀ t, P t → t <:+ w → t ≠ w → t.length ≤ u.length

theorem LongestProperSuffix.length_lt (h : LongestProperSuffix P u w) :
    u.length < w.length := by
  by_contra hle
  exact h.proper (h.suffix.eq_of_length_le (by omega))

theorem LongestSuffix.unique (hu : LongestSuffix P u w) (ht : LongestSuffix P t w) :
    u = t := by
  have le : u.length ≤ t.length := ht.longest u hu.holds hu.suffix
  have ge : t.length ≤ u.length := hu.longest t ht.holds ht.suffix
  exact (List.suffix_of_suffix_length_le hu.suffix ht.suffix le).eq_of_length_le ge

theorem LongestSuffix.self (h : P w) : LongestSuffix P w w :=
  ⟨h, List.suffix_rfl, fun _ _ ht => ht.length_le⟩

theorem LongestSuffix.nil (h : P []) : LongestSuffix P [] ([] : List α) :=
  LongestSuffix.self h

/-- A candidate that ends in the letter just read and is no longer than the state
it is compared with was already considered from that state. -/
theorem LongestSuffix.bounds {v : List α} (ht : LongestSuffix P t (u ++ [c])) (hu : u <:+ s)
    (hv : P (v ++ [c])) (hvs : v <:+ s) (short : v.length ≤ u.length) :
    (v ++ [c]).length ≤ t.length :=
  ht.longest (v ++ [c]) hv
    (List.suffix_append_self_iff.mpr (List.suffix_of_suffix_length_le hvs hu short))

/-- Reading one letter: the old state and the letter already determine the new
state, the earlier text is not needed. -/
theorem LongestSuffix.concat (closed : PrefixClosed P) (hs : LongestSuffix P s w)
    (ht : LongestSuffix P t (s ++ [c])) : LongestSuffix P t (w ++ [c]) := by
  refine ⟨ht.holds, ht.suffix.trans (List.suffix_append_self_iff.mpr hs.suffix), ?_⟩
  intro v hv hvw
  rcases List.suffix_concat_iff.mp hvw with rfl | ⟨v', rfl, hv'⟩
  · exact Nat.zero_le _
  · have short : v'.length ≤ s.length := hs.longest v' (closed v' c hv) hv'
    exact ht.bounds hs.suffix hv hv' short

/-- A letter that does not extend the state is read from the state's longest
proper suffix instead. -/
theorem LongestSuffix.fallback (closed : PrefixClosed P) (stuck : ¬ P (s ++ [c]))
    (hu : LongestProperSuffix P u s) (ht : LongestSuffix P t (u ++ [c])) :
    LongestSuffix P t (s ++ [c]) := by
  refine ⟨ht.holds, ht.suffix.trans (List.suffix_append_self_iff.mpr hu.suffix), ?_⟩
  intro v hv hvs
  rcases List.suffix_concat_iff.mp hvs with rfl | ⟨v', rfl, hv'⟩
  · exact Nat.zero_le _
  · have ne : v' ≠ s := by
      rintro rfl
      exact stuck hv
    have short : v'.length ≤ u.length := hu.longest v' (closed v' c hv) hv' ne
    exact ht.bounds hu.suffix hv hv' short

theorem LongestSuffix.reset (empty : P []) (stuck : ¬ P [c]) :
    LongestSuffix P [] [c] := by
  refine ⟨empty, List.nil_suffix, ?_⟩
  intro v hv hvc
  rcases List.suffix_concat_iff.mp (show v <:+ [] ++ [c] from hvc) with rfl | ⟨v', rfl, hv'⟩
  · exact Nat.le_refl _
  · rw [List.suffix_nil.mp hv'] at hv
    exact absurd hv stuck

theorem LongestProperSuffix.singleton (empty : P []) : LongestProperSuffix P [] [c] := by
  refine ⟨empty, List.nil_suffix, (List.cons_ne_nil _ _).symm, ?_⟩
  intro v _ hvc ne
  rcases List.suffix_concat_iff.mp (show v <:+ [] ++ [c] from hvc) with rfl | ⟨v', rfl, hv'⟩
  · exact Nat.le_refl _
  · rw [List.suffix_nil.mp hv'] at ne
    exact absurd rfl ne

/-- The failure link of a longer string is found by reading its last letter from
the failure link of the rest. -/
theorem LongestProperSuffix.concat (closed : PrefixClosed P)
    (hu : LongestProperSuffix P u s) (ht : LongestSuffix P t (u ++ [c])) :
    LongestProperSuffix P t (s ++ [c]) := by
  have hlen : t.length ≤ u.length + 1 := by simpa using ht.suffix.length_le
  refine ⟨ht.holds, ht.suffix.trans (List.suffix_append_self_iff.mpr hu.suffix), ?_, ?_⟩
  · rintro rfl
    have := hu.length_lt
    rw [List.length_append, List.length_singleton] at hlen
    omega
  · intro v hv hvs ne
    rcases List.suffix_concat_iff.mp hvs with rfl | ⟨v', rfl, hv'⟩
    · exact Nat.zero_le _
    · have ne' : v' ≠ s := by
        rintro rfl
        exact ne rfl
      have short : v'.length ≤ u.length := hu.longest v' (closed v' c hv) hv' ne'
      exact ht.bounds hu.suffix hv hv' short

/-- Everything a narrower recogniser accepts below `s` lies below the failure
link of the wider one, or is that link. -/
theorem LongestProperSuffix.below (sub : ∀ v, Q v → P v) (hu : LongestProperSuffix P u s)
    (hv : Q t) (suffix : t <:+ s) (ne : t ≠ s) : t <:+ u :=
  List.suffix_of_suffix_length_le suffix hu.suffix (hu.longest t (sub t hv) suffix ne)

theorem LongestProperSuffix.narrow (sub : ∀ v, Q v → P v)
    (hu : LongestProperSuffix P u s) (hq : Q u) : LongestProperSuffix Q u s :=
  ⟨hq, hu.suffix, hu.proper, fun t ht => hu.longest t (sub t ht)⟩

theorem LongestProperSuffix.skip (sub : ∀ v, Q v → P v)
    (hu : LongestProperSuffix P u s) (reject : ¬ Q u) (ht : LongestProperSuffix Q t u) :
    LongestProperSuffix Q t s := by
  have lt := ht.length_lt
  have lt' := hu.length_lt
  refine ⟨ht.holds, ht.suffix.trans hu.suffix, ?_, ?_⟩
  · rintro rfl
    omega
  · intro v hv hvs ne
    have ne' : v ≠ u := by
      rintro rfl
      exact reject hv
    exact ht.longest v hv (hu.below sub hv hvs ne) ne'

end SuffixMatching
