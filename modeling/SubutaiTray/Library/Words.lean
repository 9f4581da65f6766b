import Mathlib.Data.List.Infix
import Mathlib.Data.List.TakeWhile
import SubutaiTray.Library.Splitting

/-!
The words of a text: its longest parts without a separator.
-/
namespace SubutaiTray.Words

universe u
variable {α : Type u} {isSep : α → Bool}

def wordsBy (isSep : α → Bool) (xs : List α) : List (List α) :=
  (xs.splitOnP isSep).filter fun word => word ≠ []

theorem wordsBy_append_cons {sep : α} (hsep : isSep sep = true) (xs ys : List α) :
    wordsBy isSep (xs ++ sep :: ys) = wordsBy isSep xs ++ wordsBy isSep ys := by
  rw [wordsBy, List.splitOnP_append_cons xs ys hsep, List.filter_append]
  rfl

@[simp]
theorem wordsBy_nil : wordsBy isSep [] = [] := by
  simp [wordsBy]

theorem wordsBy_sep_cons {sep : α} (hsep : isSep sep = true) (ys : List α) :
    wordsBy isSep (sep :: ys) = wordsBy isSep ys := by
  have h := wordsBy_append_cons hsep [] ys
  rwa [wordsBy_nil, List.nil_append, List.nil_append] at h

theorem wordsBy_seps_append {seps : List α} (hseps : ∀ c ∈ seps, isSep c = true) (ys : List α) :
    wordsBy isSep (seps ++ ys) = wordsBy isSep ys := by
  induction seps with
  | nil => rfl
  | cons sep seps ih =>
      rw [List.forall_mem_cons] at hseps
      rw [List.cons_append, wordsBy_sep_cons hseps.1, ih hseps.2]

/-- Separators at the end, or between two texts. -/
theorem wordsBy_append_seps {seps : List α} (hseps : ∀ c ∈ seps, isSep c = true) (xs : List α) :
    wordsBy isSep (xs ++ seps) = wordsBy isSep xs := by
  cases seps with
  | nil => rw [List.append_nil]
  | cons sep seps =>
      rw [List.forall_mem_cons] at hseps
      have hnone := wordsBy_seps_append hseps.2 ([] : List α)
      rw [List.append_nil, wordsBy_nil] at hnone
      rw [wordsBy_append_cons hseps.1, hnone, List.append_nil]

theorem wordsBy_append_seps_append {seps : List α} (hne : seps ≠ [])
    (hseps : ∀ c ∈ seps, isSep c = true) (xs ys : List α) :
    wordsBy isSep (xs ++ seps ++ ys) = wordsBy isSep xs ++ wordsBy isSep ys := by
  obtain ⟨sep, seps, rfl⟩ := List.exists_cons_of_ne_nil hne
  rw [List.forall_mem_cons] at hseps
  rw [List.append_assoc, List.cons_append, wordsBy_append_cons hseps.1,
    wordsBy_seps_append hseps.2]

/-- A text without separators is its only word. -/
theorem wordsBy_of_word {word : List α} (hne : word ≠ []) (hword : ∀ c ∈ word, isSep c = false) :
    wordsBy isSep word = [word] := by
  rw [wordsBy, List.splitOnP_eq_singleton hword, List.filter_cons_of_pos (by simpa using hne)]
  rfl

theorem isSep_firstWord {c : α} (hc : isSep c = false) (xs : List α) :
    ∀ d ∈ c :: xs.takeWhile fun c => !isSep c, isSep d = false := by
  rw [List.forall_mem_cons]
  refine ⟨hc, fun d hd => ?_⟩
  have := List.mem_takeWhile_imp hd
  simpa using this

/-- The first word ends at the first separator. -/
theorem wordsBy_cons {c : α} (hc : isSep c = false) (xs : List α) :
    wordsBy isSep (c :: xs) =
      (c :: xs.takeWhile fun c => !isSep c) :: wordsBy isSep (xs.dropWhile fun c => !isSep c) := by
  have hword := isSep_firstWord hc xs
  have hsplit : c :: xs = (c :: xs.takeWhile fun c => !isSep c) ++ xs.dropWhile fun c => !isSep c := by
    rw [List.cons_append, List.takeWhile_append_dropWhile]
  cases hrest : xs.dropWhile fun c => !isSep c with
  | nil =>
      rw [hrest, List.append_nil] at hsplit
      rw [wordsBy_nil]
      nth_rewrite 1 [hsplit]
      exact wordsBy_of_word (List.cons_ne_nil _ _) hword
  | cons d rest =>
      have hd : isSep d = true := by
        have := List.head_dropWhile_not (fun c => !isSep c) (l := xs) (by rw [hrest]; exact List.cons_ne_nil _ _)
        simpa [hrest] using this
      rw [hrest] at hsplit
      rw [wordsBy_sep_cons hd]
      nth_rewrite 1 [hsplit]
      rw [wordsBy_append_cons hd, wordsBy_of_word (List.cons_ne_nil _ _) hword, List.singleton_append]

theorem wordsBy_eq_nil_iff (xs : List α) :
    wordsBy isSep xs = [] ↔ ∀ c ∈ xs, isSep c = true := by
  induction xs with
  | nil => simp
  | cons c xs ih =>
      rw [List.forall_mem_cons]
      by_cases hc : isSep c = true
      · rw [wordsBy_sep_cons hc, ih]
        simp [hc]
      · rw [Bool.not_eq_true] at hc
        rw [wordsBy_cons hc]
        simp [hc]

/-- A text that begins with its only word goes on with separators. -/
theorem eq_append_of_wordsBy_eq_singleton {c : α} {xs word : List α} (hc : isSep c = false)
    (h : wordsBy isSep (c :: xs) = [word]) :
    (word ≠ [] ∧ ∀ d ∈ word, isSep d = false) ∧
      ∃ seps, c :: xs = word ++ seps ∧ ∀ d ∈ seps, isSep d = true := by
  rw [wordsBy_cons hc, List.cons.injEq, wordsBy_eq_nil_iff] at h
  refine ⟨?_, xs.dropWhile fun c => !isSep c, ?_, h.2⟩
  · rw [← h.1]
    exact ⟨List.cons_ne_nil _ _, isSep_firstWord hc xs⟩
  · rw [← h.1, List.cons_append, List.takeWhile_append_dropWhile]

/-- What has no separator does not reach over one. -/
theorem prefix_append_cons_iff {sep : α} {p : List α} (hp : sep ∉ p) (xs ys : List α) :
    p <+: xs ++ sep :: ys ↔ p <+: xs := by
  constructor
  · intro h
    have hsep : xs ++ [sep] <+: xs ++ sep :: ys :=
      List.prefix_append_right_inj xs |>.mpr (List.prefix_append [sep] ys)
    cases List.prefix_or_prefix_of_prefix h hsep with
    | inl hle =>
        cases List.prefix_concat_iff.mp hle with
        | inl heq => exact absurd (by rw [heq]; simp) hp
        | inr hstart => exact hstart
    | inr hlong => exact absurd (hlong.subset (by simp)) hp
  · exact fun h => h.trans (List.prefix_append _ _)

theorem infix_iff_infix_word {p : List α} (hne : p ≠ []) (hp : ∀ c ∈ p, isSep c = false)
    (xs : List α) :
    p <:+: xs ↔ ∃ word ∈ wordsBy isSep xs, p <:+: word := by
  have hnot {sep : α} (hsep : isSep sep = true) : sep ∉ p := by
    intro hmem
    rw [hp sep hmem] at hsep
    exact Bool.false_ne_true hsep
  induction hn : xs.length using Nat.strong_induction_on generalizing xs with
  | _ n ih =>
      subst hn
      cases xs with
      | nil => simp [hne]
      | cons c xs =>
          by_cases hc : isSep c = true
          · have hcut := @Splitting.infix_append_cons_iff α c p [] xs (hnot hc)
            rw [List.nil_append, List.infix_nil, or_iff_right hne] at hcut
            rw [hcut, wordsBy_sep_cons hc]
            exact ih xs.length (by simp) xs rfl
          · rw [Bool.not_eq_true] at hc
            have hsplit : (c :: xs.takeWhile fun c => !isSep c) ++ xs.dropWhile (fun c => !isSep c) =
                c :: xs := by
              rw [List.cons_append, List.takeWhile_append_dropWhile]
            rw [wordsBy_cons hc, List.exists_mem_cons_iff]
            cases hrest : xs.dropWhile fun c => !isSep c with
            | nil =>
                rw [hrest, List.append_nil] at hsplit
                simp [hsplit]
            | cons d rest =>
                have hd : isSep d = true := by
                  have := List.head_dropWhile_not (fun c => !isSep c) (l := xs) (by rw [hrest]; exact List.cons_ne_nil _ _)
                  simpa [hrest] using this
                rw [hrest] at hsplit
                have hlt : rest.length < (c :: xs).length := by
                  rw [← hsplit, List.length_append, List.length_cons, List.length_cons]
                  omega
                rw [← hsplit, Splitting.infix_append_cons_iff (hnot hd), wordsBy_sep_cons hd]
                exact or_congr_right (ih rest.length hlt rest rfl)

end SubutaiTray.Words
