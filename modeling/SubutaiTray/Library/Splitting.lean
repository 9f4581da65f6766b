import Mathlib.Data.List.Basic
import Mathlib.Data.List.Infix

/-!
Splitting a list at every occurrence of a separator list.

Occurrences are taken from the left and do not overlap: after a separator the
search goes on behind it. This is the splitting of string libraries. The
separator may overlap itself, so a piece may still end in a part of it.
-/
namespace Splitting

universe u
variable {α : Type u} [DecidableEq α] {sep : List α}

/-- The pieces of a list of which the first `k` letters are still to be skipped. -/
def splitFrom (sep : List α) : Nat → List α → List (List α)
  | _, [] => [[]]
  | k + 1, _ :: xs => splitFrom sep k xs
  | 0, x :: xs =>
      if sep <+: x :: xs then [] :: splitFrom sep (sep.length - 1) xs
      else (splitFrom sep 0 xs).modifyHead (List.cons x)

def split (sep xs : List α) : List (List α) := splitFrom sep 0 xs

theorem splitFrom_eq_drop (sep : List α) (k : Nat) (xs : List α) :
    splitFrom sep k xs = split sep (xs.drop k) := by
  induction xs generalizing k with
  | nil => cases k <;> rfl
  | cons x xs ih =>
      cases k with
      | zero => rfl
      | succ k => exact ih k

@[simp] theorem split_nil (sep : List α) : split sep [] = [[]] := rfl

theorem split_cons_of_not {x : α} {xs : List α} (h : ¬ sep <+: x :: xs) :
    split sep (x :: xs) = (split sep xs).modifyHead (List.cons x) := by
  simp [split, splitFrom, h]

theorem split_sep_append (hsep : sep ≠ []) (xs : List α) :
    split sep (sep ++ xs) = [] :: split sep xs := by
  obtain ⟨c, sep', rfl⟩ := List.exists_cons_of_ne_nil hsep
  have h : c :: sep' <+: c :: (sep' ++ xs) := List.prefix_append (c :: sep') xs
  rw [List.cons_append, split, splitFrom, if_pos h, splitFrom_eq_drop]
  simp

theorem split_ne_nil (sep xs : List α) : split sep xs ≠ [] := by
  induction xs with
  | nil => exact List.cons_ne_nil _ _
  | cons x xs ih =>
      by_cases h : sep <+: x :: xs
      · rw [split, splitFrom, if_pos h]
        exact List.cons_ne_nil _ _
      · rw [split_cons_of_not h]
        simpa using ih

theorem split_append_of_notMem {c : α} {p : List α} (hp : c ∉ p) (sep xs : List α) :
    split (c :: sep) (p ++ xs) = (split (c :: sep) xs).modifyHead (p ++ ·) := by
  induction p with
  | nil =>
      obtain ⟨q, qs, hq⟩ := List.exists_cons_of_ne_nil (split_ne_nil (c :: sep) xs)
      simp [hq]
  | cons x p ih =>
      have hx : ¬ c :: sep <+: x :: (p ++ xs) := by
        rw [List.cons_prefix_cons]
        rintro ⟨rfl, -⟩
        exact hp List.mem_cons_self
      rw [List.cons_append, split_cons_of_not hx, ih (fun h => hp (List.mem_cons_of_mem _ h)),
        List.modifyHead_modifyHead]
      rfl

theorem split_of_notMem {c : α} {p : List α} (hp : c ∉ p) (sep : List α) :
    split (c :: sep) p = [p] := by
  have := split_append_of_notMem hp sep []
  simpa using this

theorem split_append_sep {c : α} {p : List α} (hp : c ∉ p) (sep xs : List α) :
    split (c :: sep) (p ++ (c :: sep ++ xs)) = p :: split (c :: sep) xs := by
  rw [split_append_of_notMem hp, split_sep_append (List.cons_ne_nil _ _)]
  simp

theorem split_lines {c : α} {lines : List (List α)} (h : ∀ line ∈ lines, c ∉ line) :
    split [c] (lines.flatMap (· ++ [c])) = lines ++ [[]] := by
  induction lines with
  | nil => rfl
  | cons line lines ih =>
      have hline : c ∉ line := h line List.mem_cons_self
      rw [List.flatMap_cons, List.append_assoc, split_append_sep hline [],
        ih fun l hl => h l (List.mem_cons_of_mem _ hl), List.cons_append]

theorem tail_split_append {c : α} {p : List α} (hp : c ∉ p) (sep xs : List α) :
    (split (c :: sep) (p ++ xs)).tail = (split (c :: sep) xs).tail := by
  rw [split_append_of_notMem hp]
  cases split (c :: sep) xs <;> rfl

/-- Either there was no separator, or the first one stands behind the first piece. -/
theorem split_eq_cons (hsep : sep ≠ []) {xs p : List α} {ps : List (List α)}
    (h : split sep xs = p :: ps) :
    (ps = [] ∧ xs = p) ∨ ∃ ys, xs = p ++ (sep ++ ys) ∧ split sep ys = ps := by
  induction xs generalizing p with
  | nil =>
      rw [split_nil, List.cons.injEq] at h
      exact Or.inl ⟨h.2.symm, h.1⟩
  | cons x xs ih =>
      by_cases hx : sep <+: x :: xs
      · obtain ⟨ys, hys⟩ := hx
        rw [← hys, split_sep_append hsep, List.cons.injEq] at h
        obtain ⟨rfl, h⟩ := h
        exact Or.inr ⟨ys, by simpa using hys.symm, h⟩
      · rw [split_cons_of_not hx] at h
        obtain ⟨q, qs, hq⟩ := List.exists_cons_of_ne_nil (split_ne_nil sep xs)
        rw [hq, List.modifyHead_cons, List.cons.injEq] at h
        obtain ⟨rfl, rfl⟩ := h
        rcases ih hq with ⟨hnil, rfl⟩ | ⟨ys, rfl, hys⟩
        · exact Or.inl ⟨hnil, rfl⟩
        · exact Or.inr ⟨ys, rfl, hys⟩

theorem prefix_of_split_eq_cons (hsep : sep ≠ []) {xs p : List α} {ps : List (List α)}
    (h : split sep xs = p :: ps) : p <+: xs := by
  rcases split_eq_cons hsep h with ⟨-, rfl⟩ | ⟨ys, rfl, -⟩
  · exact List.prefix_rfl
  · exact List.prefix_append _ _

theorem infix_of_mem_split (hsep : sep ≠ []) {xs q : List α} (hq : q ∈ split sep xs) :
    q <:+: xs := by
  obtain ⟨n, hn⟩ : ∃ n, xs.length ≤ n := ⟨xs.length, Nat.le_refl _⟩
  induction n generalizing xs with
  | zero =>
      rw [List.length_eq_zero_iff.mp (Nat.le_zero.mp hn), split_nil, List.mem_singleton] at hq
      rw [hq]
      exact List.nil_infix
  | succ n ih =>
      obtain ⟨p, ps, hsplit⟩ := List.exists_cons_of_ne_nil (split_ne_nil sep xs)
      rw [hsplit, List.mem_cons] at hq
      cases hq with
      | inl hhead =>
          rw [hhead]
          exact (prefix_of_split_eq_cons hsep hsplit).isInfix
      | inr htail =>
          cases split_eq_cons hsep hsplit with
          | inl hlast =>
              rw [hlast.1] at htail
              exact absurd htail List.not_mem_nil
          | inr hmore =>
              obtain ⟨ys, rfl, rfl⟩ := hmore
              have hpos : 0 < sep.length := List.length_pos_iff.mpr hsep
              simp only [List.length_append] at hn
              have hys := ih htail (by omega)
              rw [← List.append_assoc]
              exact hys.trans (List.suffix_append _ _).isInfix

theorem not_infix_of_mem_split (hsep : sep ≠ []) {xs q : List α} (hq : q ∈ split sep xs) :
    ¬ sep <:+: q := by
  obtain ⟨n, hn⟩ : ∃ n, xs.length ≤ n := ⟨xs.length, Nat.le_refl _⟩
  induction n generalizing xs q with
  | zero =>
      rw [List.length_eq_zero_iff.mp (Nat.le_zero.mp hn), split_nil, List.mem_singleton] at hq
      rw [hq, List.infix_nil]
      exact hsep
  | succ n ih =>
      cases xs with
      | nil =>
          rw [split_nil, List.mem_singleton] at hq
          rw [hq, List.infix_nil]
          exact hsep
      | cons x xs =>
          rw [List.length_cons] at hn
          by_cases hx : sep <+: x :: xs
          · obtain ⟨ys, hys⟩ := hx
            have hpos : 0 < sep.length := List.length_pos_iff.mpr hsep
            have hlen := congrArg List.length hys
            simp only [List.length_append, List.length_cons] at hlen
            rw [← hys, split_sep_append hsep, List.mem_cons] at hq
            cases hq with
            | inl hnil =>
                rw [hnil, List.infix_nil]
                exact hsep
            | inr htail => exact ih htail (by omega)
          · obtain ⟨p, ps, hsplit⟩ := List.exists_cons_of_ne_nil (split_ne_nil sep xs)
            rw [split_cons_of_not hx, hsplit, List.modifyHead_cons, List.mem_cons] at hq
            cases hq with
            | inr htail =>
                have hmem : q ∈ split sep xs := hsplit ▸ List.mem_cons_of_mem p htail
                exact ih hmem (by omega)
            | inl hhead =>
                subst hhead
                intro hcontains
                cases List.infix_cons_iff.mp hcontains with
                | inl hpre =>
                    have hp := prefix_of_split_eq_cons hsep hsplit
                    exact hx (hpre.trans (List.cons_prefix_cons.mpr ⟨rfl, hp⟩))
                | inr hcontains =>
                    have hmem : p ∈ split sep xs := hsplit ▸ List.mem_cons_self
                    exact ih hmem (by omega) hcontains

theorem split_of_not_infix {p : List α} (hp : ¬ sep <:+: p) : split sep p = [p] := by
  induction p with
  | nil => rfl
  | cons x p ih =>
      have hx : ¬ sep <+: x :: p := fun h => hp h.isInfix
      have hrest : ¬ sep <:+: p := fun h => hp (h.trans (List.suffix_cons x p).isInfix)
      rw [split_cons_of_not hx, ih hrest, List.modifyHead_cons]

theorem split_eq_pair_iff {c : α} {xs p q : List α} :
    split [c] xs = [p, q] ↔ xs = p ++ c :: q ∧ c ∉ p ∧ c ∉ q := by
  constructor
  · intro h
    have free {r : List α} (hr : r ∈ split [c] xs) : c ∉ r := fun hmem =>
      not_infix_of_mem_split (List.cons_ne_nil c []) hr ((List.singleton_infix_iff c r).mpr hmem)
    have hp : c ∉ p := free (h ▸ List.mem_cons_self)
    have hq : c ∉ q := free (h ▸ List.mem_cons_of_mem p List.mem_cons_self)
    cases split_eq_cons (List.cons_ne_nil c []) h with
    | inl hlast => exact absurd hlast.1 (List.cons_ne_nil _ _)
    | inr hmore =>
        obtain ⟨ys, rfl, hys⟩ := hmore
        cases split_eq_cons (List.cons_ne_nil c []) hys with
        | inl hlast => exact ⟨by rw [hlast.2]; rfl, hp, hq⟩
        | inr hmore =>
            obtain ⟨zs, -, hzs⟩ := hmore
            exact absurd hzs (split_ne_nil [c] zs)
  · intro h
    rw [h.1]
    exact (split_append_sep h.2.1 [] q).trans (congrArg (p :: ·) (split_of_notMem h.2.2 []))

/-- A piece in which the separator does not begin, closed by a separator. -/
theorem split_append_sep_of_first (hsep : sep ≠ []) {p : List α}
    (first : ¬ sep <:+: p ++ sep.dropLast) (xs : List α) :
    split sep (p ++ (sep ++ xs)) = p :: split sep xs := by
  induction p with
  | nil => exact split_sep_append hsep xs
  | cons x p ih =>
      have hx : ¬ sep <+: x :: (p ++ (sep ++ xs)) := by
        intro h
        -- the occurrence would end before the last letter of the separator
        have hsplit : x :: (p ++ (sep ++ xs)) =
            (x :: p ++ sep.dropLast) ++ (sep.getLast hsep :: xs) := by
          have hlast : sep ++ xs = sep.dropLast ++ (sep.getLast hsep :: xs) := by
            rw [List.append_cons, List.dropLast_append_getLast hsep]
          rw [hlast]
          simp
        rw [hsplit] at h
        have hlen : sep.length ≤ (x :: p ++ sep.dropLast).length := by
          simp only [List.length_append, List.length_cons, List.length_dropLast]
          omega
        exact first (List.prefix_of_prefix_length_le h (List.prefix_append _ _) hlen).isInfix
      have hrest : ¬ sep <:+: p ++ sep.dropLast := fun h =>
        first (h.trans (List.suffix_cons x _).isInfix)
      rw [List.cons_append, split_cons_of_not hx, ih hrest, List.modifyHead_cons]

omit [DecidableEq α] in
/-- A word without the letter stands in front of it or behind it. -/
theorem infix_append_cons_iff {c : α} {w p s : List α} (hc : c ∉ w) :
    w <:+: p ++ c :: s ↔ w <:+: p ∨ w <:+: s := by
  constructor
  · rintro ⟨a, b, h⟩
    rcases List.append_eq_append_iff.mp h with ⟨x, hp, -⟩ | ⟨y, haw, hcs⟩
    · exact Or.inl ⟨a, x, hp.symm⟩
    · rcases y with _ | ⟨d, y⟩
      · rw [List.append_nil] at haw
        exact Or.inl ⟨a, [], by rw [List.append_nil, haw]⟩
      · obtain ⟨rfl, rfl⟩ := List.cons.inj hcs
        rcases List.append_eq_append_iff.mp haw with ⟨x, -, hw⟩ | ⟨z, -, hz⟩
        · exact absurd (hw ▸ List.mem_append_right x List.mem_cons_self) hc
        · rcases z with _ | ⟨e, z⟩
          · rw [← List.nil_append w, ← hz] at hc
            exact absurd List.mem_cons_self hc
          · rw [(List.cons.inj hz).2]
            exact Or.inr ⟨z, b, rfl⟩
  · intro h
    cases h with
    | inl hp => exact hp.trans (List.prefix_append p (c :: s)).isInfix
    | inr hs => exact hs.trans ((List.suffix_cons c s).trans (List.suffix_append p (c :: s))).isInfix

end Splitting
