import Mathlib.Data.List.Basic

/-!
The erase-remove loop over an array whose elements are copied.

`removeIf` reads the array from left to right and copies every element it keeps
to the write position, which never overtakes the read position. The kept elements
come first, in order; the places behind them hold what they held before, not the
elements that were removed.
-/
namespace RemoveIf

universe u
variable {α : Type u} (remove : α → Bool)

/-- One turn: the array, the write position and the read position. -/
def turn (state : List α × Nat) (first : Nat) : List α × Nat :=
  match state.1[first]? with
  | none => state
  | some x => if remove x then state else (state.1.set state.2 x, state.2 + 1)

/-- The array the loop leaves behind and the end of its kept part. -/
def removeIf (xs : List α) : List α × Nat :=
  (List.range xs.length).foldl (turn remove) (xs, 0)

def kept (xs : List α) : List α := xs.filter fun x => !remove x

/-- The elements behind the kept ones when the loop is over. -/
def leftBehind (xs : List α) : List α := xs.drop (kept remove xs).length

theorem length_kept_le (xs : List α) : (kept remove xs).length ≤ xs.length :=
  List.length_filter_le _ xs

theorem foldl_turn (xs : List α) (n : Nat) (hn : n ≤ xs.length) :
    (List.range n).foldl (turn remove) (xs, 0) =
      (kept remove (xs.take n) ++ xs.drop (kept remove (xs.take n)).length,
        (kept remove (xs.take n)).length) := by
  induction n with
  | zero => rfl
  | succ n ih =>
      obtain ⟨x, hx⟩ : ∃ x, xs[n]? = some x := ⟨xs[n], List.getElem?_eq_getElem hn⟩
      have hle : (kept remove (xs.take n)).length ≤ n :=
        Nat.le_trans (length_kept_le remove _) (List.length_take_le n xs)
      have hread : (kept remove (xs.take n) ++ xs.drop (kept remove (xs.take n)).length)[n]? =
          some x := by
        rw [List.getElem?_append_right hle, List.getElem?_drop, Nat.add_sub_cancel' hle, hx]
      have htake : xs.take (n + 1) = xs.take n ++ [x] := by
        rw [List.take_add_one, hx, Option.toList_some]
      rw [List.range_succ, List.foldl_append, ih (by omega), List.foldl_cons, List.foldl_nil,
        turn, hread, htake]
      by_cases hremove : remove x = true
      · have hsame : kept remove (xs.take n ++ [x]) = kept remove (xs.take n) := by
          simp [kept, hremove]
        simp [hremove, hsame]
      · have hmore : kept remove (xs.take n ++ [x]) = kept remove (xs.take n) ++ [x] := by
          simp [kept, hremove]
        have hpos : (kept remove (xs.take n)).length < xs.length := by omega
        -- the write position is the first place behind the kept part
        have hset : (kept remove (xs.take n) ++ xs.drop (kept remove (xs.take n)).length).set
            (kept remove (xs.take n)).length x =
            kept remove (xs.take n) ++ x :: xs.drop ((kept remove (xs.take n)).length + 1) := by
          rw [List.set_append_right _ _ (Nat.le_refl _), Nat.sub_self,
            List.drop_eq_getElem_cons hpos, List.set_cons_zero]
        simp [hremove, hmore, hset]

theorem removeIf_eq (xs : List α) :
    removeIf remove xs = (kept remove xs ++ leftBehind remove xs, (kept remove xs).length) := by
  have := foldl_turn remove xs xs.length (Nat.le_refl _)
  rwa [List.take_length] at this

end RemoveIf
