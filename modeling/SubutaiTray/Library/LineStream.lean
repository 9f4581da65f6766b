import SubutaiTray.Library.Splitting

/-!
Lines read one letter at a time.

A line ends at its separator; what has no separator yet is pending. Every letter is counted
once, in a line or in what is pending.
-/
namespace LineStream

universe u
variable {α : Type u} [DecidableEq α] {sep : α}

structure Read (α : Type u) where
  done : List (List α)
  pending : List α
  deriving DecidableEq

def Read.empty : Read α := ⟨[], []⟩

def push (sep : α) (r : Read α) (c : α) : Read α :=
  if c = sep then ⟨r.done ++ [r.pending], []⟩ else ⟨r.done, r.pending ++ [c]⟩

def feed (sep : α) (r : Read α) (data : List α) : Read α := data.foldl (push sep) r

/-- The lines of a text that ends with a separator. -/
def lines (sep : α) (data : List α) : List (List α) := (Splitting.split [sep] data).dropLast

/-- The letters of the lines, their separators, and what is pending. -/
def Read.size (r : Read α) : Nat :=
  r.done.flatten.length + r.done.length + r.pending.length

@[simp] theorem size_push (r : Read α) (c : α) : (push sep r c).size = r.size + 1 := by
  rw [push]
  split
  · simp [Read.size]
    omega
  · simp [Read.size]
    omega

@[simp] theorem size_feed (r : Read α) (data : List α) :
    (feed sep r data).size = r.size + data.length := by
  induction data generalizing r with
  | nil => rfl
  | cons c data ih =>
      rw [feed, List.foldl_cons, ← feed, ih, size_push, List.length_cons]
      omega

theorem feed_append (r : Read α) (data more : List α) :
    feed sep r (data ++ more) = feed sep (feed sep r data) more :=
  List.foldl_append

theorem feed_eq_split (r : Read α) (h : sep ∉ r.pending) (data : List α) :
    (feed sep r data).done ++ [(feed sep r data).pending] =
      r.done ++ Splitting.split [sep] (r.pending ++ data) := by
  induction data generalizing r with
  | nil => rw [feed, List.foldl_nil, List.append_nil, Splitting.split_of_notMem h]
  | cons c data ih =>
      rw [feed, List.foldl_cons, ← feed, push]
      by_cases hc : c = sep
      · have hsplit := Splitting.split_append_sep h [] data
        rw [List.singleton_append] at hsplit
        rw [if_pos hc, ih _ List.not_mem_nil, hc, hsplit, List.nil_append, List.append_assoc]
        rfl
      · have hpending : sep ∉ r.pending ++ [c] := by
          simp [h, Ne.symm hc]
        rw [if_neg hc, ih _ hpending, List.append_assoc]
        rfl

theorem done_feed (data : List α) : (feed sep Read.empty data).done = lines sep data := by
  have h := @feed_eq_split α _ sep Read.empty List.not_mem_nil data
  rw [Read.empty, List.nil_append, List.nil_append, ← Read.empty] at h
  rw [lines, ← h, List.dropLast_concat]

theorem pending_feed_eq_nil_iff (data : List α) :
    (feed sep Read.empty data).pending = [] ↔ data = [] ∨ data.getLast? = some sep := by
  induction data using List.reverseRecOn with
  | nil => exact iff_of_true rfl (Or.inl rfl)
  | append_singleton data c =>
      rw [feed_append, feed, List.foldl_cons, List.foldl_nil, push]
      by_cases hc : c = sep
      · simp [hc]
      · simp [hc]

end LineStream
