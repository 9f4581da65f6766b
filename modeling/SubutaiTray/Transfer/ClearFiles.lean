import SubutaiTray.Library.Erasure
import SubutaiTray.Transfer.FileLines
import SubutaiTray.Transfer.TransferQueue

/-!
The table of the transfers and the entries beside it (`tw_transfer_file` and
`files_to_transfer`).

A row and its entry have the same place. Both are removed by `clear_files`, row by row, range by
range, by the places that the rows had when they were selected.
-/
namespace SubutaiTray.Transfer

/-- A row shows the file, its path, the destination, the size and the status. -/
structure TransferRow where
  id : Nat
  sourceFile : QString
  filePath : QString
  destinationDirectory : QString
  fileSize : QString
  fileStatus : QString
  deriving DecidableEq

structure TransferTable where
  rows : List TransferRow
  filesToTransfer : List FileToTransfer
  nextId : Nat
  aligned : rows.map TransferRow.id = filesToTransfer.map FileToTransfer.id
  nodup : (filesToTransfer.map FileToTransfer.id).Nodup
  older : ∀ file ∈ filesToTransfer, file.id < nextId

namespace TransferTable

def new : TransferTable where
  rows := []
  filesToTransfer := []
  nextId := 0
  aligned := rfl
  nodup := List.nodup_nil
  older _ h := absurd h List.not_mem_nil

def notYet : TransferFileStatus → QString
  | .toUpload => "Not yet uploaded".toList
  | .toDownload => "Not yet downloaded".toList
  | _ => "Not yet removed".toList

/-- The transfer itself is started elsewhere. -/
def fileTransferFieldAddFile (t : TransferTable) (file : OneFile) (destination : QString)
    (status : TransferFileStatus) : TransferTable where
  rows := t.rows ++
    [⟨t.nextId, file.fileName, file.filePath, destination, number file.fileSize, notYet status⟩]
  filesToTransfer := t.filesToTransfer ++ [⟨t.nextId, status⟩]
  nextId := t.nextId + 1
  aligned := by rw [List.map_append, List.map_append, t.aligned]; rfl
  nodup := by
    rw [List.map_append]
    refine List.nodup_append.mpr ⟨t.nodup, List.nodup_singleton _, ?_⟩
    intro id hid other hother
    obtain ⟨file, hmem, rfl⟩ := List.mem_map.mp hid
    rw [List.map_singleton, List.mem_singleton] at hother
    rw [hother]
    exact Nat.ne_of_lt (t.older file hmem)
  older := by
    rw [List.forall_mem_append, List.forall_mem_singleton]
    exact ⟨fun file hmem => Nat.lt_succ_of_lt (t.older file hmem), Nat.lt_succ_self _⟩

/-- The body of the inner loop. The entry behind the end cannot be erased. -/
def removeRow (t : TransferTable) (row : Nat) : Option TransferTable :=
  if row < t.filesToTransfer.length then
    some
      { rows := t.rows.eraseIdx row
        filesToTransfer := t.filesToTransfer.eraseIdx row
        nextId := t.nextId
        aligned := by rw [← List.eraseIdx_map, ← List.eraseIdx_map, t.aligned]
        nodup := t.nodup.sublist ((List.eraseIdx_sublist _ _).map _)
        older := fun file h => t.older file (List.mem_of_mem_eraseIdx h) }
  else none

def clearFiles (t : TransferTable) (selectedRanges : List SelectionRange) : Option TransferTable :=
  if selectedRanges = [] then
    some
      { rows := []
        filesToTransfer := []
        nextId := t.nextId
        aligned := rfl
        nodup := List.nodup_nil
        older := fun _ h => absurd h List.not_mem_nil }
  else (selectedRanges.flatMap SelectionRange.rows).foldlM removeRow t

end TransferTable

/-! ## Selections -/

def SelectionRange.contains (range : SelectionRange) (row : Nat) : Bool :=
  range.topRow ≤ row && row ≤ range.bottomRow

/-- What is not selected. Nothing selected counts as everything. -/
def unselected {α : Type} (selectedRanges : List SelectionRange) (xs : List α) : List α :=
  if selectedRanges = [] then []
  else (xs.zipIdx.filter fun x => !selectedRanges.any fun range => range.contains x.2).map Prod.fst

/-- Ranges of the table that have no row in common, in any order. -/
structure Selection (t : TransferTable) where
  ranges : List SelectionRange
  disjoint : ranges.Pairwise fun a b => a.bottomRow < b.topRow ∨ b.bottomRow < a.topRow
  inside : ∀ range ∈ ranges, range.bottomRow < t.rows.length

/-- Rows and entries that are left are the unselected ones; no erasure is out of range. -/
def TransferTable.Clears (t : TransferTable) (selection : Selection t) : Prop :=
  ∃ t', t.clearFiles selection.ranges = some t' ∧
    t'.rows = unselected selection.ranges t.rows ∧
    t'.filesToTransfer = unselected selection.ranges t.filesToTransfer

/-- Every range stands above those before it. -/
def Selection.Descending {t : TransferTable} (selection : Selection t) : Prop :=
  selection.ranges.Pairwise fun a b => b.bottomRow < a.topRow

namespace SelectionRange

theorem mem_rows_iff (range : SelectionRange) (row : Nat) :
    row ∈ range.rows ↔ range.topRow ≤ row ∧ row ≤ range.bottomRow := by
  have hordered := range.ordered
  rw [rows, List.mem_reverse, List.mem_range'_1]
  omega

theorem contains_iff (range : SelectionRange) (row : Nat) : range.contains row = true ↔ row ∈ range.rows := by
  rw [mem_rows_iff, contains, Bool.and_eq_true, decide_eq_true_eq, decide_eq_true_eq]

/-- The rows of a range are taken from below. -/
theorem pairwise_rows (range : SelectionRange) : range.rows.Pairwise (· > ·) := by
  rw [rows, List.pairwise_reverse]
  exact List.pairwise_lt_range'

end SelectionRange

theorem unselected_eq_keep {α : Type} {selectedRanges : List SelectionRange} (h : selectedRanges ≠ [])
    (xs : List α) :
    unselected selectedRanges xs = Erasure.keep (selectedRanges.flatMap SelectionRange.rows) xs := by
  rw [unselected, if_neg h, Erasure.keep, Erasure.keepFrom]
  congr 1
  refine List.filter_congr fun x _ => ?_
  have hany : (selectedRanges.any fun range => range.contains x.2) =
      decide (x.2 ∈ selectedRanges.flatMap SelectionRange.rows) := by
    rw [Bool.eq_iff_iff, List.any_eq_true, decide_eq_true_eq, List.mem_flatMap]
    exact exists_congr fun range => and_congr_right fun _ => range.contains_iff x.2
  rw [hany, decide_not]

namespace Selection

variable {t : TransferTable} (selection : Selection t)

def rows : List Nat := selection.ranges.flatMap SelectionRange.rows

theorem rows_lt : ∀ row ∈ selection.rows, row < t.rows.length := by
  intro row hrow
  obtain ⟨range, hrange, hmem⟩ := List.mem_flatMap.mp hrow
  exact Nat.lt_of_le_of_lt ((range.mem_rows_iff row).mp hmem).2 (selection.inside range hrange)

/-- A relation that two ranges have when all their rows have it. -/
theorem pairwise_rows_iff {r : Nat → Nat → Prop} {R : SelectionRange → SelectionRange → Prop}
    (hdown : ∀ {a b : Nat}, a > b → r a b)
    (h : ∀ a b : SelectionRange, (∀ x ∈ a.rows, ∀ y ∈ b.rows, r x y) ↔ R a b) :
    selection.rows.Pairwise r ↔ selection.ranges.Pairwise R := by
  rw [rows, List.pairwise_flatMap, and_iff_right fun range _ => range.pairwise_rows.imp hdown]
  exact List.Pairwise.iff h

theorem nodup_rows : selection.rows.Nodup := by
  refine (selection.pairwise_rows_iff (fun h => Nat.ne_of_gt h) fun a b => ?_).mpr selection.disjoint
  have ha := a.ordered
  have hb := b.ordered
  simp only [SelectionRange.mem_rows_iff]
  constructor
  · intro h
    by_contra hmeet
    have hcommon := h (max a.topRow b.topRow) (by omega) (max a.topRow b.topRow) (by omega)
    exact hcommon rfl
  · intro h x hx y hy
    omega

theorem descending_iff : selection.rows.Pairwise (· > ·) ↔ selection.Descending := by
  refine selection.pairwise_rows_iff id fun a b => ?_
  have ha := a.ordered
  have hb := b.ordered
  simp only [SelectionRange.mem_rows_iff]
  constructor
  · intro h
    exact h a.topRow (by omega) b.bottomRow (by omega)
  · intro h x hx y hy
    omega

end Selection

namespace TransferTable

theorem length_rows (t : TransferTable) : t.rows.length = t.filesToTransfer.length := by
  have h := congrArg List.length t.aligned
  rwa [List.length_map, List.length_map] at h

/-- Both containers lose the same places. -/
theorem foldlM_removeRow (rows : List Nat) (t : TransferTable) :
    (rows.foldlM removeRow t).map TransferTable.rows = Erasure.eraseAll t.rows rows ∧
      (rows.foldlM removeRow t).map TransferTable.filesToTransfer =
        Erasure.eraseAll t.filesToTransfer rows := by
  induction rows generalizing t with
  | nil => exact ⟨rfl, rfl⟩
  | cons row rows ih =>
      rw [Erasure.eraseAll, Erasure.eraseAll, List.foldlM_cons, List.foldlM_cons, List.foldlM_cons,
        removeRow, Erasure.eraseAt, Erasure.eraseAt, t.length_rows]
      split
      · exact ih _
      · exact ⟨rfl, rfl⟩

/-- The entries go as those of the queue do. -/
theorem filesToTransfer_clearFiles {selectedRanges : List SelectionRange} (h : selectedRanges ≠ [])
    (t : TransferTable) :
    (t.clearFiles selectedRanges).map TransferTable.filesToTransfer =
      removeRanges t.filesToTransfer selectedRanges := by
  rw [clearFiles, if_neg h]
  exact (foldlM_removeRow _ t).2

/-- Exactly the unselected rows and entries are left if and only if the ranges come from below. -/
theorem clears_iff_descending (t : TransferTable) (selection : Selection t) :
    t.Clears selection ↔ selection.Descending := by
  by_cases hnone : selection.ranges = []
  · rw [Clears, Selection.Descending, hnone, clearFiles, if_pos rfl, unselected, unselected, if_pos rfl,
      if_pos rfl]
    exact iff_of_true ⟨_, rfl, rfl, rfl⟩ List.Pairwise.nil
  · obtain ⟨hrows, hfiles⟩ := foldlM_removeRow selection.rows t
    have hnodup : t.filesToTransfer.Nodup := List.Nodup.of_map _ t.nodup
    have hlt : ∀ row ∈ selection.rows, row < t.filesToTransfer.length := by
      rw [← t.length_rows]
      exact selection.rows_lt
    have herase := Erasure.eraseAll_eq_iff hnodup selection.nodup_rows hlt
    rw [← selection.descending_iff, ← herase, Clears, clearFiles, if_neg hnone,
      unselected_eq_keep hnone, unselected_eq_keep hnone, ← Selection.rows]
    constructor
    · rintro ⟨t', hclear, -, hleft⟩
      rw [← hfiles, hclear, Option.map_some, hleft]
    · intro hall
      have hdesc := herase.mp hall
      rw [hall] at hfiles
      rw [Erasure.eraseAll_of_descending hdesc selection.rows_lt] at hrows
      obtain ⟨t', hclear, hleft⟩ := Option.map_eq_some_iff.mp hfiles
      rw [hclear, Option.map_some, Option.some.injEq] at hrows
      exact ⟨t', hclear, hrows, hleft⟩

def file (name : QString) : OneFile := ⟨name, '/' :: name, [], 1, .simple⟩

/-- Four uploads. -/
def fourFiles : TransferTable :=
  [file ['a'], file ['b'], file ['c'], file ['d']].foldl
    (fun t one => t.fileTransferFieldAddFile one ['/'] .toUpload) new

/-- The first and the third. -/
def firstAndThird : Selection fourFiles where
  ranges := [⟨0, 0, Nat.le_refl 0⟩, ⟨2, 2, Nat.le_refl 2⟩]
  disjoint := by decide
  inside := by decide

/-- The fourth goes instead of the third. -/
theorem not_clears_firstAndThird : ¬ fourFiles.Clears firstAndThird := by
  rintro ⟨t', hclear, -, hleft⟩
  have hfiles : (fourFiles.clearFiles firstAndThird.ranges).map TransferTable.filesToTransfer =
      some [⟨1, .toUpload⟩, ⟨2, .toUpload⟩] := by
    decide +kernel
  rw [hclear, Option.map_some, hleft] at hfiles
  revert hfiles
  decide +kernel

end TransferTable

end SubutaiTray.Transfer
