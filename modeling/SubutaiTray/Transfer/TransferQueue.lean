import Mathlib.Data.List.Count
import Mathlib.Data.List.Nodup
import Mathlib.Data.List.TakeWhile
import SubutaiTray.Library.Runs

/-!
The queue of transfers (`files_to_transfer` of `DlgTransferFile`).

An operation keeps the row from which it was started. Which entry stood there, and which
entries stood above it, is recorded beside it; the code does not know it.
-/
namespace SubutaiTray.Transfer

inductive TransferFileStatus where
  | withoutOperation
  | toUpload
  | failedToUpload
  | finishedUpload
  | toDownload
  | finishedDownload
  | failedToDownload
  | toRemoveLocal
  | toRemoveRemote
  | finishedRemove
  | failedToRemoveLocal
  | failedToRemoveRemote
  deriving DecidableEq

inductive Operation where
  | upload
  | download
  | removeRemote
  | removeLocal
  deriving DecidableEq

/-- The operation that `transfer_file` starts. -/
def TransferFileStatus.operation : TransferFileStatus → Option Operation
  | .toUpload | .failedToUpload => some .upload
  | .toDownload | .failedToDownload => some .download
  | .toRemoveRemote | .failedToRemoveRemote => some .removeRemote
  | .toRemoveLocal | .failedToRemoveLocal => some .removeLocal
  | .withoutOperation | .finishedUpload | .finishedDownload | .finishedRemove => none

def TransferFileStatus.isFinished : TransferFileStatus → Bool
  | .finishedDownload | .finishedUpload | .finishedRemove => true
  | _ => false

/-- The status after `transfer_finished`. -/
def TransferFileStatus.finish (success : Bool) : TransferFileStatus → TransferFileStatus
  | .toUpload | .failedToUpload => if success then .finishedUpload else .failedToUpload
  | .toDownload | .failedToDownload => if success then .finishedDownload else .failedToDownload
  | .toRemoveRemote | .failedToRemoveRemote =>
      if success then .finishedRemove else .failedToRemoveRemote
  | .toRemoveLocal | .failedToRemoveLocal =>
      if success then .finishedRemove else .failedToRemoveLocal
  | status => status

/-- A selected entry before its transfer. The removals that failed keep their status. -/
def TransferFileStatus.retry : TransferFileStatus → TransferFileStatus
  | .failedToDownload => .toDownload
  | .failedToUpload => .toUpload
  | status => status

structure FileToTransfer where
  id : Nat
  status : TransferFileStatus
  deriving DecidableEq

structure InFlight where
  id : Nat
  row : Nat
  operation : Operation
  /-- The entries above, when the operation was started. -/
  above : List Nat
  deriving DecidableEq

structure TransferQueue where
  filesToTransfer : List FileToTransfer
  inFlight : List InFlight
  nextId : Nat
  deriving DecidableEq

/-- A range of selected rows. -/
structure SelectionRange where
  topRow : Nat
  bottomRow : Nat
  ordered : topRow ≤ bottomRow

def SelectionRange.rows (range : SelectionRange) : List Nat :=
  (List.range' range.topRow (range.bottomRow + 1 - range.topRow)).reverse

/-- The selected ranges lie within the table, in any order. -/
inductive TransferEvent where
  | addFile (status : TransferFileStatus) (instantTransfer : Bool)
  | startTransferFiles (selectedRanges : List SelectionRange)
  | clearFiles (selectedRanges : List SelectionRange)
  | transferFinished (op : InFlight) (success : Bool)

/-- `files_to_transfer.erase`, which is not defined behind the end. -/
def eraseRow (files : List FileToTransfer) (row : Nat) : Option (List FileToTransfer) :=
  if row < files.length then some (files.eraseIdx row) else none

def removeRanges (files : List FileToTransfer) (selectedRanges : List SelectionRange) :
    Option (List FileToTransfer) :=
  (selectedRanges.flatMap SelectionRange.rows).foldlM eraseRow files

namespace TransferQueue

def new : TransferQueue := ⟨[], [], 0⟩

def transferFile (s : TransferQueue) (row : Nat) : TransferQueue :=
  match s.filesToTransfer[row]? with
  | none => s
  | some file =>
      match file.status.operation with
      | none => s
      | some operation =>
          let above := (s.filesToTransfer.take row).map FileToTransfer.id
          { s with inFlight := ⟨file.id, row, operation, above⟩ :: s.inFlight }

def pushBack (s : TransferQueue) (status : TransferFileStatus) : TransferQueue :=
  { s with
    filesToTransfer := s.filesToTransfer ++ [⟨s.nextId, status⟩]
    nextId := s.nextId + 1 }

def addFile (s : TransferQueue) (status : TransferFileStatus) (instantTransfer : Bool) :
    TransferQueue :=
  if instantTransfer then (s.pushBack status).transferFile s.filesToTransfer.length
  else s.pushBack status

/-- The body of the loop over all rows. -/
def startRow (s : TransferQueue) (row : Nat) : TransferQueue :=
  match s.filesToTransfer[row]? with
  | none => s
  | some file => if file.status.isFinished then s else s.transferFile row

def retry (s : TransferQueue) (row : Nat) : TransferQueue :=
  { s with
    filesToTransfer :=
      s.filesToTransfer.modify row fun file => { file with status := file.status.retry } }

/-- The body of the loop over the selected rows. -/
def startSelectedRow (s : TransferQueue) (row : Nat) : TransferQueue :=
  match s.filesToTransfer[row]? with
  | none => s
  | some file => if file.status.isFinished then s else (s.retry row).transferFile row

def startTransferFiles (s : TransferQueue) (selectedRanges : List SelectionRange) : TransferQueue :=
  if selectedRanges = [] then (List.range s.filesToTransfer.length).foldl startRow s
  else (selectedRanges.flatMap SelectionRange.rows).foldl startSelectedRow s

/-- Nothing is known of what an erasure behind the end does. -/
def clearFiles (s : TransferQueue) (selectedRanges : List SelectionRange) : TransferQueue :=
  if selectedRanges = [] then { s with filesToTransfer := [] }
  else
    match removeRanges s.filesToTransfer selectedRanges with
    | none => s
    | some files => { s with filesToTransfer := files }

/-- A row without an item in the table is left alone. -/
def transferFinished (s : TransferQueue) (row : Nat) (success : Bool) : TransferQueue :=
  { s with
    filesToTransfer :=
      s.filesToTransfer.modify row fun file => { file with status := file.status.finish success } }

def Selected (s : TransferQueue) (selectedRanges : List SelectionRange) : Prop :=
  ∀ range ∈ selectedRanges, range.bottomRow < s.filesToTransfer.length

instance (s : TransferQueue) (selectedRanges : List SelectionRange) :
    Decidable (s.Selected selectedRanges) :=
  inferInstanceAs (Decidable (∀ range ∈ selectedRanges, _))

def step (s : TransferQueue) : TransferEvent → Option TransferQueue
  | .addFile status instantTransfer => some (s.addFile status instantTransfer)
  | .startTransferFiles selectedRanges =>
      if s.Selected selectedRanges then some (s.startTransferFiles selectedRanges) else none
  | .clearFiles selectedRanges =>
      if s.Selected selectedRanges then some (s.clearFiles selectedRanges) else none
  | .transferFinished op success =>
      if op ∈ s.inFlight then
        some (transferFinished { s with inFlight := s.inFlight.erase op } op.row success)
      else none

end TransferQueue

/-! ## What is right, and when -/

def Operation.outcome (success : Bool) : Operation → TransferFileStatus
  | .upload => if success then .finishedUpload else .failedToUpload
  | .download => if success then .finishedDownload else .failedToDownload
  | .removeRemote => if success then .finishedRemove else .failedToRemoveRemote
  | .removeLocal => if success then .finishedRemove else .failedToRemoveLocal

def TransferFileStatus.hasFailed : TransferFileStatus → Bool
  | .failedToUpload | .failedToDownload | .failedToRemoveRemote | .failedToRemoveLocal => true
  | _ => false

/-- What the loops and the completions see of an entry. -/
def FileToTransfer.key (file : FileToTransfer) : Nat × Option Operation :=
  (file.id, file.status.operation)

def begins (keys : List (Nat × Option Operation)) (row : Nat) : Option InFlight :=
  keys[row]?.bind fun key =>
    key.2.map fun operation => ⟨key.1, row, operation, (keys.take row).map Prod.fst⟩

/-- Each range is still within the rows when its turn comes. -/
def Within : Nat → List SelectionRange → Prop
  | _, [] => True
  | n, range :: rest => range.bottomRow < n ∧ Within (n - range.rows.length) rest

/-- The row of an operation counts the entries above its own at its start; those that are above its own
now are the ones of them that are still there. -/
structure Placed (ids : List Nat) (op : InFlight) : Prop where
  row : op.row = op.above.length
  above : op.id ∈ ids → ids.takeWhile (· ≠ op.id) = op.above.filter (· ∈ ids)

namespace TransferQueue

def keys (s : TransferQueue) : List (Nat × Option Operation) :=
  s.filesToTransfer.map FileToTransfer.key

def ids (s : TransferQueue) : List Nat := s.filesToTransfer.map FileToTransfer.id

/-- An entry has at most one operation in flight. -/
def OneEach (s : TransferQueue) : Prop :=
  ∀ file ∈ s.filesToTransfer, (s.inFlight.map InFlight.id).count file.id ≤ 1

/-- A completion sets the status of its own entry, if that is still there, and of no other.
Nothing is erased behind the end. -/
def Routed (s : TransferQueue) : TransferEvent → Prop
  | .transferFinished op success =>
      op.row < s.filesToTransfer.length ∧
        (s.transferFinished op.row success).filesToTransfer =
          s.filesToTransfer.map fun file =>
            if file.id = op.id then { file with status := op.operation.outcome success } else file
  | .clearFiles selectedRanges => (removeRanges s.filesToTransfer selectedRanges).isSome = true
  | _ => True

def visited (s : TransferQueue) (selectedRanges : List SelectionRange) : List Nat :=
  if selectedRanges = [] then List.range s.filesToTransfer.length
  else selectedRanges.flatMap SelectionRange.rows

def started (s : TransferQueue) (selectedRanges : List SelectionRange) : List Nat :=
  ((s.visited selectedRanges).filterMap (begins s.keys)).map InFlight.id

/-- No entry is started twice or while it has an operation in flight. Between the start and the completion
of an operation neither its entry nor one above it is cleared; or else the completion leaves alone the entry
that now has as many above it, and its own is gone or has failed before and fails again. -/
def Harmless (s : TransferQueue) : TransferEvent → Prop
  | .addFile _ _ => True
  | .startTransferFiles selectedRanges =>
      (s.started selectedRanges).Nodup ∧
        ∀ id ∈ s.started selectedRanges, id ∉ s.inFlight.map InFlight.id
  | .clearFiles selectedRanges => Within s.filesToTransfer.length selectedRanges
  | .transferFinished op success =>
      (op.id ∈ s.ids ∧ ∀ id ∈ op.above, id ∈ s.ids) ∨
        (∃ other, s.filesToTransfer[op.above.length]? = some other ∧
          (other.status.operation = none ∨ success = false ∧ other.status.hasFailed = true)) ∧
          ∀ own ∈ s.filesToTransfer, own.id = op.id →
            success = false ∧ own.status = op.operation.outcome false

/-- Entries have different numbers, and the operation of an entry fits its status. -/
structure Inv (s : TransferQueue) : Prop where
  nodup : (s.keys.map Prod.fst).Nodup
  older : ∀ key ∈ s.keys, key.1 < s.nextId
  begun : ∀ op ∈ s.inFlight, op.id < s.nextId ∧ ∀ id ∈ op.above, id < s.nextId
  same : ∀ op ∈ s.inFlight, ∀ key ∈ s.keys, key.1 = op.id → key.2 = some op.operation
  placed : ∀ op ∈ s.inFlight, Placed (s.keys.map Prod.fst) op

end TransferQueue

/-! ## The status of one entry -/

namespace TransferFileStatus

theorem operation_retry (status : TransferFileStatus) : status.retry.operation = status.operation := by
  cases status <;> rfl

theorem operation_of_isFinished {status : TransferFileStatus} (h : status.isFinished = true) :
    status.operation = none := by
  cases status with
  | finishedUpload | finishedDownload | finishedRemove => rfl
  | withoutOperation | toUpload | failedToUpload | toDownload | failedToDownload | toRemoveLocal
  | toRemoveRemote | failedToRemoveLocal | failedToRemoveRemote => exact absurd h Bool.false_ne_true

theorem finish_of_operation {status : TransferFileStatus} {operation : Operation}
    (h : status.operation = some operation) (success : Bool) :
    status.finish success = operation.outcome success := by
  cases status <;> simp only [TransferFileStatus.operation, reduceCtorEq, Option.some.injEq] at h <;>
    rw [← h] <;> rfl

theorem finish_eq_self_iff (status : TransferFileStatus) (success : Bool) :
    status.finish success = status ↔
      status.operation = none ∨ success = false ∧ status.hasFailed = true := by
  cases success <;> cases status <;> decide

/-- An entry that has an operation can only have the status of its failure. -/
theorem outcome_eq_iff {status : TransferFileStatus} {operation : Operation}
    (h : status.operation = some operation) (success : Bool) :
    operation.outcome success = status ↔ success = false ∧ status = operation.outcome false := by
  rw [← finish_of_operation h, ← finish_of_operation h]
  cases success <;> cases status <;> simp [finish, TransferFileStatus.operation] at h ⊢

end TransferFileStatus

/-! ## Starting -/

/-- `t` is `s` after the start of the operation of a row, if it has one. -/
structure TransferQueue.Starts (s : TransferQueue) (row : Nat) (t : TransferQueue) : Prop where
  keys : t.keys = s.keys
  nextId : t.nextId = s.nextId
  inFlight : t.inFlight = (begins s.keys row).toList ++ s.inFlight

namespace TransferQueue

theorem begins_keys (s : TransferQueue) (row : Nat) :
    begins s.keys row = s.filesToTransfer[row]?.bind fun file =>
      file.status.operation.map fun operation =>
        ⟨file.id, row, operation, (s.filesToTransfer.take row).map FileToTransfer.id⟩ := by
  rw [begins, keys, List.getElem?_map, Option.bind_map, ← List.map_take, List.map_map]
  rfl

theorem starts_self {s : TransferQueue} {row : Nat} (h : begins s.keys row = none) :
    s.Starts row s := by
  refine ⟨rfl, rfl, ?_⟩
  rw [h]
  rfl

theorem starts_missing {s : TransferQueue} {row : Nat} (h : s.filesToTransfer[row]? = none) :
    s.Starts row s := by
  apply starts_self
  rw [begins_keys, h]
  rfl

theorem starts_isFinished {s : TransferQueue} {row : Nat} {file : FileToTransfer}
    (h : s.filesToTransfer[row]? = some file) (hfinished : file.status.isFinished = true) :
    s.Starts row s := by
  apply starts_self
  rw [begins_keys, h, Option.bind_some, TransferFileStatus.operation_of_isFinished hfinished]
  rfl

theorem starts_transferFile (s : TransferQueue) (row : Nat) : s.Starts row (s.transferFile row) := by
  have hbegins := s.begins_keys row
  rw [transferFile]
  split
  · rename_i hfile
    exact starts_missing hfile
  · rename_i file hfile
    rw [hfile, Option.bind_some] at hbegins
    split
    · rename_i hoperation
      exact starts_self (by rw [hbegins, hoperation]; rfl)
    · rename_i operation hoperation
      refine ⟨rfl, rfl, ?_⟩
      rw [hbegins, hoperation]
      rfl

theorem starts_startRow (s : TransferQueue) (row : Nat) : s.Starts row (s.startRow row) := by
  rw [startRow]
  split
  · rename_i hfile
    exact starts_missing hfile
  · rename_i file hfile
    split
    · rename_i hfinished
      exact starts_isFinished hfile hfinished
    · exact s.starts_transferFile row

theorem keys_retry (s : TransferQueue) (row : Nat) : (s.retry row).keys = s.keys := by
  apply List.ext_getElem?
  intro i
  simp only [keys, retry, List.getElem?_map, List.getElem?_modify]
  cases s.filesToTransfer[i]? with
  | none => rfl
  | some file =>
      by_cases h : row = i
      · simp [h, FileToTransfer.key, TransferFileStatus.operation_retry]
      · simp [h]

theorem starts_startSelectedRow (s : TransferQueue) (row : Nat) :
    s.Starts row (s.startSelectedRow row) := by
  rw [startSelectedRow]
  split
  · rename_i hfile
    exact starts_missing hfile
  · rename_i file hfile
    split
    · rename_i hfinished
      exact starts_isFinished hfile hfinished
    · have hstarts := (s.retry row).starts_transferFile row
      refine ⟨hstarts.keys.trans (s.keys_retry row), hstarts.nextId, ?_⟩
      rw [hstarts.inFlight, keys_retry]
      rfl

/-- What a loop of starts does. -/
theorem foldl_starts {f : TransferQueue → Nat → TransferQueue}
    (hf : ∀ (s : TransferQueue) (row : Nat), s.Starts row (f s row)) (rows : List Nat)
    (s : TransferQueue) :
    (rows.foldl f s).keys = s.keys ∧ (rows.foldl f s).nextId = s.nextId ∧
      (rows.foldl f s).inFlight = (rows.filterMap (begins s.keys)).reverse ++ s.inFlight := by
  induction rows generalizing s with
  | nil => exact ⟨rfl, rfl, rfl⟩
  | cons row rows ih =>
      obtain ⟨hkeys, hnext, hinFlight⟩ := ih (f s row)
      have hrow := hf s row
      rw [hrow.keys] at hkeys hinFlight
      refine ⟨hkeys, hnext.trans hrow.nextId, ?_⟩
      rw [List.foldl_cons, hinFlight, hrow.inFlight, List.filterMap_cons]
      cases begins s.keys row with
      | none => rfl
      | some op => simp

theorem startTransferFiles_spec (s : TransferQueue) (selectedRanges : List SelectionRange) :
    (s.startTransferFiles selectedRanges).keys = s.keys ∧
      (s.startTransferFiles selectedRanges).nextId = s.nextId ∧
      (s.startTransferFiles selectedRanges).inFlight =
        ((s.visited selectedRanges).filterMap (begins s.keys)).reverse ++ s.inFlight := by
  rw [startTransferFiles, visited]
  split
  · exact foldl_starts starts_startRow _ s
  · exact foldl_starts starts_startSelectedRow _ s

end TransferQueue

/-! ## Removing -/

theorem eraseRow_sublist {files files' : List FileToTransfer} {row : Nat}
    (h : eraseRow files row = some files') : files'.Sublist files := by
  rw [eraseRow] at h
  split at h
  · rw [← Option.some.inj h]
    exact List.eraseIdx_sublist files row
  · exact absurd h.symm (Option.some_ne_none _)

theorem removeRanges_sublist {files files' : List FileToTransfer}
    {selectedRanges : List SelectionRange} (h : removeRanges files selectedRanges = some files') :
    files'.Sublist files := by
  refine @Runs.invariant_of_foldlM _ _ _ _ (fun rest => rest.Sublist files) (List.Sublist.refl _) ?_
    _ _ h
  intro rest row rest' hrest hrow
  exact (eraseRow_sublist hrow).trans hrest

/-- The rows of a range are erased from below. -/
theorem foldlM_eraseRow_range' (top k : Nat) (files : List FileToTransfer)
    (h : top + k ≤ files.length) :
    ∃ rest, (List.range' top k).reverse.foldlM eraseRow files = some rest ∧
      rest.length = files.length - k := by
  induction k generalizing files with
  | zero => exact ⟨files, rfl, rfl⟩
  | succ k ih =>
      have hrow : top + k < files.length := by omega
      have hlength : (files.eraseIdx (top + k)).length = files.length - 1 := by
        rw [List.length_eraseIdx, if_pos hrow]
      obtain ⟨rest, hrest, hlen⟩ := ih (files.eraseIdx (top + k)) (by omega)
      refine ⟨rest, ?_, by omega⟩
      rw [List.range'_concat, List.reverse_append, List.reverse_singleton, List.singleton_append,
        List.foldlM_cons, Nat.one_mul, eraseRow, if_pos hrow]
      exact hrest

theorem SelectionRange.length_rows (range : SelectionRange) :
    range.rows.length = range.bottomRow + 1 - range.topRow := by
  simp [rows]

theorem foldlM_eraseRow_rows (range : SelectionRange) (files : List FileToTransfer) :
    if range.bottomRow < files.length then
      ∃ rest, range.rows.foldlM eraseRow files = some rest ∧
        rest.length = files.length - range.rows.length
    else range.rows.foldlM eraseRow files = none := by
  have hordered := range.ordered
  split
  · rename_i h
    rw [range.length_rows]
    exact foldlM_eraseRow_range' _ _ files (by omega)
  · rename_i h
    have hcount : range.bottomRow + 1 - range.topRow = (range.bottomRow - range.topRow) + 1 := by
      omega
    have hrow : range.topRow + (range.bottomRow - range.topRow) = range.bottomRow := by omega
    rw [SelectionRange.rows, hcount, List.range'_concat, List.reverse_append, List.reverse_singleton,
      List.singleton_append, List.foldlM_cons, Nat.one_mul, hrow, eraseRow, if_neg h]
    rfl

theorem removeRanges_isSome_iff (selectedRanges : List SelectionRange)
    (files : List FileToTransfer) :
    (removeRanges files selectedRanges).isSome = true ↔ Within files.length selectedRanges := by
  induction selectedRanges generalizing files with
  | nil => exact iff_of_true rfl trivial
  | cons range rest ih =>
      have hrange := foldlM_eraseRow_rows range files
      rw [removeRanges, List.flatMap_cons, List.foldlM_append, Within]
      split at hrange
      · rename_i h
        obtain ⟨files', heq, hlength⟩ := hrange
        rw [heq, and_iff_right h, ← hlength, ← ih]
        rfl
      · rename_i h
        rw [hrange]
        exact iff_of_false Bool.false_ne_true fun hwithin => h hwithin.1

/-! ## What stands above an entry -/

section Above

variable {ids sub : List Nat} {id row : Nat}

theorem takeWhile_filter_of_pos {p : Nat → Bool} (h : p id = true) (ids : List Nat) :
    (ids.filter p).takeWhile (· ≠ id) = (ids.takeWhile (· ≠ id)).filter p := by
  induction ids with
  | nil => rfl
  | cons first rest ih =>
      by_cases hfirst : first = id
      · simp [hfirst, h]
      · rw [List.takeWhile_cons_of_pos (by simpa using hfirst)]
        cases hkept : p first with
        | false =>
            rw [List.filter_cons_of_neg (by simp [hkept]), List.filter_cons_of_neg (by simp [hkept]), ih]
        | true =>
            rw [List.filter_cons_of_pos hkept, List.filter_cons_of_pos hkept,
              List.takeWhile_cons_of_pos (by simpa using hfirst), ih]

theorem eq_filter_of_sublist (hnodup : ids.Nodup) (hsub : sub.Sublist ids) :
    sub = ids.filter (· ∈ sub) := by
  induction hsub with
  | slnil => rfl
  | @cons sub rest first hsub ih =>
      have hfirst : first ∉ sub := fun hmem => (List.nodup_cons.mp hnodup).1 (hsub.subset hmem)
      rw [List.filter_cons_of_neg (by simpa using hfirst)]
      exact ih (List.nodup_cons.mp hnodup).2
  | @cons_cons sub rest first hsub ih =>
      obtain ⟨hfirst, hrest⟩ := List.nodup_cons.mp hnodup
      have hsame : rest.filter (· ∈ first :: sub) = rest.filter (· ∈ sub) := by
        apply List.filter_congr
        intro id hid
        have hne : id ≠ first := fun heq => hfirst (heq ▸ hid)
        simp [hne]
      rw [List.filter_cons_of_pos (by simp), hsame, ← ih hrest]

theorem getElem?_eq_some_iff_length_takeWhile (hnodup : ids.Nodup) (hmem : id ∈ ids) :
    ids[row]? = some id ↔ row = (ids.takeWhile (· ≠ id)).length := by
  induction ids generalizing row with
  | nil => exact absurd hmem List.not_mem_nil
  | cons first rest ih =>
      obtain ⟨hfirst, hrest⟩ := List.nodup_cons.mp hnodup
      by_cases heq : first = id
      · cases row with
        | zero => simp [heq]
        | succ row =>
            have hne : rest[row]? ≠ some id := fun h => hfirst (heq ▸ List.mem_of_getElem? h)
            simp [heq, hne]
      · have hid : id ∈ rest := (List.mem_cons.mp hmem).resolve_left (fun h => heq h.symm)
        cases row with
        | zero => simp [heq]
        | succ row => simp [heq, ih hrest hid]

variable {op : InFlight}

theorem Placed.sublist (h : Placed ids op) (hnodup : ids.Nodup) (hsub : sub.Sublist ids) :
    Placed sub op := by
  refine ⟨h.row, fun hmem => ?_⟩
  have hold := h.above (hsub.subset hmem)
  have hfilter := eq_filter_of_sublist hnodup hsub
  calc sub.takeWhile (· ≠ op.id)
      = (ids.takeWhile (· ≠ op.id)).filter (· ∈ sub) := by
        rw [← takeWhile_filter_of_pos (decide_eq_true hmem), ← hfilter]
    _ = op.above.filter (· ∈ sub) := by
        rw [hold, List.filter_filter]
        apply List.filter_congr
        intro id _
        by_cases hid : id ∈ sub
        · simp [hid, hsub.subset hid]
        · simp [hid]

/-- New entries come below all others. -/
theorem Placed.concat (h : Placed ids op) {id : Nat} (hop : op.id ≠ id) (habove : id ∉ op.above) :
    Placed (ids ++ [id]) op := by
  refine ⟨h.row, fun hmem => ?_⟩
  have hold : op.id ∈ ids := by simpa [hop] using hmem
  have hshort : (ids.takeWhile (· ≠ op.id)).length ≠ ids.length := by
    intro hlength
    have hwhole := List.takeWhile_prefix (l := ids) fun id => decide (id ≠ op.id)
    have hall := List.takeWhile_eq_self_iff.mp (hwhole.eq_of_length hlength)
    exact absurd (hall op.id hold) (by simp)
  rw [List.takeWhile_append, if_neg hshort, h.above hold]
  apply List.filter_congr
  intro other hother
  have hne : other ≠ id := fun heq => habove (heq ▸ hother)
  simp [hne]

/-- An entry is still at the row of its start exactly when none above it has been cleared since. -/
theorem Placed.atRow_iff (h : Placed ids op) (hnodup : ids.Nodup) :
    ids[op.row]? = some op.id ↔ op.id ∈ ids ∧ ∀ id ∈ op.above, id ∈ ids := by
  have hrow (hmem : op.id ∈ ids) : ids[op.row]? = some op.id ↔ ∀ id ∈ op.above, id ∈ ids := by
    rw [getElem?_eq_some_iff_length_takeWhile hnodup hmem, h.row, h.above hmem, eq_comm,
      List.length_filter_eq_length_iff]
    simp only [decide_eq_true_eq]
  constructor
  · intro hat
    have hmem := List.mem_of_getElem? hat
    exact ⟨hmem, (hrow hmem).mp hat⟩
  · rintro ⟨hmem, hkept⟩
    exact (hrow hmem).mpr hkept

end Above

/-! ## The invariant -/

theorem count_append_le_one_iff {new old ids : List Nat} (hsub : ∀ id ∈ new, id ∈ ids)
    (hold : ∀ id ∈ ids, old.count id ≤ 1) :
    (∀ id ∈ ids, (new ++ old).count id ≤ 1) ↔ new.Nodup ∧ ∀ id ∈ new, id ∉ old := by
  constructor
  · intro h
    constructor
    · rw [List.nodup_iff_count_le_one]
      intro id
      by_cases hmem : id ∈ new
      · have hid := h id (hsub id hmem)
        rw [List.count_append] at hid
        omega
      · simp [List.count_eq_zero_of_not_mem hmem]
    · intro id hmem hmemOld
      have hid := h id (hsub id hmem)
      have hnew := List.count_pos_iff.mpr hmem
      have hpos := List.count_pos_iff.mpr hmemOld
      rw [List.count_append] at hid
      omega
  · rintro ⟨hnodup, hfresh⟩ id hid
    rw [List.count_append]
    by_cases hmem : id ∈ new
    · have hnew := List.nodup_iff_count_le_one.mp hnodup id
      rw [List.count_eq_zero_of_not_mem (hfresh id hmem)]
      exact hnew
    · rw [List.count_eq_zero_of_not_mem hmem, Nat.zero_add]
      exact hold id hid

namespace TransferQueue

variable {s t : TransferQueue}

theorem map_fst_keys (s : TransferQueue) :
    s.keys.map Prod.fst = s.filesToTransfer.map FileToTransfer.id := by
  rw [keys, List.map_map]
  rfl

theorem oneEach_iff (s : TransferQueue) :
    s.OneEach ↔ ∀ id ∈ s.keys.map Prod.fst, (s.inFlight.map InFlight.id).count id ≤ 1 := by
  rw [map_fst_keys, List.forall_mem_map]
  rfl

theorem mem_keys_of_begins {keys : List (Nat × Option Operation)} {row : Nat} {op : InFlight}
    (h : begins keys row = some op) : (op.id, some op.operation) ∈ keys := by
  obtain ⟨key, hkey, hop⟩ := Option.bind_eq_some_iff.mp h
  obtain ⟨operation, hoperation, rfl⟩ := Option.map_eq_some_iff.mp hop
  have hmem := List.mem_of_getElem? hkey
  rwa [← hoperation]

theorem above_of_begins {keys : List (Nat × Option Operation)} {row : Nat} {op : InFlight}
    (h : begins keys row = some op) :
    (keys.map Prod.fst)[row]? = some op.id ∧ op.row = row ∧
      op.above = (keys.map Prod.fst).take row := by
  obtain ⟨key, hkey, hop⟩ := Option.bind_eq_some_iff.mp h
  obtain ⟨operation, -, rfl⟩ := Option.map_eq_some_iff.mp hop
  refine ⟨?_, rfl, List.map_take⟩
  rw [List.getElem?_map, hkey]
  rfl

theorem placed_of_begins {keys : List (Nat × Option Operation)} {row : Nat} {op : InFlight}
    (hnodup : (keys.map Prod.fst).Nodup) (h : begins keys row = some op) :
    Placed (keys.map Prod.fst) op := by
  obtain ⟨hid, hrow, habove⟩ := above_of_begins h
  have hlt : row < (keys.map Prod.fst).length := (List.getElem?_eq_some_iff.mp hid).1
  refine ⟨?_, fun hmem => ?_⟩
  · rw [hrow, habove, List.length_take_of_le hlt.le]
  · have hlength := (getElem?_eq_some_iff_length_takeWhile hnodup hmem).mp hid
    have htake := List.prefix_iff_eq_take.mp
      ( List.takeWhile_prefix (l := keys.map Prod.fst) fun id => id ≠ op.id)
    rw [htake, ← hlength, habove, eq_comm, List.filter_eq_self]
    intro id hmem
    exact decide_eq_true (List.mem_of_mem_take hmem)

/-- Operations of entries that are there keep the invariant when they begin. -/
theorem Inv.begin (h : s.Inv) (hkeys : t.keys = s.keys) (hnext : t.nextId = s.nextId)
    {new : List InFlight} (hinFlight : t.inFlight = new ++ s.inFlight)
    (hnew : ∀ op ∈ new, ∃ row, begins s.keys row = some op) : t.Inv where
  nodup := by rw [hkeys]; exact h.nodup
  older := by rw [hkeys, hnext]; exact h.older
  begun := by
    intro op hmem
    rw [hinFlight] at hmem
    rw [hnext]
    cases List.mem_append.mp hmem with
    | inl hop =>
        obtain ⟨row, hbegins⟩ := hnew op hop
        refine ⟨h.older _ (mem_keys_of_begins hbegins), fun id hid => ?_⟩
        rw [(above_of_begins hbegins).2.2] at hid
        obtain ⟨key, hkey, rfl⟩ := List.mem_map.mp (List.mem_of_mem_take hid)
        exact h.older key hkey
    | inr hop => exact h.begun op hop
  same := by
    intro op hmem key hkey hid
    rw [hinFlight] at hmem
    rw [hkeys] at hkey
    cases List.mem_append.mp hmem with
    | inl hop =>
        obtain ⟨row, hbegins⟩ := hnew op hop
        have heq := List.inj_on_of_nodup_map h.nodup hkey (mem_keys_of_begins hbegins) hid
        rw [heq]
    | inr hop => exact h.same op hop key hkey hid
  placed := by
    intro op hmem
    rw [hinFlight] at hmem
    rw [hkeys]
    cases List.mem_append.mp hmem with
    | inl hop =>
        obtain ⟨row, hbegins⟩ := hnew op hop
        exact placed_of_begins h.nodup hbegins
    | inr hop => exact h.placed op hop

theorem Inv.sublist (h : s.Inv) {files : List FileToTransfer}
    (hsub : files.Sublist s.filesToTransfer) : Inv { s with filesToTransfer := files } where
  nodup := h.nodup.sublist ((hsub.map _).map _)
  older key hkey := h.older key ((hsub.map _).subset hkey)
  begun := h.begun
  same op hop key hkey := h.same op hop key ((hsub.map _).subset hkey)
  placed op hop := (h.placed op hop).sublist h.nodup ((hsub.map _).map _)

theorem keys_pushBack (s : TransferQueue) (status : TransferFileStatus) :
    (s.pushBack status).keys = s.keys ++ [(s.nextId, status.operation)] := by
  simp [pushBack, keys, FileToTransfer.key]

theorem inv_pushBack (h : s.Inv) (status : TransferFileStatus) : (s.pushBack status).Inv := by
  have hkeys := s.keys_pushBack status
  refine ⟨?_, ?_, ?_, ?_, ?_⟩
  · rw [hkeys, List.map_append, List.nodup_append]
    refine ⟨h.nodup, List.nodup_singleton _, ?_⟩
    intro id hid id' hid'
    obtain ⟨key, hkey, rfl⟩ := List.mem_map.mp hid
    rw [List.map_singleton, List.mem_singleton] at hid'
    have hlt := h.older key hkey
    rw [hid']
    exact Nat.ne_of_lt hlt
  · intro key hkey
    rw [hkeys, List.mem_append, List.mem_singleton] at hkey
    cases hkey with
    | inl hold => exact Nat.lt_succ_of_lt (h.older key hold)
    | inr hnew =>
        rw [hnew]
        exact Nat.lt_succ_self _
  · intro op hop
    obtain ⟨hid, habove⟩ := h.begun op hop
    exact ⟨Nat.lt_succ_of_lt hid, fun id hmem => Nat.lt_succ_of_lt (habove id hmem)⟩
  · intro op hop key hkey hid
    rw [hkeys, List.mem_append, List.mem_singleton] at hkey
    cases hkey with
    | inl hold => exact h.same op hop key hold hid
    | inr hnew =>
        have hlt := (h.begun op hop).1
        rw [← hid, hnew] at hlt
        exact absurd hlt (Nat.lt_irrefl _)
  · intro op hop
    obtain ⟨hid, habove⟩ := h.begun op hop
    rw [hkeys, List.map_append]
    exact (h.placed op hop).concat (Nat.ne_of_lt hid) fun hmem => Nat.lt_irrefl _ (habove _ hmem)

end TransferQueue

/-! ## The steps -/

namespace TransferQueue

variable {s t : TransferQueue}

theorem oneEach_begin_iff (h : s.OneEach) (hkeys : t.keys = s.keys) {new : List InFlight}
    (hinFlight : t.inFlight = new ++ s.inFlight)
    (hnew : ∀ op ∈ new, ∃ row, begins s.keys row = some op) :
    t.OneEach ↔ (new.map InFlight.id).Nodup ∧
      ∀ id ∈ new.map InFlight.id, id ∉ s.inFlight.map InFlight.id := by
  rw [oneEach_iff, hkeys, hinFlight, List.map_append]
  apply count_append_le_one_iff
  · intro id hid
    obtain ⟨op, hop, rfl⟩ := List.mem_map.mp hid
    obtain ⟨row, hbegins⟩ := hnew op hop
    exact List.mem_map_of_mem (mem_keys_of_begins hbegins)
  · exact (oneEach_iff s).mp h

theorem nextId_notMem (hinv : s.Inv) : s.nextId ∉ s.inFlight.map InFlight.id := by
  intro hmem
  obtain ⟨op, hop, hid⟩ := List.mem_map.mp hmem
  have hlt := (hinv.begun op hop).1
  rw [hid] at hlt
  exact Nat.lt_irrefl _ hlt

theorem oneEach_pushBack (hinv : s.Inv) (h : s.OneEach) (status : TransferFileStatus) :
    (s.pushBack status).OneEach := by
  intro file hfile
  rw [pushBack, List.mem_append, List.mem_singleton] at hfile
  cases hfile with
  | inl hold => exact h file hold
  | inr hnew =>
      have hcount := List.count_eq_zero_of_not_mem (nextId_notMem hinv)
      rw [hnew]
      exact hcount.trans_le (Nat.zero_le 1)

theorem begins_pushBack (s : TransferQueue) (status : TransferFileStatus) :
    begins (s.pushBack status).keys s.filesToTransfer.length =
      status.operation.map fun operation =>
        ⟨s.nextId, s.filesToTransfer.length, operation, s.ids⟩ := by
  rw [begins_keys, pushBack, List.getElem?_concat_length, List.take_left]
  rfl

theorem addFile_kept (hinv : s.Inv) (h : s.OneEach) (status : TransferFileStatus)
    (instantTransfer : Bool) :
    (s.addFile status instantTransfer).OneEach ∧ (s.addFile status instantTransfer).Inv := by
  have hone := oneEach_pushBack hinv h status
  have hpush := inv_pushBack hinv status
  rw [addFile]
  cases instantTransfer with
  | false => exact ⟨hone, hpush⟩
  | true =>
      have hstarts := (s.pushBack status).starts_transferFile s.filesToTransfer.length
      have hbegins := s.begins_pushBack status
      have hnew : ∀ op ∈ (begins (s.pushBack status).keys s.filesToTransfer.length).toList,
          ∃ row, begins (s.pushBack status).keys row = some op := by
        intro op hop
        exact ⟨_, Option.mem_toList.mp hop⟩
      refine ⟨(oneEach_begin_iff hone hstarts.keys hstarts.inFlight hnew).mpr ?_,
        hpush.begin hstarts.keys hstarts.nextId hstarts.inFlight hnew⟩
      rw [hbegins]
      cases status.operation with
      | none => simp
      | some operation => simpa [pushBack] using nextId_notMem hinv

theorem exists_begins_of_visited {rows : List Nat} {keys : List (Nat × Option Operation)} :
    ∀ op ∈ (rows.filterMap (begins keys)).reverse, ∃ row, begins keys row = some op := by
  intro op hop
  rw [List.mem_reverse, List.mem_filterMap] at hop
  obtain ⟨row, -, hrow⟩ := hop
  exact ⟨row, hrow⟩

theorem oneEach_startTransferFiles_iff (h : s.OneEach) (selectedRanges : List SelectionRange) :
    (s.startTransferFiles selectedRanges).OneEach ↔
      s.Harmless (.startTransferFiles selectedRanges) := by
  obtain ⟨hkeys, -, hinFlight⟩ := s.startTransferFiles_spec selectedRanges
  rw [oneEach_begin_iff h hkeys hinFlight exists_begins_of_visited, List.map_reverse, List.nodup_reverse]
  simp only [List.mem_reverse]
  rfl

theorem inv_startTransferFiles (hinv : s.Inv) (selectedRanges : List SelectionRange) :
    (s.startTransferFiles selectedRanges).Inv := by
  obtain ⟨hkeys, hnext, hinFlight⟩ := s.startTransferFiles_spec selectedRanges
  exact hinv.begin hkeys hnext hinFlight exists_begins_of_visited

theorem clearFiles_sublist (s : TransferQueue) (selectedRanges : List SelectionRange) :
    ∃ files, s.clearFiles selectedRanges = { s with filesToTransfer := files } ∧
      files.Sublist s.filesToTransfer := by
  rw [clearFiles]
  split
  · exact ⟨[], rfl, List.nil_sublist _⟩
  · split
    · exact ⟨s.filesToTransfer, rfl, List.Sublist.refl _⟩
    · rename_i files hfiles
      exact ⟨files, rfl, removeRanges_sublist hfiles⟩

theorem keys_transferFinished_of_routed {op : InFlight} {success : Bool}
    (h : s.Routed (.transferFinished op success)) {key : Nat × Option Operation}
    (hkey : key ∈ (s.transferFinished op.row success).keys) (hid : key.1 ≠ op.id) : key ∈ s.keys := by
  rw [keys, h.2, List.map_map] at hkey
  obtain ⟨file, hfile, rfl⟩ := List.mem_map.mp hkey
  by_cases hown : file.id = op.id
  · rw [Function.comp_apply, if_pos hown] at hid
    exact absurd hown hid
  · rw [Function.comp_apply, if_neg hown]
    exact List.mem_map_of_mem hfile

theorem map_id_transferFinished (s : TransferQueue) (row : Nat) (success : Bool) :
    (s.transferFinished row success).filesToTransfer.map FileToTransfer.id =
      s.filesToTransfer.map FileToTransfer.id := by
  apply List.ext_getElem?
  intro i
  simp only [transferFinished, List.getElem?_map, List.getElem?_modify]
  cases s.filesToTransfer[i]? with
  | none => rfl
  | some file => by_cases h : row = i <;> simp [h]

theorem inv_transferFinished (hinv : s.Inv) (hone : s.OneEach) {op : InFlight} {success : Bool}
    (hop : op ∈ s.inFlight) (h : s.Routed (.transferFinished op success)) :
    (transferFinished { s with inFlight := s.inFlight.erase op } op.row success).Inv := by
  have hids : (s.transferFinished op.row success).keys.map Prod.fst = s.keys.map Prod.fst := by
    rw [map_fst_keys, map_fst_keys, map_id_transferFinished]
  refine ⟨?_, ?_, ?_, ?_, ?_⟩
  · exact hids ▸ hinv.nodup
  · intro key hkey
    have hmem : key.1 ∈ s.keys.map Prod.fst := hids ▸ List.mem_map_of_mem hkey
    obtain ⟨old, hold, heq⟩ := List.mem_map.mp hmem
    rw [← heq]
    exact hinv.older old hold
  · intro other hother
    exact hinv.begun other (List.mem_of_mem_erase hother)
  · intro other hother key hkey hid
    have hotherMem := List.mem_of_mem_erase hother
    apply hinv.same other hotherMem key _ hid
    apply keys_transferFinished_of_routed h hkey
    -- Two operations of one entry in flight.
    intro hown
    have hmem : key.1 ∈ s.keys.map Prod.fst := hids ▸ List.mem_map_of_mem hkey
    have hcount := (oneEach_iff s).mp hone key.1 hmem
    have hperm := (List.perm_cons_erase hop).map InFlight.id
    have hrest : key.1 ∈ (s.inFlight.erase op).map InFlight.id := by
      rw [hid]
      exact List.mem_map_of_mem hother
    have hpos := List.count_pos_iff.mpr hrest
    rw [hperm.count_eq, List.map_cons, ← hown, List.count_cons_self] at hcount
    omega
  · intro other hother
    exact hids ▸ hinv.placed other (List.mem_of_mem_erase hother)

theorem oneEach_transferFinished (hone : s.OneEach) (op : InFlight) (success : Bool) :
    (transferFinished { s with inFlight := s.inFlight.erase op } op.row success).OneEach := by
  rw [oneEach_iff, map_fst_keys] at hone ⊢
  intro id hid
  have hmem : id ∈ s.filesToTransfer.map FileToTransfer.id :=
    s.map_id_transferFinished op.row success ▸ hid
  exact Nat.le_trans ((List.erase_sublist.map InFlight.id).count_le id) (hone id hmem)

end TransferQueue

theorem modify_of_fixed {files : List FileToTransfer} {row : Nat} {file : FileToTransfer}
    {f : FileToTransfer → FileToTransfer} (hrow : files[row]? = some file) (hf : f file = file) :
    files.modify row f = files := by
  apply List.ext_getElem?
  intro i
  rw [List.getElem?_modify, Option.map_eq_map]
  by_cases hi : row = i
  · rw [← hi, hrow, Option.map_some, if_pos rfl, hf]
  · simp [hi]

theorem map_of_fixed {files : List FileToTransfer} {id : Nat} {g : FileToTransfer → FileToTransfer}
    (hg : ∀ x ∈ files, x.id = id → g x = x) :
    files.map (fun x => if x.id = id then g x else x) = files := by
  refine (List.map_congr_left ?_).trans (List.map_id files)
  intro x hx
  split
  · exact hg x hx ‹_›
  · rfl

theorem row_unique {files : List FileToTransfer} {row i : Nat} {file x : FileToTransfer}
    (hnodup : (files.map FileToTransfer.id).Nodup) (hrow : files[row]? = some file)
    (hx : files[i]? = some x) (hid : x.id = file.id) : i = row := by
  have heq := List.inj_on_of_nodup_map hnodup (List.mem_of_getElem? hx)
    (List.mem_of_getElem? hrow) hid
  rw [heq] at hx
  exact (List.getElem?_inj (List.getElem?_eq_some_iff.mp hx).1 (List.Nodup.of_map _ hnodup)).mp
    (hx.trans hrow.symm)

/-- To work on the row of an entry is to work on the entry of that number. -/
theorem modify_eq_map {files : List FileToTransfer} {row : Nat} {file : FileToTransfer}
    {f g : FileToTransfer → FileToTransfer} (hrow : files[row]? = some file)
    (hnodup : (files.map FileToTransfer.id).Nodup) (hown : f file = g file) :
    files.modify row f = files.map fun x => if x.id = file.id then g x else x := by
  apply List.ext_getElem?
  intro i
  rw [List.getElem?_modify, Option.map_eq_map, List.getElem?_map]
  cases hsome : files[i]? with
  | none => rfl
  | some x =>
      rw [Option.map_some, Option.map_some]
      by_cases hi : row = i
      · rw [← hi, hrow] at hsome
        rw [← Option.some.inj hsome, if_pos hi, if_pos rfl, hown]
      · have hother : x.id ≠ file.id := fun hid => hi (row_unique hnodup hrow hsome hid).symm
        rw [if_neg hi, if_neg hother]

/-- Where a completion changes its own entry and no other. -/
theorem modify_eq_map_iff {files : List FileToTransfer} {row id : Nat} {file : FileToTransfer}
    {f g : FileToTransfer → FileToTransfer} (hrow : files[row]? = some file)
    (hnodup : (files.map FileToTransfer.id).Nodup) (hown : file.id = id → f file = g file) :
    files.modify row f = files.map (fun x => if x.id = id then g x else x) ↔
      file.id = id ∨ f file = file ∧ ∀ x ∈ files, x.id = id → g x = x := by
  constructor
  · intro heq
    by_cases hid : file.id = id
    · exact Or.inl hid
    · right
      have hat (i : Nat) := congrArg (fun l : List FileToTransfer => l[i]?) heq
      simp only [List.getElem?_modify, Option.map_eq_map, List.getElem?_map] at hat
      refine ⟨?_, ?_⟩
      · have hfile := hat row
        simpa [hrow, hid] using hfile
      · intro x hx hxid
        obtain ⟨i, hsome⟩ := List.mem_iff_getElem?.mp hx
        have hne : row ≠ i := by
          intro h
          rw [h, hsome] at hrow
          exact hid (Option.some.inj hrow ▸ hxid)
        have hxat := hat i
        simp only [hsome, if_neg hne, Option.map_some, if_pos hxid] at hxat
        exact (Option.some.inj hxat).symm
  · rintro (hid | ⟨hfile, hothers⟩)
    · rw [modify_eq_map hrow hnodup (hown hid), hid]
    · rw [modify_of_fixed hrow hfile, map_of_fixed hothers]

namespace TransferQueue

variable {s t : TransferQueue}

theorem atRow_iff (hinv : s.Inv) {op : InFlight} (hop : op ∈ s.inFlight) :
    s.filesToTransfer[op.row]?.map FileToTransfer.id = some op.id ↔
      op.id ∈ s.ids ∧ ∀ id ∈ op.above, id ∈ s.ids := by
  have hat := (hinv.placed op hop).atRow_iff hinv.nodup
  rw [map_fst_keys, List.getElem?_map] at hat
  exact hat

theorem routed_transferFinished_iff (hinv : s.Inv) {op : InFlight} (hop : op ∈ s.inFlight)
    (success : Bool) :
    s.Routed (.transferFinished op success) ↔ s.Harmless (.transferFinished op success) := by
  have hoperation {file : FileToTransfer} (hmem : file ∈ s.filesToTransfer) (hid : file.id = op.id) :
      file.status.operation = some op.operation :=
    hinv.same op hop file.key (List.mem_map_of_mem hmem) hid
  rw [Harmless, ← atRow_iff hinv hop, ← (hinv.placed op hop).row]
  cases hrow : s.filesToTransfer[op.row]? with
  | none =>
      apply iff_of_false
      · intro h
        exact absurd h.1 (Nat.not_lt.mpr (List.getElem?_eq_none_iff.mp hrow))
      · simp
  | some file =>
      have hlt : op.row < s.filesToTransfer.length := (List.getElem?_eq_some_iff.mp hrow).1
      have hfile : file ∈ s.filesToTransfer := List.mem_of_getElem? hrow
      have hnodup := hinv.nodup
      rw [map_fst_keys] at hnodup
      have hown (hid : file.id = op.id) :
          { file with status := file.status.finish success } =
            { file with status := op.operation.outcome success } := by
        rw [TransferFileStatus.finish_of_operation (hoperation hfile hid)]
      have hmodify := @modify_eq_map_iff _ _ op.id _
        (fun file => { file with status := file.status.finish success })
        (fun file => { file with status := op.operation.outcome success }) hrow hnodup hown
      rw [Routed, and_iff_right hlt, transferFinished, hmodify]
      have hsame : { file with status := file.status.finish success } = file ↔
          file.status.operation = none ∨ success = false ∧ file.status.hasFailed = true := by
        rw [← file.status.finish_eq_self_iff, FileToTransfer.mk.injEq, and_iff_right rfl]
      have hothers : (∀ own ∈ s.filesToTransfer, own.id = op.id →
            { own with status := op.operation.outcome success } = own) ↔
          ∀ own ∈ s.filesToTransfer, own.id = op.id →
            success = false ∧ own.status = op.operation.outcome false := by
        apply forall₃_congr
        intro own hmem hid
        rw [← TransferFileStatus.outcome_eq_iff (hoperation hmem hid), FileToTransfer.mk.injEq,
          and_iff_right rfl]
      simp only [Option.map_some, Option.some.injEq, exists_eq_left', hsame, hothers]

/-- What an event does to the queue. -/
def Effect (s t : TransferQueue) : TransferEvent → Prop
  | .addFile status instantTransfer => t = s.addFile status instantTransfer
  | .startTransferFiles selectedRanges =>
      s.Selected selectedRanges ∧ t = s.startTransferFiles selectedRanges
  | .clearFiles selectedRanges => s.Selected selectedRanges ∧ t = s.clearFiles selectedRanges
  | .transferFinished op success => op ∈ s.inFlight ∧
      t = transferFinished { s with inFlight := s.inFlight.erase op } op.row success

theorem effect_of_step {event : TransferEvent} (h : step s event = some t) : s.Effect t event := by
  cases event with
  | addFile status instantTransfer => exact (Option.some.inj h).symm
  | startTransferFiles selectedRanges =>
      obtain ⟨hselected, hsome⟩ := Option.ite_none_right_eq_some.mp h
      exact ⟨hselected, (Option.some.inj hsome).symm⟩
  | clearFiles selectedRanges =>
      obtain ⟨hselected, hsome⟩ := Option.ite_none_right_eq_some.mp h
      exact ⟨hselected, (Option.some.inj hsome).symm⟩
  | transferFinished op success =>
      obtain ⟨hop, hsome⟩ := Option.ite_none_right_eq_some.mp h
      exact ⟨hop, (Option.some.inj hsome).symm⟩

theorem inv_step (hinv : s.Inv) (h : s.OneEach) {event : TransferEvent} (hright : s.Routed event)
    (hstep : step s event = some t) : t.Inv := by
  have heffect := effect_of_step hstep
  cases event with
  | addFile status instantTransfer =>
      rw [show t = _ from heffect]
      exact (addFile_kept hinv h status instantTransfer).2
  | startTransferFiles selectedRanges =>
      rw [heffect.2]
      exact inv_startTransferFiles hinv selectedRanges
  | clearFiles selectedRanges =>
      obtain ⟨files, heq, hsub⟩ := s.clearFiles_sublist selectedRanges
      rw [heffect.2, heq]
      exact hinv.sublist hsub
  | transferFinished op success =>
      rw [heffect.2]
      exact inv_transferFinished hinv h heffect.1 hright

theorem right_step_iff (hinv : s.Inv) (h : s.OneEach) {event : TransferEvent}
    (hstep : step s event = some t) : t.OneEach ∧ s.Routed event ↔ s.Harmless event := by
  have heffect := effect_of_step hstep
  cases event with
  | addFile status instantTransfer =>
      rw [show t = _ from heffect]
      exact iff_of_true ⟨(addFile_kept hinv h status instantTransfer).1, trivial⟩ trivial
  | startTransferFiles selectedRanges =>
      rw [heffect.2, oneEach_startTransferFiles_iff h]
      exact and_iff_left trivial
  | clearFiles selectedRanges =>
      obtain ⟨files, heq, hsub⟩ := s.clearFiles_sublist selectedRanges
      have hone : t.OneEach := by
        rw [heffect.2, heq]
        exact fun file hfile => h file (hsub.subset hfile)
      rw [and_iff_right hone]
      exact removeRanges_isSome_iff selectedRanges s.filesToTransfer
  | transferFinished op success =>
      have hone : t.OneEach := by
        rw [heffect.2]
        exact oneEach_transferFinished h op success
      rw [and_iff_right hone]
      exact routed_transferFinished_iff hinv heffect.1 success

/-- The queue is right in every run exactly when each of its steps is harmless. -/
theorem oneEach_and_routed_iff (events : List TransferEvent) :
    Runs.AlwaysPartial step OneEach new events ∧ Runs.EachStepPartial step Routed new events ↔
      Runs.EachStepPartial step Harmless new events := by
  apply @Runs.alwaysPartial_and_eachStepPartial_iff _ _ new step Inv OneEach Routed Harmless
  · exact ⟨List.nodup_nil, fun _ h => absurd h List.not_mem_nil,
      fun _ h => absurd h List.not_mem_nil, fun _ h => absurd h List.not_mem_nil,
      fun _ h => absurd h List.not_mem_nil⟩
  · exact fun _ h => absurd h List.not_mem_nil
  · intro s event t hinv h hstep
    exact right_step_iff hinv h hstep
  · intro s event t hinv h hharmless hstep
    exact inv_step hinv h ((right_step_iff hinv h hstep).mpr hharmless).2 hstep

/-- The first of two uploads is cleared away, and its completion is taken for that of the
second. -/
theorem not_right_cleared :
    ¬ (Runs.AlwaysPartial step OneEach new
          [.addFile .toUpload true, .addFile .toUpload true,
            .clearFiles [⟨0, 0, Nat.le_refl 0⟩], .transferFinished ⟨0, 0, .upload, []⟩ true] ∧
        Runs.EachStepPartial step Routed new
          [.addFile .toUpload true, .addFile .toUpload true,
            .clearFiles [⟨0, 0, Nat.le_refl 0⟩], .transferFinished ⟨0, 0, .upload, []⟩ true]) := by
  rintro ⟨-, routed⟩
  have hright := routed
    [.addFile .toUpload true, .addFile .toUpload true, .clearFiles [⟨0, 0, Nat.le_refl 0⟩]]
    (.transferFinished ⟨0, 0, .upload, []⟩ true)
    ⟨[⟨1, .toUpload⟩], [⟨1, 1, .upload, [0]⟩, ⟨0, 0, .upload, []⟩], 2⟩ (List.prefix_refl _) rfl rfl
  exact absurd hright.2 (by decide)

end TransferQueue

end SubutaiTray.Transfer
