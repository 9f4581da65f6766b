import SubutaiTray.Library.Runs
import SubutaiTray.Qt.Text

/-!
One download (`CDownloadFileManager`), from its start on.

The reply of the network brings bytes, may fail, and finishes once. An abort makes it fail and
finish at once; after its end an abort does nothing.
-/
namespace SubutaiTray.Updater

/-- `QNetworkReply`. A failed reply has an error. -/
structure NetworkReply where
  running : Bool
  failed : Bool
  deriving DecidableEq

/-- Bytes that came in, and how many of them a file would take. -/
structure Chunk where
  bytes : QByteArray
  taken : Nat
  deriving DecidableEq

/-- The file with what is in it and the signals `finished` so far; `arrived` only remembers what came in. -/
structure CDownloadFileManager where
  expectedSize : Int
  networkReply : NetworkReply
  fileOpen : Bool
  file : QByteArray
  arrived : List Chunk
  finished : List Bool
  deriving DecidableEq

inductive DownloadEvent where
  | readyRead (chunk : Chunk)
  | error
  | finished
  | interrupt

namespace CDownloadFileManager

/-- The file is opened, or not; then the download is started. -/
def start (expectedSize : Int) (fileOpen : Bool) : CDownloadFileManager where
  expectedSize := expectedSize
  networkReply := ⟨true, false⟩
  fileOpen := fileOpen
  file := []
  arrived := []
  finished := []

/-- `QFile::write` takes what it can; a file that is not open takes nothing. -/
def networkReplyReadyRead (chunk : Chunk) (m : CDownloadFileManager) : CDownloadFileManager :=
  { m with file := if m.fileOpen then m.file ++ chunk.bytes.take chunk.taken else m.file }

def replyFinished (m : CDownloadFileManager) : CDownloadFileManager :=
  { m with fileOpen := false, finished := m.finished ++ [!m.networkReply.failed] }

/-- `QNetworkReply::abort` -/
def abort (m : CDownloadFileManager) : CDownloadFileManager :=
  if m.networkReply.running then { m with networkReply := ⟨false, true⟩ }.replyFinished else m

def interruptDownload (m : CDownloadFileManager) : CDownloadFileManager := m.abort.replyFinished

/-- After its end a reply brings nothing more. -/
def step (m : CDownloadFileManager) : DownloadEvent → Option CDownloadFileManager
  | .readyRead chunk =>
      if m.networkReply.running then
        some { m.networkReplyReadyRead chunk with arrived := m.arrived ++ [chunk] }
      else none
  | .error =>
      if m.networkReply.running then some { m with networkReply := ⟨true, true⟩ } else none
  | .finished =>
      if m.networkReply.running then
        some { m with networkReply := { m.networkReply with running := false } }.replyFinished
      else none
  | .interrupt => some m.interruptDownload

/-- All bytes that came in. -/
def received (m : CDownloadFileManager) : QByteArray := m.arrived.flatMap Chunk.bytes

def arrivedSize (m : CDownloadFileManager) : Nat := m.received.length

/-- All bytes that came in are in the file, and they are as many as expected. -/
def Complete (m : CDownloadFileManager) : Prop :=
  m.file = m.received ∧ (m.file.length : Int) = m.expectedSize

/-- There is no signal before the end and one after it, and success is of a complete file. -/
structure Right (m : CDownloadFileManager) : Prop where
  once : m.finished.length = if m.networkReply.running then 0 else 1
  complete : true ∈ m.finished → m.Complete

/-- No byte of the chunk is lost on the way into the file. -/
def Whole (fileOpen : Bool) (chunk : Chunk) : Prop :=
  chunk.bytes = [] ∨ fileOpen = true ∧ chunk.bytes.length ≤ chunk.taken

/-- Nobody interrupts; and when the reply finishes without error, each of the chunks that came in was taken
whole, and their sizes add up to the expected one. -/
def Good (m : CDownloadFileManager) : DownloadEvent → Prop
  | .finished => m.networkReply.failed = false →
      (∀ chunk ∈ m.arrived, Whole m.fileOpen chunk) ∧
        m.arrivedSize = m.expectedSize
  | .interrupt => False
  | .readyRead _ | .error => True

/-! ### What is in the file -/

/-- What the file takes of the chunks. -/
def written (fileOpen : Bool) (chunks : List Chunk) : QByteArray :=
  chunks.flatMap fun chunk => if fileOpen then chunk.bytes.take chunk.taken else []

/-- Until the reply ends, the file holds what it took of the chunks. -/
def Written (m : CDownloadFileManager) : Prop :=
  m.networkReply.running = true → m.file = written m.fileOpen m.arrived

section Written

variable {fileOpen : Bool}

theorem length_take_le (chunk : Chunk) :
    (if fileOpen then chunk.bytes.take chunk.taken else []).length ≤ chunk.bytes.length := by
  cases fileOpen with
  | false => exact Nat.zero_le _
  | true => exact List.length_take_le' ..

theorem take_eq_bytes_iff (chunk : Chunk) :
    (if fileOpen then chunk.bytes.take chunk.taken else []) = chunk.bytes ↔ Whole fileOpen chunk := by
  rw [Whole]
  cases fileOpen with
  | false => simp [eq_comm]
  | true =>
      rw [if_pos rfl, List.take_eq_self_iff, and_iff_right rfl, eq_comm, or_iff_right_of_imp]
      intro hempty
      rw [← hempty]
      exact Nat.zero_le _

theorem length_written_le (chunks : List Chunk) :
    (written fileOpen chunks).length ≤ (chunks.flatMap Chunk.bytes).length := by
  induction chunks with
  | nil => exact Nat.le_refl _
  | cons chunk rest ih =>
      have hchunk := @length_take_le fileOpen chunk
      simp only [written, List.flatMap_cons, List.length_append] at ih ⊢
      exact Nat.add_le_add hchunk ih

/-- What was written is what came in exactly when no chunk lost a byte. -/
theorem written_eq_iff (chunks : List Chunk) :
    written fileOpen chunks = chunks.flatMap Chunk.bytes ↔ ∀ chunk ∈ chunks, Whole fileOpen chunk := by
  induction chunks with
  | nil => simp [written]
  | cons chunk rest ih =>
      rw [List.forall_mem_cons, ← ih, ← take_eq_bytes_iff, written, List.flatMap_cons, List.flatMap_cons]
      constructor
      · intro heq
        have hchunk := @length_take_le fileOpen chunk
        have hrest := @length_written_le fileOpen rest
        have hlength := congrArg List.length heq
        rw [List.length_append, List.length_append] at hlength
        apply List.append_inj heq
        rw [written] at hrest
        omega
      · rintro ⟨hchunk, hrest⟩
        rw [hchunk, ← hrest, written]

end Written

variable {m m' : CDownloadFileManager}

/-- All but an interruption need a reply that runs. -/
theorem step_cases {event : DownloadEvent} (hstep : m.step event = some m') :
    (∃ chunk, event = .readyRead chunk ∧ m.networkReply.running = true ∧
        m' = { m.networkReplyReadyRead chunk with arrived := m.arrived ++ [chunk] }) ∨
      (event = .error ∧ m.networkReply.running = true ∧ m' = { m with networkReply := ⟨true, true⟩ }) ∨
      (event = .finished ∧ m.networkReply.running = true ∧
        m' = { m with networkReply := { m.networkReply with running := false } }.replyFinished) ∨
      (event = .interrupt ∧ m' = m.interruptDownload) := by
  cases event with
  | readyRead chunk =>
      obtain ⟨hrunning, heq⟩ := Option.ite_none_right_eq_some.mp hstep
      exact Or.inl ⟨chunk, rfl, hrunning, (Option.some.inj heq).symm⟩
  | error =>
      obtain ⟨hrunning, heq⟩ := Option.ite_none_right_eq_some.mp hstep
      exact Or.inr (Or.inl ⟨rfl, hrunning, (Option.some.inj heq).symm⟩)
  | finished =>
      obtain ⟨hrunning, heq⟩ := Option.ite_none_right_eq_some.mp hstep
      exact Or.inr (Or.inr (Or.inl ⟨rfl, hrunning, (Option.some.inj heq).symm⟩))
  | interrupt => exact Or.inr (Or.inr (Or.inr ⟨rfl, (Option.some.inj hstep).symm⟩))

theorem running_interruptDownload (m : CDownloadFileManager) :
    m.interruptDownload.networkReply.running = false := by
  cases h : m.networkReply.running <;> simp [interruptDownload, abort, h, replyFinished]

theorem written_step (h : m.Written) {event : DownloadEvent} (hstep : m.step event = some m') :
    m'.Written := by
  obtain ⟨chunk, -, hrunning, rfl⟩ | ⟨-, hrunning, rfl⟩ | ⟨-, -, rfl⟩ | ⟨-, rfl⟩ := step_cases hstep
  · intro _
    have hfile := h hrunning
    simp only [networkReplyReadyRead, written, List.flatMap_append] at hfile ⊢
    split <;> simp [*]
  · exact fun _ => h hrunning
  · exact fun hrunning => absurd hrunning Bool.false_ne_true
  · exact fun hrunning => absurd (m.running_interruptDownload.symm.trans hrunning) Bool.false_ne_true

theorem complete_iff (h : m.Written) (hrunning : m.networkReply.running = true) :
    m.Complete ↔ (∀ chunk ∈ m.arrived, Whole m.fileOpen chunk) ∧
      m.arrivedSize = m.expectedSize := by
  rw [Complete, received, h hrunning, written_eq_iff]
  apply and_congr_right
  intro hwhole
  rw [(written_eq_iff _).mpr hwhole, arrivedSize, received]

/-! ### The signals -/

theorem Right.no_signal (h : m.Right) (hrunning : m.networkReply.running = true) : m.finished = [] := by
  have honce := h.once
  rw [hrunning, if_pos rfl] at honce
  exact List.eq_nil_of_length_eq_zero honce

/-- An interruption ends with a signal beside the one of the end. -/
theorem not_right_interruptDownload (h : m.Right) : ¬ m.interruptDownload.Right := by
  intro hright
  have honce := h.once
  have htwice := hright.once
  cases hrunning : m.networkReply.running with
  | true =>
      rw [hrunning, if_pos rfl] at honce
      simp [interruptDownload, abort, hrunning, replyFinished, honce] at htwice
  | false =>
      rw [hrunning] at honce
      simp [interruptDownload, abort, hrunning, replyFinished] at htwice
      simp [htwice] at honce

theorem right_finished_iff (hwritten : m.Written) (h : m.Right) (hrunning : m.networkReply.running = true) :
    ({ m with networkReply := { m.networkReply with running := false } }.replyFinished).Right ↔
      m.Good .finished := by
  have hnone := h.no_signal hrunning
  rw [Good, ← complete_iff hwritten hrunning]
  constructor
  · intro hright hfailed
    apply hright.complete
    simp [replyFinished, hfailed]
  · intro hgood
    refine ⟨?_, ?_⟩
    · simp [replyFinished, hnone]
    · intro hsuccess
      simp only [replyFinished, hnone, List.nil_append, List.mem_singleton] at hsuccess
      exact hgood (by simpa using hsuccess.symm)

theorem right_step_iff (hwritten : m.Written) (h : m.Right) {event : DownloadEvent} (hstep : m.step event = some m') :
    m'.Right ↔ m.Good event := by
  obtain ⟨chunk, rfl, hrunning, rfl⟩ | ⟨rfl, hrunning, rfl⟩ | ⟨rfl, hrunning, rfl⟩ | ⟨rfl, rfl⟩ :=
    step_cases hstep
  · refine iff_of_true ⟨h.once, fun hsuccess => ?_⟩ trivial
    have hnone : (m.networkReplyReadyRead chunk).finished = [] := h.no_signal hrunning
    rw [hnone] at hsuccess
    exact absurd hsuccess List.not_mem_nil
  · have honce := h.once
    rw [hrunning] at honce
    exact iff_of_true ⟨honce, h.complete⟩ trivial
  · exact right_finished_iff hwritten h hrunning
  · exact iff_of_false (not_right_interruptDownload h) id

end CDownloadFileManager

end SubutaiTray.Updater
