import SubutaiTray.Library.Runs
import SubutaiTray.Library.Splitting
import SubutaiTray.Transfer.FileLines

/-!
The listing of the remote directory (`DlgTransferFile::refresh_remote_file_system` and
`output_from_remote_command`).

The directories of the remote machine stay as they are. A listing that is under way knows
its directory; the reply does not hand it over.
-/
namespace SubutaiTray.Transfer

open Splitting (split)

structure RemoteDir where
  path : QString
  slash : endsWith '/' path = true
  deriving DecidableEq

namespace RemoteDir

def root : RemoteDir where
  path := ['/']
  slash := rfl

def enter (dir : RemoteDir) (name : QString) (h : endsWith '/' name = true) : RemoteDir where
  path := dir.path ++ name
  slash := by
    cases name with
    | nil => exact absurd h Bool.false_ne_true
    | cons c name => rwa [endsWith_append (List.cons_ne_nil c name)]

/-- The loop of `remote_back`, which leaves out the first piece and the last two. -/
def back (dir : RemoteDir) : RemoteDir where
  path :=
    let pwd := split ['/'] dir.path
    ((pwd.take (pwd.length - 2)).drop 1).flatMap ('/' :: ·) ++ ['/']
  slash := by simp [endsWith]

end RemoteDir

/-! ## The remote machine -/

inductive OutputLine where
  | text (fileInfo : QString)
  | entry (dir : RemoteDir) (e : RemoteEntry)

def OutputLine.chars : OutputLine → QString
  | .text fileInfo => fileInfo
  | .entry _ e => e.line

def shown (es : List RemoteEntry) : List RemoteEntry := es.filter fun e => !e.isSymlink

/-- What the dialog shows of an entry. -/
def RemoteEntry.identity (e : RemoteEntry) : QString × FileType :=
  (e.trueName, if e.isDirectory then .directory else .simple)

/-- What `cd "dir"; ls -lF;` prints. -/
inductive Listing where
  | entries (total : Nat) (es : List RemoteEntry)
  /-- The shell goes to another directory, or `ls` does not write an entry on a line of its
  own. What the directory contains is given apart. -/
  | other (identities : List (QString × FileType)) (output : List OutputLine)

abbrev RemoteMachine := RemoteDir → Listing

def Listing.output (dir : RemoteDir) : Listing → List OutputLine
  | .entries total es => .text ("total ".toList ++ number total) :: es.map (.entry dir)
  | .other _ output => output

/-- The entries of the directory. Symbolic links are left out. -/
def Listing.identities : Listing → List (QString × FileType)
  | .entries _ es => (shown es).map RemoteEntry.identity
  | .other identities _ => identities

/-! ## The dialog -/

theorem slash_of_addFileRemote {year dir fileInfo : QString} {file : OneFile}
    (h : addFileRemote year dir fileInfo = some file) (hdirectory : file.fileType = .directory) :
    endsWith '/' file.fileName = true := by
  rw [addFileRemote] at h
  split at h
  · rw [← Option.some.inj h] at hdirectory ⊢
    simp only at hdirectory ⊢
    split at hdirectory
    · assumption
    · exact FileType.noConfusion hdirectory
  · exact absurd h.symm (Option.some_ne_none _)

/-- An entry of `remote_files` with the line it comes from. -/
structure RemoteFile where
  file : OneFile
  line : OutputLine
  slash : file.fileType = .directory → endsWith '/' file.fileName = true

/-- The body of the loop over the output. -/
def OutputLine.remoteFile (year : QString) (current : RemoteDir) (line : OutputLine) :
    Option RemoteFile :=
  if line.chars.head? = some 'l' then none
  else
    match h : addFileRemote year current.path line.chars with
    | some file => some ⟨file, line, slash_of_addFileRemote h⟩
    | none => none

structure RemoteListing where
  currentRemoteDir : RemoteDir
  remoteFiles : List RemoteFile
  refreshQueries : Int
  pending : List RemoteDir

/-- A failed command hands over what it printed. -/
inductive ListingEvent where
  | fileRemoteSelected (row : Int)
  | remoteBack
  | refreshButtonRemote
  | outputFromRemoteCommand (year : QString) (dir : RemoteDir) (failure : Option (List QString))

namespace RemoteListing

def refreshRemoteFileSystem (s : RemoteListing) : RemoteListing :=
  { s with
    refreshQueries := s.refreshQueries + 1
    pending := s.currentRemoteDir :: s.pending }

/-- The dialog when it gets its user. -/
def init : RemoteListing :=
  refreshRemoteFileSystem
    { currentRemoteDir := .root, remoteFiles := [], refreshQueries := 0, pending := [] }

/-- A file that is not a directory goes to the transfers. -/
def fileRemoteSelected (s : RemoteListing) (row : Int) : RemoteListing :=
  if row < 0 ∨ s.remoteFiles.length ≤ row then s
  else
    match s.remoteFiles[row.toNat]? with
    | none => s
    | some selected =>
        if h : selected.file.fileType = .directory then
          refreshRemoteFileSystem
            { s with
              currentRemoteDir := s.currentRemoteDir.enter selected.file.fileName (selected.slash h) }
        else s

def remoteBack (s : RemoteListing) : RemoteListing :=
  refreshRemoteFileSystem { s with currentRemoteDir := s.currentRemoteDir.back }

def outputFromRemoteCommand (s : RemoteListing) (year : QString) (output : List OutputLine) :
    RemoteListing :=
  { s with
    remoteFiles := output.filterMap (OutputLine.remoteFile year s.currentRemoteDir)
    refreshQueries := s.refreshQueries - 1 }

/-- The listing that a reply brings. -/
def answer (machine : RemoteMachine) (dir : RemoteDir) : Option (List QString) → Listing
  | none => machine dir
  | some output => .other [] (output.map .text)

def step (machine : RemoteMachine) (s : RemoteListing) : ListingEvent → Option RemoteListing
  | .fileRemoteSelected row => some (s.fileRemoteSelected row)
  | .remoteBack => some s.remoteBack
  | .refreshButtonRemote => some s.refreshRemoteFileSystem
  | .outputFromRemoteCommand year dir failure =>
      if dir ∈ s.pending then
        some (outputFromRemoteCommand { s with pending := s.pending.erase dir } year
          ((answer machine dir failure).output dir))
      else none

end RemoteListing

/-! ## When the listing is right -/

/-- The path is the one that the entry has on the remote machine. -/
def RemoteFile.Right (f : RemoteFile) : Prop :=
  match f.line with
  | .text _ => False
  | .entry dir e => f.file.filePath = dir.path ++ e.trueName

def RemoteFile.columns (f : RemoteFile) : QString × QString × FileType :=
  (f.file.fileName, f.file.filePath, f.file.fileType)

def columnsOf (dir : RemoteDir) (identity : QString × FileType) : QString × QString × FileType :=
  (identity.1, dir.path ++ identity.1, identity.2)

instance (f : RemoteFile) : Decidable f.Right :=
  match h : f.line with
  | .text _ => isFalse (by rw [RemoteFile.Right, h]; exact not_false)
  | .entry dir e =>
      decidable_of_iff (f.file.filePath = dir.path ++ e.trueName) (by rw [RemoteFile.Right, h])

structure RemoteListing.Right (machine : RemoteMachine) (s : RemoteListing) : Prop where
  listed : s.pending = [] →
    s.remoteFiles.map RemoteFile.columns =
      (machine s.currentRemoteDir).identities.map (columnsOf s.currentRemoteDir)
  paths : ∀ f ∈ s.remoteFiles, f.Right

/-- The line is passed over, or it is of an entry of the current directory that is read back. -/
def OutputLine.Fits (current : RemoteDir) : OutputLine → Prop
  | .text fileInfo => fileInfo.head? = some 'l' ∨ (parseRemoteFile fileInfo).length < 9
  | .entry dir e => e.isSymlink = true ∨ e.Readable ∧ current = dir

def OutputLine.shownEntry : OutputLine → Option RemoteEntry
  | .text _ => none
  | .entry _ e => if e.isSymlink then none else some e

def RemoteListing.Good (machine : RemoteMachine) (s : RemoteListing) : ListingEvent → Prop
  | .outputFromRemoteCommand _ dir failure =>
      match answer machine dir failure with
      | .entries _ es =>
          (∀ e ∈ shown es, e.Readable ∧ s.currentRemoteDir = dir) ∧
            (s.pending.erase dir = [] →
              s.currentRemoteDir = dir ∨ (machine s.currentRemoteDir).identities = [])
      | .other _ output =>
          (∀ line ∈ output, line.Fits s.currentRemoteDir) ∧
            (s.pending.erase dir = [] →
              (output.filterMap OutputLine.shownEntry).map RemoteEntry.identity =
                (machine s.currentRemoteDir).identities)
  | _ => True

/-! ## One line of the output -/

namespace OutputLine

theorem remoteFile_eq_some {year : QString} {current : RemoteDir} {line : OutputLine}
    {file : OneFile} (hlink : line.chars.head? ≠ some 'l')
    (h : addFileRemote year current.path line.chars = some file) :
    line.remoteFile year current = some ⟨file, line, slash_of_addFileRemote h⟩ := by
  rw [remoteFile, if_neg hlink]
  split
  · rename_i file' h'
    obtain rfl : file' = file := Option.some.inj (h'.symm.trans h)
    rfl
  · rename_i h'
    rw [h] at h'
    exact absurd h' (Option.some_ne_none _)

theorem remoteFile_eq_none_iff {year : QString} {current : RemoteDir} {line : OutputLine} :
    line.remoteFile year current = none ↔
      line.chars.head? = some 'l' ∨ addFileRemote year current.path line.chars = none := by
  by_cases hlink : line.chars.head? = some 'l'
  · simp [remoteFile, hlink]
  · cases h : addFileRemote year current.path line.chars with
    | some file => simp [remoteFile_eq_some hlink h, hlink]
    | none =>
        rw [remoteFile, if_neg hlink]
        split
        · rename_i h'
          rw [h] at h'
          exact absurd h'.symm (Option.some_ne_none _)
        · simp

theorem addFileRemote_eq_none_iff {year dir fileInfo : QString} :
    addFileRemote year dir fileInfo = none ↔ (parseRemoteFile fileInfo).length < 9 := by
  rw [addFileRemote]
  split
  · rename_i heq
    simp [heq]
  · rename_i hno
    refine iff_of_true rfl ?_
    by_contra hlength
    rcases h : parseRemoteFile fileInfo with
      _ | ⟨c1, _ | ⟨c2, _ | ⟨c3, _ | ⟨c4, _ | ⟨c5, _ | ⟨c6, _ | ⟨c7, _ | ⟨c8, _ | ⟨c9, rest⟩⟩⟩⟩⟩⟩⟩⟩⟩
    -- the nine lists that are too short
    iterate 9 · simp [h] at hlength
    exact hno c1 c2 c3 c4 c5 c6 c7 c8 c9 rest h

theorem remoteFile_text {year : QString} {current : RemoteDir} {fileInfo : QString} :
    (text fileInfo).remoteFile year current = none ↔ (text fileInfo).Fits current := by
  rw [remoteFile_eq_none_iff, addFileRemote_eq_none_iff]
  rfl

theorem remoteFile_symlink {year : QString} {current dir : RemoteDir} {e : RemoteEntry}
    (h : e.isSymlink = true) : (entry dir e).remoteFile year current = none := by
  rw [remoteFile_eq_none_iff]
  left
  rw [chars, e.head?_line, e.typeChar_eq_iff.mpr h]

theorem remoteFile_entry {e : RemoteEntry} (h : e.isSymlink = false) (year : QString)
    (current dir : RemoteDir) :
    ∃ f, (entry dir e).remoteFile year current = some f ∧ f.line = entry dir e ∧
      f.columns =
        (e.shownName, current.path ++ e.shownName,
          if endsWith '/' e.shownName then .directory else .simple) := by
  obtain ⟨file, hfile, hname, hpath, htype⟩ := e.addFileRemote_line year current.path
  have hlink : (entry dir e).chars.head? ≠ some 'l' := by
    rw [chars, e.head?_line]
    intro heq
    rw [e.typeChar_eq_iff.mp (Option.some.inj heq)] at h
    exact Bool.false_ne_true h.symm
  refine ⟨_, remoteFile_eq_some hlink hfile, rfl, ?_⟩
  rw [RemoteFile.columns, hname, hpath, htype]

/-- A line fits exactly when what is read from it is right. -/
theorem fits_iff {year : QString} {current : RemoteDir} (line : OutputLine) :
    line.Fits current ↔ ∀ f, line.remoteFile year current = some f → f.Right := by
  cases line with
  | text fileInfo =>
      rw [← @remoteFile_text year]
      constructor
      · intro hnone f hf
        rw [hnone] at hf
        exact absurd hf.symm (Option.some_ne_none _)
      · intro h
        cases hf : (text fileInfo).remoteFile year current with
        | none => rfl
        | some f =>
            have hright := h f hf
            have hline : f.line = text fileInfo := by
              rw [remoteFile] at hf
              split at hf
              · exact absurd hf.symm (Option.some_ne_none _)
              · split at hf
                · rw [← Option.some.inj hf]
                · exact absurd hf.symm (Option.some_ne_none _)
            rw [RemoteFile.Right, hline] at hright
            exact hright.elim
  | entry dir e =>
      cases h : e.isSymlink with
      | true => simp [Fits, h, remoteFile_symlink h]
      | false =>
          obtain ⟨f, hf, hline, hcolumns⟩ := remoteFile_entry h year current dir
          have hpath : f.file.filePath = current.path ++ e.shownName :=
            congrArg (fun columns => columns.2.1) hcolumns
          have hright : f.Right ↔ current.path = dir.path ∧ e.Readable := by
            rw [RemoteFile.Right, hline, ← e.path_eq_iff h dir.slash current.slash, hpath]
          have hdir : current = dir ↔ current.path = dir.path := by
            rw [RemoteDir.mk.injEq]
          simp [Fits, h, hf, hright, hdir, and_comm]

theorem columns_of_fits {year : QString} {current : RemoteDir} {line : OutputLine}
    (h : line.Fits current) :
    (line.remoteFile year current).map RemoteFile.columns =
      line.shownEntry.map fun e => columnsOf current e.identity := by
  cases line with
  | text fileInfo => rw [remoteFile_text.mpr h, shownEntry, Option.map_none, Option.map_none]
  | entry dir e =>
      cases hlink : e.isSymlink with
      | true => simp [shownEntry, hlink, remoteFile_symlink hlink]
      | false =>
          obtain ⟨f, hf, -, hcolumns⟩ := remoteFile_entry hlink year current dir
          have hread : e.Readable := by
            simp only [Fits, hlink, Bool.false_eq_true, false_or] at h
            exact h.1
          have hname : e.trueName = e.shownName := (e.readable_iff hlink).mp hread
          simp [shownEntry, hlink, hf, hcolumns, columnsOf, RemoteEntry.identity, ← hname,
            e.endsWith_trueName]

end OutputLine

/-! ## The output of a listing -/

theorem fits_total (total : Nat) (current : RemoteDir) :
    (OutputLine.text ("total ".toList ++ number total)).Fits current := by
  right
  let column : Column := ⟨"total".toList, 0, by decide⟩
  have hword : number total ≠ [] ∧ ' ' ∉ number total := by
    refine ⟨?_, ?_⟩
    · rw [number_natCast]
      exact Nat.toDigits_ne_nil
    · exact notMem_number (by decide) (by decide) total
  have hparse := @parseRemoteFile_word [column] (by simp) (number total) hword
  have hline : "total ".toList ++ number total = [column].flatMap Column.chars ++ number total := rfl
  rw [hline, hparse]
  simp

theorem fits_output_iff {dir current : RemoteDir} {total : Nat} {es : List RemoteEntry} :
    (∀ line ∈ (Listing.entries total es).output dir, line.Fits current) ↔
      ∀ e ∈ shown es, e.Readable ∧ current = dir := by
  simp only [Listing.output, List.forall_mem_cons, List.forall_mem_map, shown, List.mem_filter]
  rw [and_iff_right (fits_total total current)]
  constructor
  · rintro h e ⟨hmem, hlink⟩
    exact (h e hmem).resolve_left (by simpa using hlink)
  · intro h e hmem
    cases hlink : e.isSymlink with
    | true => exact Or.inl hlink
    | false => exact Or.inr (h e ⟨hmem, by simp [hlink]⟩)

theorem shownEntry_output (dir : RemoteDir) (total : Nat) (es : List RemoteEntry) :
    ((Listing.entries total es).output dir).filterMap OutputLine.shownEntry = shown es := by
  rw [Listing.output, List.filterMap_cons_none rfl, List.filterMap_map, shown,
    ← List.filterMap_eq_filter]
  apply List.filterMap_congr
  intro e _
  cases h : e.isSymlink <;> simp [OutputLine.shownEntry, Option.guard, h]

theorem columnsOf_injective (dir : RemoteDir) : Function.Injective (columnsOf dir) := by
  rintro ⟨name, type⟩ ⟨name', type'⟩ h
  simp only [columnsOf, Prod.mk.injEq] at h
  simp [h.1, h.2.2]

namespace RemoteListing

variable {machine : RemoteMachine}

/-- What a reply leaves behind. -/
theorem right_outputFromRemoteCommand (s : RemoteListing) (year : QString)
    (output : List OutputLine) :
    (s.outputFromRemoteCommand year output).Right machine ↔
      (∀ line ∈ output, line.Fits s.currentRemoteDir) ∧
        (s.pending = [] →
          (output.filterMap OutputLine.shownEntry).map RemoteEntry.identity =
            (machine s.currentRemoteDir).identities) := by
  have hpaths : (∀ f ∈ (s.outputFromRemoteCommand year output).remoteFiles, f.Right) ↔
      ∀ line ∈ output, line.Fits s.currentRemoteDir := by
    simp only [outputFromRemoteCommand, List.mem_filterMap, forall_exists_index, and_imp,
      @OutputLine.fits_iff year]
    exact ⟨fun h line hmem f hf => h f line hmem hf, fun h f line hmem hf => h line hmem f hf⟩
  have hlisted (fits : ∀ line ∈ output, line.Fits s.currentRemoteDir) :
      (s.outputFromRemoteCommand year output).remoteFiles.map RemoteFile.columns =
        ((output.filterMap OutputLine.shownEntry).map RemoteEntry.identity).map
          (columnsOf s.currentRemoteDir) := by
    rw [outputFromRemoteCommand, List.map_filterMap, List.map_map, List.map_filterMap]
    apply List.filterMap_congr
    intro line hmem
    exact OutputLine.columns_of_fits (fits line hmem)
  constructor
  · intro h
    have fits := hpaths.mp h.paths
    refine ⟨fits, fun hpending => ?_⟩
    have heq := h.listed hpending
    rw [hlisted fits] at heq
    exact (columnsOf_injective _).list_map heq
  · rintro ⟨fits, hidentities⟩
    refine ⟨fun hpending => ?_, hpaths.mpr fits⟩
    rw [hlisted fits, hidentities hpending]
    rfl

theorem right_of_pending {s : RemoteListing} (hpending : s.pending ≠ [])
    (hpaths : ∀ f ∈ s.remoteFiles, f.Right) : s.Right machine where
  listed h := absurd h hpending
  paths := hpaths

theorem right_refreshRemoteFileSystem {s : RemoteListing} (h : ∀ f ∈ s.remoteFiles, f.Right) :
    s.refreshRemoteFileSystem.Right machine :=
  right_of_pending (List.cons_ne_nil _ _) h

theorem right_fileRemoteSelected {s : RemoteListing} (h : s.Right machine) (row : Int) :
    (s.fileRemoteSelected row).Right machine := by
  rw [fileRemoteSelected]
  split
  · exact h
  · split
    · exact h
    · split
      · exact right_refreshRemoteFileSystem h.paths
      · exact h

theorem right_answer_iff (s : RemoteListing) (year : QString) (dir : RemoteDir)
    (failure : Option (List QString)) :
    (outputFromRemoteCommand { s with pending := s.pending.erase dir } year
        ((answer machine dir failure).output dir)).Right machine ↔
      s.Good machine (.outputFromRemoteCommand year dir failure) := by
  rw [right_outputFromRemoteCommand, Good]
  cases hanswer : answer machine dir failure with
  | other identities output => rfl
  | entries total es =>
      simp only [fits_output_iff, shownEntry_output]
      apply and_congr_right
      intro hshown
      apply imp_congr_right
      intro _
      by_cases hdir : s.currentRemoteDir = dir
      · have hmachine : machine dir = .entries total es := by
          cases failure with
          | none => exact hanswer
          | some output => exact Listing.noConfusion hanswer
        refine iff_of_true ?_ (Or.inl hdir)
        rw [hdir, hmachine]
        rfl
      · have hnone : shown es = [] :=
          List.eq_nil_iff_forall_not_mem.mpr fun e hmem => hdir (hshown e hmem).2
        rw [hnone, List.map_nil, or_iff_right hdir]
        exact eq_comm

theorem right_step_iff {s t : RemoteListing} {event : ListingEvent} (h : s.Right machine)
    (hstep : step machine s event = some t) : t.Right machine ↔ s.Good machine event := by
  cases event with
  | fileRemoteSelected row =>
      rw [← Option.some.inj hstep]
      exact iff_of_true (right_fileRemoteSelected h row) trivial
  | remoteBack =>
      rw [← Option.some.inj hstep]
      exact iff_of_true (right_refreshRemoteFileSystem h.paths) trivial
  | refreshButtonRemote =>
      rw [← Option.some.inj hstep]
      exact iff_of_true (right_refreshRemoteFileSystem h.paths) trivial
  | outputFromRemoteCommand year dir failure =>
      rw [step] at hstep
      split at hstep
      · rw [← Option.some.inj hstep]
        exact right_answer_iff s year dir failure
      · exact absurd hstep.symm (Option.some_ne_none _)

/-- The listing is right all along exactly when every reply is of the current directory and
shows only entries that are read back, and the last one brings its entries. -/
theorem right_iff_good (machine : RemoteMachine) (events : List ListingEvent) :
    Runs.AlwaysPartial (step machine) (Right machine) init events ↔
      Runs.EachStepPartial (step machine) (Good machine) init events := by
  apply Runs.alwaysPartial_iff_eachStepPartial_of_turn
  · apply right_of_pending (List.cons_ne_nil _ _)
    intro f hmem
    exact absurd hmem List.not_mem_nil
  · intro s event t h hstep
    exact right_step_iff h hstep

/-- The counter counts the listings that are under way. -/
theorem refreshQueries_eq_length {events : List ListingEvent} {t : RemoteListing}
    (run : events.foldlM (step machine) init = some t) : t.refreshQueries = t.pending.length := by
  have grow {s : RemoteListing} (h : s.refreshQueries = s.pending.length) :
      s.refreshRemoteFileSystem.refreshQueries = s.refreshRemoteFileSystem.pending.length := by
    simp [refreshRemoteFileSystem, h]
  refine @Runs.invariant_of_foldlM _ _ _ _ (fun t => t.refreshQueries = t.pending.length) rfl ?_ _ _
    run
  intro s event s' h hstep
  cases event with
  | fileRemoteSelected row =>
      rw [← Option.some.inj hstep, fileRemoteSelected]
      split
      · exact h
      · split
        · exact h
        · split
          · exact grow h
          · exact h
  | remoteBack =>
      rw [← Option.some.inj hstep]
      exact grow h
  | refreshButtonRemote =>
      rw [← Option.some.inj hstep]
      exact grow h
  | outputFromRemoteCommand year dir failure =>
      rw [step] at hstep
      split at hstep
      · rename_i hmem
        rw [← Option.some.inj hstep]
        have hpos := List.length_pos_of_mem hmem
        simp only [outputFromRemoteCommand, h, List.length_erase_of_mem hmem]
        omega
      · exact absurd hstep.symm (Option.some_ne_none _)

def rootPermissions : EntryKind → Column
  | .file => ⟨"rw-r--r--".toList, 0, by decide⟩
  | _ => ⟨"rwxr-xr-x".toList, 0, by decide⟩

def rootEntry (kind : EntryKind) (name : QString)
    (h : (∃ c ∈ name, c ≠ ' ') ∧ '/' ∉ name ∧ '\n' ∉ name) : RemoteEntry where
  kind := kind
  permissions := rootPermissions kind
  links := ⟨['2'], 0, by decide⟩
  owner := ⟨"root".toList, 0, by decide⟩
  group := ⟨"root".toList, 0, by decide⟩
  size := ⟨"4096".toList, 0, by decide⟩
  month := ⟨"May".toList, 0, by decide⟩
  day := ⟨"12".toList, 0, by decide⟩
  time := ⟨"10:24".toList, 0, by decide⟩
  noSlash := by decide
  name := name
  named := h

def dirA : RemoteDir := ⟨"/a/".toList, rfl⟩

/-- The root holds a directory, and the directory holds a file. -/
def machineA : RemoteMachine := fun dir =>
  if dir = .root then .entries 4 [rootEntry .directory ['a'] ⟨⟨'a', by decide⟩, by decide⟩]
  else if dir = dirA then .entries 4 [rootEntry .file ['x'] ⟨⟨'x', by decide⟩, by decide⟩]
  else .other [] []

/-- The user goes back before the directory has been listed. Its file is taken for one of the
root. -/
theorem not_right_goneBack :
    ¬ Runs.AlwaysPartial (step machineA) (Right machineA) init
      [.outputFromRemoteCommand "2019".toList .root none, .fileRemoteSelected 0, .remoteBack,
        .outputFromRemoteCommand "2019".toList dirA none] := by
  intro always
  have hwrong :
      ([.outputFromRemoteCommand "2019".toList .root none, .fileRemoteSelected 0, .remoteBack,
          .outputFromRemoteCommand "2019".toList dirA none].foldlM (step machineA) init).any
        (fun t => t.remoteFiles.any fun f => !decide f.Right) = true := by
    decide +kernel
  obtain ⟨t, hrun, hany⟩ := (Option.any_eq_true _ _).mp hwrong
  obtain ⟨f, hmem, hf⟩ := List.any_eq_true.mp hany
  have hright : f.Right := (always _ t (List.prefix_refl _) hrun).paths f hmem
  simp [hright] at hf

end RemoteListing

end SubutaiTray.Transfer
