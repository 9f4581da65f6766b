import SubutaiTray.Library.Counting
import SubutaiTray.Transfer.RemoteListing

/-!
Which entries of a directory are listed with their names.

The names of the owner and of the group may have blanks in them, and so may the name of the
entry; it may even be nothing but blanks.
-/
namespace SubutaiTray.Transfer

/-- A line of `ls -lF`. The words of owner and group stand in columns of their own. -/
structure DirectoryEntry where
  kind : EntryKind
  permissions : Column
  links : Column
  owner : Column × List Column
  group : Column × List Column
  size : Column
  month : Column
  day : Column
  time : Column
  name : QString
  named : name ≠ [] ∧ '/' ∉ name ∧ '\n' ∉ name

namespace DirectoryEntry

variable (e : DirectoryEntry)

def typeColumn : Column where
  text := e.kind.typeChar :: e.permissions.text
  pad := e.permissions.pad
  word := by
    refine ⟨List.cons_ne_nil _ _, ?_⟩
    rw [List.mem_cons, not_or]
    exact ⟨e.kind.typeChar_ne_blank, e.permissions.word.2⟩

def minorColumns : List Column :=
  match e.kind with
  | .device minor => [minor]
  | _ => []

def columns : List Column :=
  [e.typeColumn, e.links] ++ e.owner.1 :: e.owner.2 ++ e.group.1 :: e.group.2 ++
    e.size :: e.minorColumns ++ [e.month, e.day, e.time]

def line : QString := e.columns.flatMap Column.chars ++ (e.name ++ e.kind.mark)

def isSymlink : Bool :=
  match e.kind with
  | .symlink _ => true
  | _ => false

def isDirectory : Bool :=
  match e.kind with
  | .directory => true
  | _ => false

/-- The name in the dialog, which ends with a slash for a directory, and the flag. -/
def identity : QString × FileType :=
  (e.name ++ (if e.isDirectory then ['/'] else []),
    if e.isDirectory then .directory else .simple)

/-- The entries that the dialog lists as they are. -/
def Readable : Prop :=
  e.owner.2 = [] ∧ e.group.2 = [] ∧ e.name.head? ≠ some ' ' ∧
    match e.kind with
    | .file => endsWith '*' e.name = false
    | .executable | .directory => True
    | .symlink _ | .fifo | .socket | .device _ => False

end DirectoryEntry

/-- The output of `ls -lF` -/
def directoryOutput (total : Nat) (es : List DirectoryEntry) : List OutputLine :=
  .text ("total ".toList ++ number total) :: es.map fun e => .text e.line

def RemoteFile.identity (f : RemoteFile) : QString × FileType := (f.file.fileName, f.file.fileType)

/-! ## The line of an entry -/

namespace DirectoryEntry

variable (e : DirectoryEntry)

/-- What stands behind the first eight columns. -/
def rest : QString := (e.columns.drop 8).flatMap Column.chars ++ (e.name ++ e.kind.mark)

theorem length_columns :
    e.columns.length = 8 + e.owner.2.length + e.group.2.length + e.minorColumns.length := by
  simp [columns]
  omega

theorem line_eq : e.line = (e.columns.take 8).flatMap Column.chars ++ e.rest := by
  rw [rest, ← List.append_assoc, ← List.flatMap_append, List.take_append_drop, line]

/-- What is read of the line, if it has a name at all. -/
def read : QString := e.rest.dropWhile (· = ' ')

def shownName : QString := chopStar e.read e.read

theorem head?_line : e.line.head? = some e.kind.typeChar := rfl

theorem typeChar_eq_iff : e.kind.typeChar = 'l' ↔ e.isSymlink = true := by
  rw [isSymlink]
  cases e.kind <;> simp [EntryKind.typeChar]

theorem remoteFile_line (h : e.isSymlink = false) (year : QString) (current : RemoteDir) :
    (((OutputLine.text e.line).remoteFile year current).map RemoteFile.identity) =
      if e.rest.any (· ≠ ' ') = true then
        some (e.shownName, if endsWith '/' e.shownName then .directory else .simple)
      else none := by
  have hlink : (OutputLine.text e.line).chars.head? ≠ some 'l' := by
    rw [OutputLine.chars, head?_line, Ne, Option.some.injEq, typeChar_eq_iff, h]
    exact Bool.false_ne_true
  have hlength : (e.columns.take 8).length = 8 := by
    rw [List.length_take, length_columns]
    omega
  split
  · rename_i hnamed
    simp only [List.any_eq_true, decide_eq_true_eq] at hnamed
    obtain ⟨file, hfile, hname, -, htype⟩ :=
      addFileRemote_columns hlength hnamed year current.path
    rw [← line_eq] at hfile
    rw [OutputLine.remoteFile_eq_some hlink hfile, Option.map_some, RemoteFile.identity, hname,
      htype]
    rfl
  · rename_i hblank
    have hrest : e.rest = List.replicate e.rest.length ' ' := by
      rw [List.eq_replicate_iff]
      refine ⟨rfl, fun c hc => ?_⟩
      by_contra hne
      exact hblank (List.any_eq_true.mpr ⟨c, hc, decide_eq_true hne⟩)
    have hnone : (OutputLine.text e.line).remoteFile year current = none := by
      rw [OutputLine.remoteFile_eq_none_iff, OutputLine.addFileRemote_eq_none_iff, OutputLine.chars,
        line_eq, hrest, parseRemoteFile_blanks hlength.le, List.length_map, hlength]
      exact Or.inr (by decide)
    rw [hnone, Option.map_none]

/-- With a word too many before the name, the text behind the eighth is longer than the name. -/
theorem rest_of_more (h : e.columns.length ≠ 8) :
    ∃ c s, c ≠ ' ' ∧ s ≠ [] ∧ e.rest = c :: s ++ (e.name ++ e.kind.mark) := by
  have hmore : e.columns.drop 8 ≠ [] := by
    rw [Ne, List.drop_eq_nil_iff]
    have := e.length_columns
    omega
  obtain ⟨column, columns, hdrop⟩ := List.exists_cons_of_ne_nil hmore
  obtain ⟨c, word, htext⟩ := List.exists_cons_of_ne_nil column.word.1
  have hc : c ≠ ' ' := by
    rintro rfl
    apply column.word.2
    rw [htext]
    exact List.mem_cons_self
  refine ⟨c, word ++ List.replicate (column.pad + 1) ' ' ++ columns.flatMap Column.chars, hc,
    by simp, ?_⟩
  rw [rest, hdrop, List.flatMap_cons, Column.chars, htext]
  simp

theorem rest_of_eight (h : e.columns.length = 8) : e.rest = e.name ++ e.kind.mark := by
  rw [rest, List.drop_eq_nil_of_le h.le]
  rfl

theorem columns_eight_iff :
    e.columns.length = 8 ↔ e.owner.2 = [] ∧ e.group.2 = [] ∧ e.minorColumns = [] := by
  rw [length_columns, ← List.length_eq_zero_iff, ← List.length_eq_zero_iff,
    ← List.length_eq_zero_iff]
  omega

/-- What is read begins with no blank. -/
theorem head?_shownName : e.shownName.head? ≠ some ' ' := by
  have hread : e.read.head? ≠ some ' ' := by
    have hhead := List.head?_dropWhile_not (fun c : Char => decide (c = ' ')) e.rest
    rw [read]
    intro heq
    rw [heq] at hhead
    simp at hhead
  rw [shownName, chopStar]
  split
  · cases hcons : e.read with
    | nil => simp
    | cons c s =>
        rw [hcons] at hread
        cases s with
        | nil => simp
        | cons d s => simpa using hread
  · exact hread

theorem length_mark_of_directory (h : e.isDirectory = true) : e.kind.mark = ['/'] := by
  rw [isDirectory] at h
  cases hkind : e.kind <;> simp [hkind] at h
  rfl

theorem shownName_ne_of_more (h : e.columns.length ≠ 8) : e.shownName ≠ e.identity.1 := by
  obtain ⟨c, s, hc, hs, hrest⟩ := e.rest_of_more h
  have hread : e.read = c :: s ++ (e.name ++ e.kind.mark) := by
    rw [read, hrest, List.cons_append, List.dropWhile_cons_of_neg (by simpa using hc)]
  intro heq
  have hlength := congrArg List.length heq
  have hle := RemoteEntry.length_chopStar e.read
  have hpos := List.length_pos_iff.mpr hs
  rw [← shownName, hlength, hread, identity] at hle
  simp only [List.length_append, List.length_cons] at hle
  cases hdirectory : e.isDirectory with
  | true =>
      rw [hdirectory, length_mark_of_directory e hdirectory] at hle
      simp at hle
      omega
  | false =>
      rw [hdirectory] at hle
      simp at hle
      omega

/-- When the line is cut at the right place, the mark decides. -/
theorem readable_iff_of_read (h : e.isSymlink = false) (hminor : e.minorColumns = [])
    (hread : e.read = e.name ++ e.kind.mark) :
    (match e.kind with
      | .file => endsWith '*' e.name = false
      | .executable | .directory => True
      | .symlink _ | .fifo | .socket | .device _ => False) ↔
      (e.shownName, if endsWith '/' e.shownName then FileType.directory else .simple) =
        e.identity := by
  have hslash : endsWith '/' e.name = false := by
    rw [endsWith, decide_eq_false_iff_not]
    exact fun hlast => e.named.2.1 (List.mem_of_getLast? hlast)
  rw [shownName, hread, identity, isDirectory, Prod.mk.injEq]
  cases hkind : e.kind with
  | file =>
      simp only [EntryKind.mark, List.append_nil, Bool.false_eq_true, if_false]
      rw [chopStar_eq_self_iff e.named.1]
      refine ⟨fun hstar => ⟨hstar, ?_⟩, And.left⟩
      rw [(chopStar_eq_self_iff e.named.1).mpr hstar, hslash]
      rfl
  | executable => simp [EntryKind.mark, chopStar_concat_star, hslash]
  | directory =>
      simp [EntryKind.mark, chopStar_concat_of_ne (show '/' ≠ '*' by decide), endsWith_concat]
  | symlink target =>
      rw [isSymlink, hkind] at h
      exact absurd h.symm Bool.false_ne_true
  | fifo => simp [EntryKind.mark, chopStar_concat_of_ne (show '|' ≠ '*' by decide)]
  | socket => simp [EntryKind.mark, chopStar_concat_of_ne (show '=' ≠ '*' by decide)]
  | device minor =>
      rw [minorColumns, hkind] at hminor
      exact absurd hminor (List.cons_ne_nil _ _)

/-- An entry is listed as it is if and only if it is readable. -/
theorem readable_iff (h : e.isSymlink = false) (year : QString) (current : RemoteDir) :
    e.Readable ↔
      ((OutputLine.text e.line).remoteFile year current).map RemoteFile.identity =
        some e.identity := by
  rw [remoteFile_line e h]
  by_cases height : e.columns.length = 8
  · obtain ⟨howner, hgroup, hminor⟩ := e.columns_eight_iff.mp height
    by_cases hblank : e.name.head? = some ' '
    · apply iff_of_false
      · exact fun hreadable => hreadable.2.2.1 hblank
      · split
        · intro heq
          have hname : e.shownName = e.identity.1 := congrArg Prod.fst (Option.some.inj heq)
          apply e.head?_shownName
          rw [hname, identity, List.head?_append, hblank]
          rfl
        · exact (Option.some_ne_none _).symm
    · obtain ⟨c, s, hname⟩ := List.exists_cons_of_ne_nil e.named.1
      have hc : c ≠ ' ' := by
        rw [hname] at hblank
        simpa using hblank
      have hread : e.read = e.name ++ e.kind.mark := by
        rw [read, rest_of_eight e height, hname, List.cons_append,
          List.dropWhile_cons_of_neg (by simpa using hc)]
      have hnamed : c ∈ e.rest := by
        rw [rest_of_eight e height, hname]
        exact List.mem_cons_self
      rw [if_pos (List.any_eq_true.mpr ⟨c, hnamed, decide_eq_true hc⟩), Option.some.injEq, ← readable_iff_of_read e h hminor hread, Readable, and_iff_right howner,
        and_iff_right hgroup, and_iff_right hblank]
  · apply iff_of_false
    · rintro ⟨howner, hgroup, -, hkind⟩
      apply height
      rw [columns_eight_iff]
      refine ⟨howner, hgroup, ?_⟩
      rw [minorColumns]
      cases hk : e.kind <;> simp [hk] at hkind ⊢
    · split
      · intro heq
        exact e.shownName_ne_of_more height (congrArg Prod.fst (Option.some.inj heq))
      · exact (Option.some_ne_none _).symm

theorem remoteFile_symlink (h : e.isSymlink = true) (year : QString) (current : RemoteDir) :
    (OutputLine.text e.line).remoteFile year current = none := by
  rw [OutputLine.remoteFile_eq_none_iff]
  left
  rw [OutputLine.chars, head?_line, (typeChar_eq_iff e).mpr h]

end DirectoryEntry

def namedEntry (kind : EntryKind) (name : QString) (h : name ≠ [] ∧ '/' ∉ name ∧ '\n' ∉ name) :
    DirectoryEntry where
  kind := kind
  permissions := ⟨"rw-rw-r--".toList, 0, by decide⟩
  links := ⟨['1'], 0, by decide⟩
  owner := (⟨"user".toList, 0, by decide⟩, [])
  group := (⟨"users".toList, 0, by decide⟩, [])
  size := ⟨['0'], 0, by decide⟩
  month := ⟨"Jun".toList, 0, by decide⟩
  day := ⟨"21".toList, 0, by decide⟩
  time := ⟨"09:30".toList, 0, by decide⟩
  name := name
  named := h

/-- A plain file whose name ends with a star, a pipe, and a file whose name begins with a
blank. -/
def misreadEntries : List DirectoryEntry :=
  [namedEntry .file "a*".toList (by decide), namedEntry .fifo "p".toList (by decide),
    namedEntry .file " b".toList (by decide)]

end SubutaiTray.Transfer
