import Mathlib.Algebra.Group.Int.Defs
import SubutaiTray.Qt.Numbers

/-!
The lines of `ls -lF` and what `DlgTransferFile` reads from them
(`parse_remote_file`, `parseDate` and `add_file_remote`).

A line has eight columns and a name with the mark of its kind; the line of a device has
one column more.
-/
namespace SubutaiTray.Transfer

/-- `parse_remote_file` in the middle of a line. -/
structure LineRead where
  readingFile : Bool
  readingFileName : Bool
  numberStringsParsed : Nat
  st : QString
  splitted : List QString
  deriving DecidableEq

def LineRead.next (r : LineRead) (c : Char) : LineRead :=
  if r.readingFileName then { r with st := r.st ++ [c] }
  else if r.readingFile then
    if c = ' ' then
      { r with
        readingFile := false
        numberStringsParsed := r.numberStringsParsed + 1
        st := []
        splitted := r.splitted ++ [r.st] }
    else { r with st := r.st ++ [c] }
  else if c ≠ ' ' then
    { r with
      readingFile := true
      readingFileName := r.numberStringsParsed = 8
      st := r.st ++ [c] }
  else r

/-- Between two columns. -/
def LineRead.between (splitted : List QString) : LineRead where
  readingFile := false
  readingFileName := false
  numberStringsParsed := splitted.length
  st := []
  splitted := splitted

def parseRemoteFile (fileInfo : QString) : List QString :=
  let r := fileInfo.foldl LineRead.next (LineRead.between [])
  if r.readingFile then r.splitted ++ [r.st] else r.splitted

def monthConverter (month : QString) : QString :=
  let months := ["Jan", "Feb", "Mar", "Apr", "May", "Jun", "Jul", "Aug", "Sep", "Oct", "Nov", "Dec"]
  let numbers := ["01", "02", "03", "04", "05", "06", "07", "08", "09", "10", "11", "12"]
  match (months.zip numbers).find? fun pair => pair.1.toList = month with
  | some pair => pair.2.toList
  | none => "01".toList

def parseDate (currentYear month day yearOrTime : QString) : QString :=
  monthConverter month ++ ['/'] ++ day ++ ['/'] ++
    (if ':' ∈ yearOrTime then currentYear else yearOrTime)

inductive FileType where
  | simple
  | directory
  deriving DecidableEq

/-- The date is the text that `QDateTime::fromString` gets. -/
structure OneFile where
  fileName : QString
  filePath : QString
  created : QString
  fileSize : Int
  fileType : FileType
  deriving DecidableEq

def endsWith (c : Char) (s : QString) : Bool := s.getLast? = some c

/-- `file_path.chop(1)` and `file_name.chop(1)` when the path ends with a star -/
def chopStar (filePath s : QString) : QString := if endsWith '*' filePath then s.dropLast else s

def addFileRemote (currentYear currentRemoteDir fileInfo : QString) : Option OneFile :=
  match parseRemoteFile fileInfo with
  | _ :: _ :: _ :: _ :: fileSize :: month :: day :: yearOrTime :: fileName :: _ =>
      let filePath := currentRemoteDir ++ fileName
      let fileName := chopStar filePath fileName
      some
        { fileName := fileName
          filePath := chopStar filePath filePath
          created := parseDate currentYear month day yearOrTime
          fileSize := toInt fileSize % 2 ^ 64
          fileType := if endsWith '/' fileName then .directory else .simple }
  | _ => none

/-! ## The lines of entries -/

structure Column where
  text : QString
  pad : Nat
  word : text ≠ [] ∧ ' ' ∉ text

def Column.chars (column : Column) : QString := column.text ++ List.replicate (column.pad + 1) ' '

inductive EntryKind where
  | file
  | executable
  | directory
  | symlink (target : QString)
  | fifo
  | socket
  /-- The minor number stands in a column of its own. -/
  | device (minor : Column)

def EntryKind.typeChar : EntryKind → Char
  | .file | .executable => '-'
  | .directory => 'd'
  | .symlink _ => 'l'
  | .fifo => 'p'
  | .socket => 's'
  | .device _ => 'c'

theorem EntryKind.typeChar_ne_blank (kind : EntryKind) : ' ' ≠ kind.typeChar := by
  cases kind <;> simp [typeChar]

def EntryKind.mark : EntryKind → QString
  | .file | .device _ => []
  | .executable => ['*']
  | .directory => ['/']
  | .symlink target => " -> ".toList ++ target
  | .fifo => ['|']
  | .socket => ['=']

/-- An entry of a directory that `ls` writes on a line of its own. -/
structure RemoteEntry where
  kind : EntryKind
  permissions : Column
  links : Column
  owner : Column
  group : Column
  size : Column
  month : Column
  day : Column
  time : Column
  noSlash : '/' ∉ time.text
  name : QString
  named : (∃ c ∈ name, c ≠ ' ') ∧ '/' ∉ name ∧ '\n' ∉ name

namespace RemoteEntry

def typeColumn (e : RemoteEntry) : Column where
  text := e.kind.typeChar :: e.permissions.text
  pad := e.permissions.pad
  word := by
    refine ⟨List.cons_ne_nil _ _, ?_⟩
    rw [List.mem_cons, not_or]
    exact ⟨e.kind.typeChar_ne_blank, e.permissions.word.2⟩

/-- The first eight columns, and what stands behind them. -/
def columns (e : RemoteEntry) : List Column :=
  match e.kind with
  | .device minor => [e.typeColumn, e.links, e.owner, e.group, e.size, minor, e.month, e.day]
  | _ => [e.typeColumn, e.links, e.owner, e.group, e.size, e.month, e.day, e.time]

def nameField (e : RemoteEntry) : QString :=
  match e.kind with
  | .device _ => e.time.chars ++ e.name
  | kind => e.name ++ kind.mark

def line (e : RemoteEntry) : QString := e.columns.flatMap Column.chars ++ e.nameField

def isSymlink (e : RemoteEntry) : Bool :=
  match e.kind with
  | .symlink _ => true
  | _ => false

def isDirectory (e : RemoteEntry) : Bool :=
  match e.kind with
  | .directory => true
  | _ => false

/-- The name under which the dialog knows the entry: of a directory it ends with a slash. -/
def trueName (e : RemoteEntry) : QString := e.name ++ (if e.isDirectory then ['/'] else [])

/-- The name that is read from the line. -/
def shownName (e : RemoteEntry) : QString :=
  let fileName := e.nameField.dropWhile (· = ' ')
  chopStar fileName fileName

/-- The kinds and names that are read back from the line. -/
def Readable (e : RemoteEntry) : Prop :=
  e.name.head? ≠ some ' ' ∧
    match e.kind with
    | .file => endsWith '*' e.name = false
    | .executable | .directory => True
    | .symlink _ | .fifo | .socket | .device _ => False

end RemoteEntry

/-! ## Reading them back -/

theorem foldl_readingFile {splitted : List QString} {n : Nat} {word st : QString} (hword : ' ' ∉ word) :
    word.foldl LineRead.next ⟨true, false, n, st, splitted⟩ =
      ⟨true, false, n, st ++ word, splitted⟩ := by
  induction word generalizing st with
  | nil => simp
  | cons c word ih =>
      rw [List.mem_cons, not_or] at hword
      rw [List.foldl_cons, LineRead.next]
      simp only [Bool.false_eq_true, if_false, if_true, if_neg (Ne.symm hword.1)]
      rw [ih hword.2, List.append_assoc, List.singleton_append]

theorem foldl_readingFileName {splitted : List QString} {n : Nat} (name st : QString) :
    name.foldl LineRead.next ⟨true, true, n, st, splitted⟩ =
      ⟨true, true, n, st ++ name, splitted⟩ := by
  induction name generalizing st with
  | nil => simp
  | cons c name ih =>
      rw [List.foldl_cons, LineRead.next]
      simp only [if_true]
      rw [ih, List.append_assoc, List.singleton_append]

theorem foldl_blanks (k : Nat) (splitted : List QString) :
    (List.replicate k ' ').foldl LineRead.next (LineRead.between splitted) =
      LineRead.between splitted := by
  induction k with
  | zero => rfl
  | succ k ih =>
      rw [List.replicate_succ, List.foldl_cons]
      exact ih

theorem foldl_column (column : Column) {splitted : List QString} (h : splitted.length < 8) :
    column.chars.foldl LineRead.next (LineRead.between splitted) =
      LineRead.between (splitted ++ [column.text]) := by
  obtain ⟨c, word, htext⟩ := List.exists_cons_of_ne_nil column.word.1
  have hword := column.word.2
  rw [htext, List.mem_cons, not_or] at hword
  have hfirst : (LineRead.between splitted).next c = ⟨true, false, splitted.length, [c], splitted⟩ := by
    simp only [LineRead.between, LineRead.next, Bool.false_eq_true, if_false]
    rw [if_pos (Ne.symm hword.1)]
    simp [Nat.ne_of_lt h]
  rw [Column.chars, htext, List.foldl_append, List.foldl_cons, hfirst, foldl_readingFile hword.2,
    List.replicate_succ, List.foldl_cons]
  have hblank : LineRead.next ⟨true, false, splitted.length, [c] ++ word, splitted⟩ ' ' =
      LineRead.between (splitted ++ [c :: word]) := by
    simp [LineRead.next, LineRead.between]
  rw [hblank]
  exact foldl_blanks _ _

theorem foldl_columns (columns : List Column) {splitted : List QString}
    (h : splitted.length + columns.length ≤ 8) :
    (columns.flatMap Column.chars).foldl LineRead.next (LineRead.between splitted) =
      LineRead.between (splitted ++ columns.map Column.text) := by
  induction columns generalizing splitted with
  | nil => simp
  | cons column columns ih =>
      rw [List.length_cons] at h
      rw [List.flatMap_cons, List.foldl_append, foldl_column column (by omega), ih]
      · simp
      · simp only [List.length_append, List.length_singleton]
        omega

theorem foldl_nameField {splitted : List QString} (h : splitted.length = 8) (field : QString)
    (hnamed : ∃ c ∈ field, c ≠ ' ') :
    field.foldl LineRead.next (LineRead.between splitted) =
      ⟨true, true, 8, field.dropWhile (· = ' '), splitted⟩ := by
  induction field with
  | nil =>
      obtain ⟨c, hmem, -⟩ := hnamed
      exact absurd hmem List.not_mem_nil
  | cons c field ih =>
      rw [List.foldl_cons]
      by_cases hc : c = ' '
      · obtain ⟨d, hmem, hd⟩ := hnamed
        have hrest : d ∈ field := (List.mem_cons.mp hmem).resolve_left fun heq => hd (heq.trans hc)
        rw [hc, List.dropWhile_cons_of_pos (by simp)]
        exact ih ⟨d, hrest, hd⟩
      · have hfirst : (LineRead.between splitted).next c = ⟨true, true, 8, [c], splitted⟩ := by
          simp [LineRead.between, LineRead.next, hc, h]
        rw [hfirst, foldl_readingFileName, List.dropWhile_cons_of_neg (by simpa using hc)]
        rfl

theorem parseRemoteFile_columns {columns : List Column} (h : columns.length = 8) {field : QString}
    (hnamed : ∃ c ∈ field, c ≠ ' ') :
    parseRemoteFile (columns.flatMap Column.chars ++ field) =
      columns.map Column.text ++ [field.dropWhile (· = ' ')] := by
  have hcolumns := @foldl_columns columns [] (by simp [h])
  rw [List.nil_append] at hcolumns
  rw [parseRemoteFile, List.foldl_append, hcolumns,
    foldl_nameField (by rw [List.length_map, h]) field hnamed]
  rfl

theorem parseRemoteFile_blanks {columns : List Column} (h : columns.length ≤ 8) (k : Nat) :
    parseRemoteFile (columns.flatMap Column.chars ++ List.replicate k ' ') =
      columns.map Column.text := by
  have hcolumns := @foldl_columns columns [] (by simpa using h)
  rw [List.nil_append] at hcolumns
  rw [parseRemoteFile, List.foldl_append, hcolumns, foldl_blanks]
  rfl

theorem endsWith_append {c : Char} {s t : QString} (h : t ≠ []) :
    endsWith c (s ++ t) = endsWith c t := by
  simp [endsWith, List.getLast?_append, List.getLast?_eq_some_getLast h]

theorem endsWith_concat (c d : Char) (s : QString) : endsWith c (s ++ [d]) = decide (d = c) := by
  simp [endsWith]

theorem chopStar_append {s t : QString} (h : t ≠ []) :
    chopStar (s ++ t) (s ++ t) = s ++ chopStar t t := by
  simp only [chopStar, endsWith_append h]
  split
  · exact List.dropLast_append_of_ne_nil h
  · rfl

theorem chopStar_concat_of_ne {c : Char} (h : c ≠ '*') (s : QString) :
    chopStar (s ++ [c]) (s ++ [c]) = s ++ [c] := by
  simp [chopStar, endsWith_concat, h]

theorem chopStar_concat_star (s : QString) : chopStar (s ++ ['*']) (s ++ ['*']) = s := by
  simp [chopStar, endsWith_concat]

theorem chopStar_eq_self_iff {s : QString} (h : s ≠ []) :
    chopStar s s = s ↔ endsWith '*' s = false := by
  cases hstar : endsWith '*' s with
  | false => simp [chopStar, hstar]
  | true =>
      have hpos := List.length_pos_iff.mpr h
      have hne : s.dropLast ≠ s := by
        intro heq
        have hlength := congrArg List.length heq
        rw [List.length_dropLast] at hlength
        omega
      simp [chopStar, hstar, hne]

theorem dropWhile_ne_nil {field : QString} (hnamed : ∃ c ∈ field, c ≠ ' ') :
    field.dropWhile (· = ' ') ≠ [] := by
  obtain ⟨c, hmem, hc⟩ := hnamed
  intro h
  exact hc (of_decide_eq_true (List.dropWhile_eq_nil_iff.mp h c hmem))

/-- What is read of a line is its text behind eight columns. -/
theorem addFileRemote_columns {columns : List Column} (h : columns.length = 8) {field : QString}
    (hnamed : ∃ c ∈ field, c ≠ ' ') (currentYear dir : QString) :
    let read := field.dropWhile (· = ' ')
    ∃ file, addFileRemote currentYear dir (columns.flatMap Column.chars ++ field) = some file ∧
      file.fileName = chopStar read read ∧ file.filePath = dir ++ chopStar read read ∧
      file.fileType = if endsWith '/' (chopStar read read) then .directory else .simple := by
  obtain ⟨c1, c2, c3, c4, c5, c6, c7, c8, rfl⟩ :
      ∃ c1 c2 c3 c4 c5 c6 c7 c8, columns = [c1, c2, c3, c4, c5, c6, c7, c8] := by
    match columns, h with
    | [c1, c2, c3, c4, c5, c6, c7, c8], _ => exact ⟨c1, c2, c3, c4, c5, c6, c7, c8, rfl⟩
  have hne := dropWhile_ne_nil hnamed
  have hchop : chopStar (dir ++ field.dropWhile (· = ' ')) (field.dropWhile (· = ' ')) =
      chopStar (field.dropWhile (· = ' ')) (field.dropWhile (· = ' ')) := by
    simp only [chopStar, endsWith_append hne]
  rw [addFileRemote, parseRemoteFile_columns h hnamed]
  refine ⟨_, rfl, hchop, chopStar_append hne, ?_⟩
  exact congrArg (fun name => if endsWith '/' name then FileType.directory else FileType.simple) hchop

namespace RemoteEntry

variable (e : RemoteEntry)

theorem length_columns : e.columns.length = 8 := by
  cases h : e.kind <;> simp [columns, h]

theorem nameField_named : ∃ c ∈ e.nameField, c ≠ ' ' := by
  obtain ⟨c, hmem, hc⟩ := e.named.1
  refine ⟨c, ?_, hc⟩
  rw [nameField]
  split
  · exact List.mem_append_right _ hmem
  · exact List.mem_append_left _ hmem

theorem addFileRemote_line (currentYear dir : QString) :
    ∃ file, addFileRemote currentYear dir e.line = some file ∧ file.fileName = e.shownName ∧
      file.filePath = dir ++ e.shownName ∧
      file.fileType = if endsWith '/' e.shownName then .directory else .simple :=
  addFileRemote_columns e.length_columns e.nameField_named currentYear dir

/-- The name without its leading blanks. -/
def tail : QString := e.name.dropWhile (· = ' ')

theorem tail_ne_nil : e.tail ≠ [] := by
  obtain ⟨c, hmem, hc⟩ := e.named.1
  intro h
  exact hc (of_decide_eq_true (List.dropWhile_eq_nil_iff.mp h c hmem))

theorem dropWhile_name_append (s : QString) : (e.name ++ s).dropWhile (· = ' ') = e.tail ++ s := by
  rw [List.dropWhile_append, if_neg]
  · rfl
  · rw [List.isEmpty_iff]
    exact e.tail_ne_nil

theorem tail_eq_iff : e.tail = e.name ↔ e.name.head? ≠ some ' ' := by
  rw [tail]
  cases e.name with
  | nil => simp
  | cons c name =>
      by_cases hc : c = ' '
      · rw [List.dropWhile_cons_of_pos (by simpa using hc)]
        apply iff_of_false
        · intro h
          have hlength := congrArg List.length h
          have hle := (List.dropWhile_sublist (l := name) (· = ' ')).length_le
          rw [List.length_cons] at hlength
          omega
        · simp [hc]
      · rw [List.dropWhile_cons_of_neg (by simpa using hc)]
        simp [hc]

theorem slash_notMem_tail : '/' ∉ e.tail := fun h => e.named.2.1 ((List.dropWhile_sublist _).mem h)

theorem shownName_eq_of_mark {mark : QString} (h : e.nameField = e.name ++ mark) :
    e.shownName = chopStar (e.tail ++ mark) (e.tail ++ mark) := by
  rw [shownName, h, dropWhile_name_append]

theorem shownName_device {minor : Column} (h : e.kind = .device minor) :
    e.shownName = chopStar (e.time.chars ++ e.name) (e.time.chars ++ e.name) := by
  obtain ⟨c, word, htext⟩ := List.exists_cons_of_ne_nil e.time.word.1
  have hc : c ≠ ' ' := by
    intro heq
    apply e.time.word.2
    rw [htext, heq]
    exact List.mem_cons_self
  have hfield : e.nameField = e.time.chars ++ e.name := by rw [nameField, h]
  have hdrop : (e.time.chars ++ e.name).dropWhile (· = ' ') = e.time.chars ++ e.name := by
    rw [Column.chars, htext, List.cons_append, List.cons_append,
      List.dropWhile_cons_of_neg (by simpa using hc)]
  rw [shownName, hfield, hdrop]

theorem length_chopStar (s : QString) : s.length - 1 ≤ (chopStar s s).length := by
  rw [chopStar]
  split <;> simp

theorem head?_tail_append (s : QString) : (e.tail ++ s).head? ≠ some ' ' := by
  obtain ⟨c, rest, heq⟩ := List.exists_cons_of_ne_nil e.tail_ne_nil
  have hhead := List.head?_dropWhile_not (fun c : Char => decide (c = ' ')) e.name
  have htail : e.name.dropWhile (fun c => decide (c = ' ')) = c :: rest := heq
  rw [htail] at hhead
  rw [heq]
  simpa using hhead

/-- With a mark that is not taken off, the text is never the name. -/
theorem tail_append_ne_name {s : QString} (h : s ≠ []) : e.tail ++ s ≠ e.name := by
  intro heq
  have hhead := e.head?_tail_append s
  rw [heq] at hhead
  rw [e.tail_eq_iff.mpr hhead] at heq
  exact h (List.append_right_eq_self.mp heq)

/-- A plain file is read back if there is no star to take off. -/
theorem name_eq_chopStar_tail_iff :
    e.name = chopStar e.tail e.tail ↔ e.tail = e.name ∧ endsWith '*' e.name = false := by
  constructor
  · intro heq
    have hlength := congrArg List.length heq
    have hle : e.tail.length ≤ e.name.length := (List.dropWhile_sublist _).length_le
    have hpos := List.length_pos_iff.mpr e.tail_ne_nil
    cases hstar : endsWith '*' e.tail with
    | true =>
        rw [chopStar, hstar, if_pos rfl, List.length_dropLast] at hlength
        omega
    | false =>
        rw [chopStar, hstar, if_neg Bool.false_ne_true] at heq
        rw [← heq] at hstar
        exact ⟨heq.symm, hstar⟩
  · rintro ⟨htail, hstar⟩
    rw [htail, chopStar, hstar, if_neg Bool.false_ne_true]

/-- The name of a device has the time before it. -/
theorem name_ne_shownName_device {minor : Column} (h : e.kind = .device minor) :
    e.name ≠ e.shownName := by
  intro heq
  rw [e.shownName_device h] at heq
  have hlength := congrArg List.length heq
  have hle := length_chopStar (e.time.chars ++ e.name)
  have hpos := List.length_pos_iff.mpr e.time.word.1
  have hchars : e.time.chars.length = e.time.text.length + (e.time.pad + 1) := by
    simp [Column.chars]
  rw [List.length_append] at hle
  omega

theorem readable_iff (h : e.isSymlink = false) : e.Readable ↔ e.trueName = e.shownName := by
  have hmark {kind : EntryKind} (hkind : e.kind = kind) (hfield : e.nameField = e.name ++ kind.mark) :
      e.shownName = chopStar (e.tail ++ kind.mark) (e.tail ++ kind.mark) :=
    e.shownName_eq_of_mark hfield
  rw [Readable, trueName, isDirectory]
  cases hkind : e.kind with
  | file =>
      have hshown := hmark hkind (by rw [nameField, hkind])
      simp only [EntryKind.mark, List.append_nil] at hshown
      simp only [hshown, Bool.false_eq_true, if_false, List.append_nil, ← tail_eq_iff]
      exact e.name_eq_chopStar_tail_iff.symm
  | executable =>
      have hshown := hmark hkind (by rw [nameField, hkind])
      simp only [EntryKind.mark, chopStar_concat_star] at hshown
      simp only [hshown, Bool.false_eq_true, if_false, List.append_nil, ← tail_eq_iff, and_true]
      exact eq_comm
  | directory =>
      have hshown := hmark hkind (by rw [nameField, hkind])
      simp only [EntryKind.mark, chopStar_concat_of_ne (show '/' ≠ '*' by decide)] at hshown
      simp only [hshown, if_true, ← tail_eq_iff, and_true, List.append_left_inj]
      exact eq_comm
  | symlink target =>
      rw [isSymlink, hkind] at h
      exact absurd h.symm Bool.false_ne_true
  | fifo =>
      have hshown := hmark hkind (by rw [nameField, hkind])
      simp only [EntryKind.mark, chopStar_concat_of_ne (show '|' ≠ '*' by decide)] at hshown
      simp only [hshown, Bool.false_eq_true, if_false, List.append_nil, and_false, false_iff]
      exact (e.tail_append_ne_name (List.cons_ne_nil _ _)).symm
  | socket =>
      have hshown := hmark hkind (by rw [nameField, hkind])
      simp only [EntryKind.mark, chopStar_concat_of_ne (show '=' ≠ '*' by decide)] at hshown
      simp only [hshown, Bool.false_eq_true, if_false, List.append_nil, and_false, false_iff]
      exact (e.tail_append_ne_name (List.cons_ne_nil _ _)).symm
  | device minor =>
      simp only [Bool.false_eq_true, if_false, List.append_nil, and_false, false_iff]
      exact e.name_ne_shownName_device hkind

theorem slash_notMem_chopStar {s t : QString} (h : '/' ∉ s) : '/' ∉ chopStar t s := by
  rw [chopStar]
  split
  · exact fun hmem => h (List.dropLast_subset s hmem)
  · exact h

theorem shownName_directory (h : e.isDirectory = true) : e.shownName = e.tail ++ ['/'] := by
  rw [isDirectory] at h
  split at h
  · rename_i hkind
    have hfield : e.nameField = e.name ++ ['/'] := by
      rw [nameField, hkind]
      rfl
    rw [e.shownName_eq_of_mark hfield]
    exact chopStar_concat_of_ne (by decide) _
  · exact absurd h Bool.false_ne_true

theorem slash_notMem_shownName (hlink : e.isSymlink = false) (h : e.isDirectory = false) :
    '/' ∉ e.shownName := by
  have hfield : '/' ∉ e.nameField := by
    rw [nameField]
    split
    · rw [Column.chars, List.mem_append, List.mem_append, not_or, not_or]
      exact ⟨⟨e.noSlash, by simp⟩, e.named.2.1⟩
    · rw [List.mem_append, not_or]
      refine ⟨e.named.2.1, ?_⟩
      rw [isSymlink] at hlink
      rw [isDirectory] at h
      cases hkind : e.kind with
      | symlink target =>
          rw [hkind] at hlink
          exact absurd hlink.symm Bool.false_ne_true
      | directory =>
          rw [hkind] at h
          exact absurd h.symm Bool.false_ne_true
      | file | executable | fifo | socket | device minor => simp [EntryKind.mark]
  exact slash_notMem_chopStar fun hmem => hfield ((List.dropWhile_sublist _).mem hmem)

theorem slash_notMem_dropLast_shownName (hlink : e.isSymlink = false) :
    '/' ∉ e.shownName.dropLast := by
  cases h : e.isDirectory with
  | true =>
      rw [e.shownName_directory h, List.dropLast_concat]
      exact e.slash_notMem_tail
  | false => exact fun hmem => e.slash_notMem_shownName hlink h (List.dropLast_subset _ hmem)

theorem slash_notMem_dropLast_trueName : '/' ∉ e.trueName.dropLast := by
  rw [trueName]
  split
  · rw [List.dropLast_concat]
    exact e.named.2.1
  · rw [List.append_nil]
    exact fun hmem => e.named.2.1 (List.dropLast_subset _ hmem)

theorem trueName_ne_nil : e.trueName ≠ [] := by
  obtain ⟨c, hmem, -⟩ := e.named.1
  exact List.append_ne_nil_of_left_ne_nil (List.ne_nil_of_mem hmem) _

end RemoteEntry

theorem slash_mem_dropLast_append {w s : QString} (h : endsWith '/' w = true) (hs : s ≠ []) :
    '/' ∈ (w ++ s).dropLast := by
  rw [List.dropLast_append_of_ne_nil hs]
  exact List.mem_append_left _ (List.mem_of_getLast? (of_decide_eq_true h))

/-- Two paths are the same only when directory and name are. -/
theorem path_eq_iff {dir current x y : QString} (hdir : endsWith '/' dir = true)
    (hcurrent : endsWith '/' current = true) (hx : '/' ∉ x.dropLast) (hy : '/' ∉ y.dropLast)
    (hne : y ≠ []) (hslash : '/' ∈ y → x ≠ []) :
    current ++ x = dir ++ y ↔ current = dir ∧ y = x := by
  constructor
  · intro heq
    obtain ⟨w, rfl, rfl⟩ | ⟨w, rfl, rfl⟩ := List.append_eq_append_iff.mp heq
    · by_cases hw : w = []
      · simp [hw]
      · rw [endsWith_append hw] at hdir
        exact absurd (slash_mem_dropLast_append hdir hne) hx
    · by_cases hw : w = []
      · simp [hw]
      · rw [endsWith_append hw] at hcurrent
        have hmem : '/' ∈ w := List.mem_of_getLast? (of_decide_eq_true hcurrent)
        have hnext : x ≠ [] := hslash (List.mem_append_left _ hmem)
        exact absurd (slash_mem_dropLast_append hcurrent hnext) hy
  · rintro ⟨rfl, rfl⟩
    rfl

theorem RemoteEntry.path_eq_iff (e : RemoteEntry) (hlink : e.isSymlink = false)
    {dir current : QString} (hdir : endsWith '/' dir = true) (hcurrent : endsWith '/' current = true) :
    current ++ e.shownName = dir ++ e.trueName ↔ current = dir ∧ e.Readable := by
  rw [e.readable_iff hlink]
  apply Transfer.path_eq_iff hdir hcurrent (e.slash_notMem_dropLast_shownName hlink)
    e.slash_notMem_dropLast_trueName e.trueName_ne_nil
  intro hmem
  cases h : e.isDirectory with
  | true => simp [e.shownName_directory h]
  | false =>
      rw [trueName, h] at hmem
      simp only [Bool.false_eq_true, if_false, List.append_nil] at hmem
      exact absurd hmem e.named.2.1

theorem RemoteEntry.endsWith_trueName (e : RemoteEntry) : endsWith '/' e.trueName = e.isDirectory := by
  rw [trueName]
  cases e.isDirectory with
  | true => simp [endsWith_concat]
  | false =>
      simp only [Bool.false_eq_true, if_false, List.append_nil, endsWith, decide_eq_false_iff_not]
      exact fun h => e.named.2.1 (List.mem_of_getLast? h)

theorem RemoteEntry.head?_line (e : RemoteEntry) : e.line.head? = some e.kind.typeChar := by
  rw [line, columns]
  split <;> rfl

theorem RemoteEntry.typeChar_eq_iff (e : RemoteEntry) :
    e.kind.typeChar = 'l' ↔ e.isSymlink = true := by
  rw [isSymlink]
  cases e.kind <;> simp [EntryKind.typeChar]

/-- A line that ends within its columns. -/
theorem parseRemoteFile_word {columns : List Column} (h : columns.length < 8) {word : QString}
    (hword : word ≠ [] ∧ ' ' ∉ word) :
    parseRemoteFile (columns.flatMap Column.chars ++ word) = columns.map Column.text ++ [word] := by
  obtain ⟨c, rest, rfl⟩ := List.exists_cons_of_ne_nil hword.1
  have hcolumns := @foldl_columns columns [] (by simp; omega)
  have hno := hword.2
  rw [List.mem_cons, not_or] at hno
  have hfirst : (LineRead.between (columns.map Column.text)).next c =
      ⟨true, false, columns.length, [c], columns.map Column.text⟩ := by
    simp [LineRead.between, LineRead.next, Ne.symm hno.1, Nat.ne_of_lt h]
  rw [List.nil_append] at hcolumns
  rw [parseRemoteFile, List.foldl_append, hcolumns, List.foldl_cons, hfirst,
    foldl_readingFile hno.2]
  rfl

end SubutaiTray.Transfer
