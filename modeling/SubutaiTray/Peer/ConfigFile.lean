import Mathlib.Data.List.DropRight
import SubutaiTray.Installer.Functions
import SubutaiTray.Library.Runs
import SubutaiTray.Library.Splitting
import SubutaiTray.Qt.Numbers
import SubutaiTray.Qt.PlaceMarkers

/-!
The configuration file of a peer, `vagrant-subutai.yml`, and its two writers:
`DlgCreatePeer::init_completed` when the peer is created and
`DlgPeer::change_configs` when the user edits it.

The format is one `KEY : VALUE` a line. A text of a form has no line breaks.
-/
namespace SubutaiTray.Peer

open Splitting Installer

structure LineText where
  text : QString
  oneLine : '\n' ∉ text

inductive Provider where
  | virtualbox
  | vmwareDesktop
  | hyperv
  | parallels
  | libvirt
  deriving DecidableEq

def trimmed (s : QString) : QString := (s.dropWhile isSpace).rdropWhile isSpace

/-- The lines that are not empty. -/
def fileLines (output : QString) : List QString := (split ['\n'] output).filter (· ≠ [])

/-- `stream << "KEY : " << value << endl` -/
def ymlLine (key value : QString) : QString := key ++ " : ".toList ++ value ++ ['\n']

def quoted (value : QString) : QString := arg "\"%1\"".toList value

def subutaiEnv (branch : QString) : QString :=
  if branch = "production".toList then "prod".toList
  else if branch = "development".toList then "dev".toList
  else "master".toList

/-- `QDir::fromNativeSeparators` -/
def fromNativeSeparators (windows : Bool) (path : QString) : QString :=
  if windows then path.map fun c => if c = '\\' then '/' else c else path

/-- What `init_completed` reads. -/
structure NewPeer where
  port : Int
  ram : LineText
  cpu : LineText
  disk : LineText
  bridge : LineText
  branch : QString
  provider : Provider
  windows : Bool
  vmStorage : LineText

def NewPeer.initCompleted (peer : NewPeer) : QString :=
  ymlLine "DESIRED_CONSOLE_PORT".toList (number peer.port) ++
  ymlLine "SUBUTAI_RAM".toList peer.ram.text ++
  ymlLine "SUBUTAI_CPU".toList peer.cpu.text ++
  ymlLine "SUBUTAI_ENV".toList (subutaiEnv peer.branch) ++
  ymlLine "DISK_SIZE".toList peer.disk.text ++
  (if peer.bridge.text ≠ [] then ymlLine "BRIDGE".toList (quoted peer.bridge.text) else []) ++
  (match peer.provider with
  | .virtualbox =>
      "SUBUTAI_DISK_PATH : ".toList ++
        quoted (fromNativeSeparators peer.windows peer.vmStorage.text)
  | _ => [])

/-- What `DlgPeer` knows of the configuration. -/
structure DlgPeer where
  rhRam : QString
  rhCpu : QString
  rhDisk : QString
  rhBridge : QString
  deriving DecidableEq

/-- The flag and the value of a line as far as it was read. -/
structure YmlRead where
  flag : QString
  value : QString
  readingValue : Bool
  deriving DecidableEq

def YmlRead.next (r : YmlRead) (c : Char) : YmlRead :=
  if r.readingValue then { r with value := r.value ++ [c] }
  else if c = ':' then { r with flag := r.value, value := [] }
  else if c ≠ ' ' then
    { r with
      readingValue := r.value = [] && r.flag ≠ []
      value := r.value ++ [c] }
  else r

def parseLine (s : QString) : YmlRead := (trimmed s).foldl YmlRead.next ⟨[], [], false⟩

def DlgPeer.parseLine (dlg : DlgPeer) (s : QString) : DlgPeer :=
  let r := Peer.parseLine s
  { rhRam := if r.flag = "SUBUTAI_RAM".toList then r.value else dlg.rhRam
    rhCpu := if r.flag = "SUBUTAI_CPU".toList then r.value else dlg.rhCpu
    rhDisk := if r.flag = "DISK_SIZE".toList then r.value else dlg.rhDisk
    rhBridge := if r.flag = "BRIDGE".toList then r.value else dlg.rhBridge }

/-- `opened` tells whether the file could be opened. -/
def DlgPeer.parseYml (changeConfigure opened : Bool) (file : Option QString) (dlg : DlgPeer) :
    DlgPeer :=
  if changeConfigure then dlg
  else
    match file with
    | some output => if opened then (fileLines output).foldl DlgPeer.parseLine dlg else dlg
    | none => dlg

/-- The fields of the dialog, and what the edit finds on the machine. -/
structure Edit where
  ram : LineText
  cpu : LineText
  disk : LineText
  bridge : LineText
  branch : QString
  ramSize : Int
  diskSize : Int
  removed : Bool
  opened : Bool

def DlgPeer.checkConfigs (dlg : DlgPeer) (edit : Edit) : Bool :=
  let ram := toInt (trimmed edit.ram.text)
  let cpu := toInt (trimmed edit.cpu.text)
  let disk := toInt (trimmed edit.disk.text)
  if ram < 2048 then false
  else if cpu < 1 then false
  else if disk < toInt (trimmed dlg.rhDisk) then false
  else if edit.ramSize < ram then false
  else if edit.diskSize < disk then false
  else true

def Edit.fields (edit : Edit) : DlgPeer where
  rhRam := edit.ram.text
  rhCpu := edit.cpu.text
  rhDisk := edit.disk.text
  rhBridge := edit.bridge.text

def Edit.file (edit : Edit) : QString :=
  ymlLine "SUBUTAI_RAM".toList edit.ram.text ++
  ymlLine "SUBUTAI_CPU".toList edit.cpu.text ++
  ymlLine "SUBUTAI_ENV".toList (subutaiEnv edit.branch) ++
  ymlLine "DISK_SIZE".toList edit.disk.text ++
  ymlLine "BRIDGE".toList (quoted edit.bridge.text)

/-- The answer of the function, the dialog and the file after it. -/
def DlgPeer.changeConfigs (edit : Edit) (dlg : DlgPeer) (file : Option QString) :
    Bool × DlgPeer × Option QString :=
  if dlg.checkConfigs edit = false then (false, dlg, file)
  else
    match file with
    | none => (false, edit.fields, none)
    | some text =>
        if edit.removed = false then (false, edit.fields, some text)
        else if edit.opened = false then (false, edit.fields, none)
        else (true, edit.fields, some edit.file)

inductive ConfigEvent where
  | parseYml (changeConfigure opened : Bool)
  | changeConfigs (edit : Edit)

structure ConfigRun where
  dlg : DlgPeer
  file : Option QString

/-- Only accepted edits are steps. -/
def ConfigRun.step (run : ConfigRun) : ConfigEvent → Option ConfigRun
  | .parseYml changeConfigure opened =>
      some { run with dlg := run.dlg.parseYml changeConfigure opened run.file }
  | .changeConfigs edit =>
      let res := run.dlg.changeConfigs edit run.file
      if res.1 then some { dlg := res.2.1, file := res.2.2 } else none

def ConfigEvent.isEdit : ConfigEvent → Bool
  | .parseYml _ _ => false
  | .changeConfigs _ => true

/-! ## What a file says -/

/-- The key of a line ends at its first colon. -/
def lineEntry (line : QString) : QString × QString :=
  (trimmed (line.takeWhile (· ≠ ':')), trimmed ((line.dropWhile (· ≠ ':')).drop 1))

def entries (output : QString) : List (QString × QString) := (fileLines output).map lineEntry

def keys (output : QString) : List QString := (entries output).map Prod.fst

/-- The keys that an edit may change. -/
def editable : List QString :=
  ["SUBUTAI_RAM".toList, "SUBUTAI_CPU".toList, "DISK_SIZE".toList, "BRIDGE".toList,
    "SUBUTAI_ENV".toList]

structure Preserved (before after : QString) : Prop where
  keys : ∀ key ∈ keys before, key ∈ keys after
  values : ∀ key value, key ∉ editable → (key, value) ∈ entries before →
    (key, value) ∈ entries after

/-- No colon and no blank, as in all keys of the two writers. -/
def PlainKey (key : QString) : Prop := key ≠ [] ∧ ∀ c ∈ key, c ≠ ':' ∧ c ≠ '\n' ∧ isSpace c = false

instance (key : QString) : Decidable (PlainKey key) :=
  @instDecidableAnd _ _ inferInstance (List.decidableBAll _ key)

section
variable {key value : QString}

theorem dropWhile_isSpace_of_plain (h : PlainKey key) (rest : QString) :
    (key ++ rest).dropWhile isSpace = key ++ rest := by
  obtain ⟨c, cs, rfl⟩ := List.exists_cons_of_ne_nil h.1
  have hspace := (h.2 c List.mem_cons_self).2.2
  rw [List.cons_append, List.dropWhile_cons_of_neg (by rw [hspace]; decide)]

theorem trimmed_plain_blank (h : PlainKey key) : trimmed (key ++ [' ']) = key := by
  rw [trimmed, dropWhile_isSpace_of_plain h, List.rdropWhile_concat_pos _ _ _ (by decide),
    List.rdropWhile_eq_self_iff]
  intro hne
  rw [(h.2 _ (List.getLast_mem hne)).2.2]
  decide

theorem trimmed_blank_cons (s : QString) : trimmed (' ' :: s) = trimmed s := by
  rw [trimmed, List.dropWhile_cons_of_pos (by decide), trimmed]

theorem lineEntry_plain (h : PlainKey key) (value : QString) :
    lineEntry (key ++ " : ".toList ++ value) = (key, trimmed value) := by
  have hsplit : key ++ " : ".toList ++ value = (key ++ [' ']) ++ ':' :: ' ' :: value := by
    rw [List.append_assoc, List.append_assoc]
    rfl
  have hno : ∀ c ∈ key ++ [' '], decide (c ≠ ':') = true := by
    intro c hc
    rw [decide_eq_true_eq]
    cases List.mem_append.mp hc with
    | inl hkey => exact (h.2 c hkey).1
    | inr hblank =>
        rw [List.mem_singleton.mp hblank]
        decide
  rw [lineEntry, hsplit, List.takeWhile_append_of_pos hno, List.dropWhile_append_of_pos hno,
    List.takeWhile_cons_of_neg (by decide), List.dropWhile_cons_of_neg (by decide), List.append_nil,
    trimmed_plain_blank h, List.drop_succ_cons, List.drop_zero, trimmed_blank_cons]

theorem fileLines_ymlLine_append (hkey : PlainKey key) (hvalue : '\n' ∉ value) (rest : QString) :
    fileLines (ymlLine key value ++ rest) = (key ++ " : ".toList ++ value) :: fileLines rest := by
  have hline : '\n' ∉ key ++ " : ".toList ++ value := by
    rw [List.mem_append, List.mem_append, not_or, not_or]
    exact ⟨⟨fun h => (hkey.2 _ h).2.1 rfl, by decide⟩, hvalue⟩
  have hne : key ++ " : ".toList ++ value ≠ [] := by
    rw [List.append_assoc]
    exact List.append_ne_nil_of_left_ne_nil hkey.1 _
  rw [fileLines, ymlLine, List.append_assoc]
  have := split_append_sep hline [] rest
  rw [List.singleton_append] at this
  rw [List.singleton_append, this,
    List.filter_cons_of_pos (p := fun line : QString => decide (line ≠ [])) (decide_eq_true hne),
    fileLines]

theorem entries_ymlLine_append (hkey : PlainKey key) (hvalue : '\n' ∉ value) (rest : QString) :
    entries (ymlLine key value ++ rest) = (key, trimmed value) :: entries rest := by
  rw [entries, fileLines_ymlLine_append hkey hvalue, List.map_cons, lineEntry_plain hkey, entries]

theorem newline_notMem_quoted (h : '\n' ∉ value) : '\n' ∉ quoted value := by
  have hquoted : quoted value = '"' :: value ++ ['"'] := rfl
  rw [hquoted, List.cons_append, List.mem_cons, List.mem_append, not_or, not_or]
  exact ⟨by decide, h, by decide⟩

theorem newline_notMem_subutaiEnv (branch : QString) : '\n' ∉ subutaiEnv branch := by
  rw [subutaiEnv]
  split
  · decide
  · split <;> decide

end

theorem entries_nil : entries [] = [] := rfl

theorem keys_editFile (edit : Edit) :
    keys edit.file = ["SUBUTAI_RAM".toList, "SUBUTAI_CPU".toList, "SUBUTAI_ENV".toList,
      "DISK_SIZE".toList, "BRIDGE".toList] := by
  have hlast := @entries_ymlLine_append "BRIDGE".toList (quoted edit.bridge.text) (by decide)
    (newline_notMem_quoted edit.bridge.oneLine) []
  rw [List.append_nil] at hlast
  rw [keys, Edit.file, List.append_assoc, List.append_assoc, List.append_assoc,
    entries_ymlLine_append (by decide) edit.ram.oneLine,
    entries_ymlLine_append (by decide) edit.cpu.oneLine,
    entries_ymlLine_append (by decide) (newline_notMem_subutaiEnv edit.branch),
    entries_ymlLine_append (by decide) edit.disk.oneLine, hlast, entries_nil]
  rfl

theorem desired_console_port_mem (peer : NewPeer) :
    "DESIRED_CONSOLE_PORT".toList ∈ keys peer.initCompleted := by
  rw [keys, NewPeer.initCompleted]
  simp only [List.append_assoc]
  rw [entries_ymlLine_append (by decide) (notMem_number (by decide) (by decide) peer.port), List.map_cons]
  exact List.mem_cons_self

theorem Preserved.refl (output : QString) : Preserved output output :=
  ⟨fun _ h => h, fun _ _ _ h => h⟩

theorem not_preserved_editFile (peer : NewPeer) (edit : Edit) :
    ¬ Preserved peer.initCompleted edit.file := by
  intro h
  have hkept := h.keys _ (desired_console_port_mem peer)
  rw [keys_editFile] at hkept
  exact absurd hkept (by decide)

theorem file_of_accepted {edit : Edit} {dlg : DlgPeer} {file : Option QString}
    (h : (dlg.changeConfigs edit file).1 = true) :
    (dlg.changeConfigs edit file).2.2 = some edit.file := by
  cases hcheck : dlg.checkConfigs edit with
  | false => simp [DlgPeer.changeConfigs, hcheck] at h
  | true =>
      cases file with
      | none => simp [DlgPeer.changeConfigs, hcheck] at h
      | some text =>
          cases hremoved : edit.removed with
          | false => simp [DlgPeer.changeConfigs, hcheck, hremoved] at h
          | true =>
              cases hopened : edit.opened with
              | false => simp [DlgPeer.changeConfigs, hcheck, hremoved, hopened] at h
              | true => simp [DlgPeer.changeConfigs, hcheck, hremoved, hopened]

variable {run run' : ConfigRun}

theorem file_of_step {event : ConfigEvent} (h : run.step event = some run') :
    (event.isEdit = false ∧ run'.file = run.file) ∨
      (event.isEdit = true ∧ ∃ edit : Edit, run'.file = some edit.file) := by
  cases event with
  | parseYml changeConfigure opened =>
      rw [← Option.some.inj h]
      exact Or.inl ⟨rfl, rfl⟩
  | changeConfigs edit =>
      right
      refine ⟨rfl, edit, ?_⟩
      simp only [ConfigRun.step] at h
      split at h
      · rw [← Option.some.inj h]
        exact file_of_accepted ‹_›
      · exact absurd h.symm (Option.some_ne_none _)

/-- As long as nothing was edited the file is as it was, and from then on it is the file of
some edit. -/
theorem file_of_run {events : List ConfigEvent}
    (h : events.foldlM ConfigRun.step run = some run') :
    (events.any ConfigEvent.isEdit = false ∧ run'.file = run.file) ∨
      (events.any ConfigEvent.isEdit = true ∧ ∃ edit : Edit, run'.file = some edit.file) := by
  induction events using List.reverseRecOn generalizing run' with
  | nil =>
      rw [← Option.some.inj h]
      exact Or.inl ⟨rfl, rfl⟩
  | append_singleton past event ih =>
      rw [Runs.foldlM_concat] at h
      obtain ⟨before, hpast, hstep⟩ := Option.bind_eq_some_iff.mp h
      rw [List.any_append]
      cases file_of_step hstep with
      | inl hsame =>
          rw [List.any_cons, hsame.1, hsame.2]
          cases ih hpast with
          | inl hno => exact Or.inl ⟨by rw [hno.1]; rfl, hno.2⟩
          | inr hedit => exact Or.inr ⟨by rw [hedit.1]; rfl, hedit.2⟩
      | inr hedit =>
          rw [List.any_cons, hedit.1]
          exact Or.inr ⟨Bool.or_true _, hedit.2⟩

/-- An edit writes five keys, so what else the file said is kept only while nothing is
edited. -/
theorem config_preserved_iff_no_edit (peer : NewPeer) (dlg : DlgPeer) {events : List ConfigEvent}
    (h : events.foldlM ConfigRun.step ⟨dlg, some peer.initCompleted⟩ = some run) :
    (∃ after, run.file = some after ∧ Preserved peer.initCompleted after) ↔
      events.any ConfigEvent.isEdit = false := by
  cases file_of_run h with
  | inl hno => exact iff_of_true ⟨_, hno.2, Preserved.refl _⟩ hno.1
  | inr hedit =>
      obtain ⟨edit, hfile⟩ := hedit.2
      apply iff_of_false
      · rintro ⟨after, hafter, hkept⟩
        rw [hfile] at hafter
        rw [← Option.some.inj hafter] at hkept
        exact not_preserved_editFile peer edit hkept
      · rw [hedit.1]
        decide

/-- A peer of VirtualBox as it is created, and an edit of its memory. -/
def virtualboxPeer : NewPeer where
  port := 9999
  ram := ⟨"4096".toList, by decide⟩
  cpu := ⟨"2".toList, by decide⟩
  disk := ⟨"100".toList, by decide⟩
  bridge := ⟨"eth0".toList, by decide⟩
  branch := "production".toList
  provider := .virtualbox
  windows := false
  vmStorage := ⟨"/vms".toList, by decide⟩

def memoryEdit : Edit where
  ram := ⟨"8192".toList, by decide⟩
  cpu := ⟨"2".toList, by decide⟩
  disk := ⟨"100".toList, by decide⟩
  bridge := ⟨"eth0".toList, by decide⟩
  branch := "production".toList
  ramSize := 16384
  diskSize := 500
  removed := true
  opened := true

theorem memoryEdit_run :
    [.parseYml false true, .changeConfigs memoryEdit].foldlM ConfigRun.step
      ⟨⟨[], [], [], []⟩, some virtualboxPeer.initCompleted⟩ =
      some ⟨memoryEdit.fields, some memoryEdit.file⟩ := rfl

theorem config_preserved_iff_no_edit_memory :
    ¬ ∃ after, (ConfigRun.mk memoryEdit.fields (some memoryEdit.file)).file = some after ∧
      Preserved virtualboxPeer.initCompleted after := by
  rw [config_preserved_iff_no_edit virtualboxPeer ⟨[], [], [], []⟩ memoryEdit_run]
  decide

/-- The console port of the peer is not in the file that the edit of the memory leaves. -/
theorem memoryEdit_loses_console_port :
    [.parseYml false true, .changeConfigs memoryEdit].foldlM ConfigRun.step
      ⟨⟨[], [], [], []⟩, some virtualboxPeer.initCompleted⟩ =
      some ⟨memoryEdit.fields, some memoryEdit.file⟩ ∧
    ("DESIRED_CONSOLE_PORT".toList, "9999".toList) ∈ entries virtualboxPeer.initCompleted ∧
    ("SUBUTAI_DISK_PATH".toList, "\"/vms\"".toList) ∈ entries virtualboxPeer.initCompleted ∧
    "DESIRED_CONSOLE_PORT".toList ∉ keys memoryEdit.file ∧
    "SUBUTAI_DISK_PATH".toList ∉ keys memoryEdit.file ∧
    ¬ Preserved virtualboxPeer.initCompleted memoryEdit.file := by
  refine ⟨memoryEdit_run, by decide, by decide, ?_, ?_, not_preserved_editFile _ _⟩
  · rw [keys_editFile]
    decide
  · rw [keys_editFile]
    decide

end SubutaiTray.Peer
