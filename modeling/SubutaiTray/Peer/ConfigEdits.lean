import SubutaiTray.Peer.KeyValueScanners

/-!
What an edit of the configuration leaves to the dialog.

`change_configs` keeps the bridge as it is shown and writes it in quotes; `parse_yml` reads
it back with the quotes, and `configs` looks for it with quotes. It takes over the fields
before it touches the file.
-/
namespace SubutaiTray.Peer

open Installer (isSpace)

/-- The list of bridges of the dialog; nothing may be chosen. -/
structure BridgeList where
  items : List QString
  currentIndex : Option Nat

namespace BridgeList

def currentText (cmb : BridgeList) : QString :=
  (cmb.currentIndex.bind fun i => cmb.items[i]?).getD []

def setCurrentIndex (i : Nat) (cmb : BridgeList) : BridgeList :=
  { cmb with currentIndex := if i < cmb.items.length then some i else none }

end BridgeList

/-- The fields that `configs` fills. -/
structure ConfigFields where
  leCpu : QString
  leRam : QString
  leDisk : QString
  cmbBridge : BridgeList

/-- The first bridge that is `rh_bridge` when it gets quotes. -/
def DlgPeer.indexBridge (dlg : DlgPeer) (bridges : List QString) : Option Nat :=
  bridges.findIdx? fun bridge => '"' :: (bridge ++ ['"']) = dlg.rhBridge

def DlgPeer.configs (changeConfigure : Bool) (bridges : List QString) (dlg : DlgPeer)
    (fields : ConfigFields) : ConfigFields :=
  if changeConfigure then fields
  else
    { leCpu := dlg.rhCpu
      leRam := dlg.rhRam
      leDisk := dlg.rhDisk
      cmbBridge :=
        match dlg.indexBridge bridges with
        | some index => fields.cmbBridge.setCurrentIndex index
        | none => fields.cmbBridge }

theorem quoted_eq (value : QString) : quoted value = '"' :: (value ++ ['"']) := rfl

theorem quoted_ne (value : QString) : quoted value ≠ value := by
  intro h
  have hlength := congrArg List.length h
  rw [quoted_eq, List.length_cons, List.length_append] at hlength
  omega

theorem quoted_injective {value value' : QString} (h : quoted value = quoted value') :
    value = value' := by
  rw [quoted_eq, quoted_eq, List.cons.injEq] at h
  exact List.append_cancel_right h.2

/-! ## What `parse_yml` reads of the file of an edit -/

section
variable {key value : QString}

theorem trimmed_line (hkey : PlainKey key) (hvalue : value ≠ [])
    (hlast : isSpace (value.getLast hvalue) = false) :
    trimmed (key ++ " : ".toList ++ value) = key ++ " : ".toList ++ value := by
  rw [trimmed, List.append_assoc, dropWhile_isSpace_of_plain hkey, List.rdropWhile_eq_self_iff]
  intro hne
  rw [List.getLast_append_of_ne_nil _ (List.append_ne_nil_of_right_ne_nil _ hvalue),
    List.getLast_append_of_ne_nil _ hvalue, hlast]
  exact Bool.false_ne_true

theorem parseLine_text (key : ScannedKey) (hkey : PlainKey key.text) {c : Char} {s : QString}
    (hc : c ≠ ' ' ∧ c ≠ ':') (hlast : isSpace ((c :: s).getLast (List.cons_ne_nil c s)) = false) :
    parseLine (key.text ++ " : ".toList ++ c :: s) = ⟨key.text, c :: s, true⟩ := by
  have hline := foldl_keyValueLine key ⟨c, s, hc⟩
  rw [parseLine, trimmed_line hkey (List.cons_ne_nil _ _) hlast]
  exact hline

/-- The line of the bridge. -/
theorem parseLine_quoted (key : ScannedKey) (hkey : PlainKey key.text) (bridge : QString) :
    parseLine (key.text ++ " : ".toList ++ quoted bridge) = ⟨key.text, quoted bridge, true⟩ := by
  rw [quoted_eq]
  exact parseLine_text key hkey (by decide) (by simp [isSpace])

end

def bridgeKey : ScannedKey where
  text := "BRIDGE".toList
  nonempty := by decide
  plain := by simp

theorem fileLines_editFile (edit : Edit) :
    fileLines edit.file =
      ["SUBUTAI_RAM".toList ++ " : ".toList ++ edit.ram.text,
        "SUBUTAI_CPU".toList ++ " : ".toList ++ edit.cpu.text,
        "SUBUTAI_ENV".toList ++ " : ".toList ++ subutaiEnv edit.branch,
        "DISK_SIZE".toList ++ " : ".toList ++ edit.disk.text,
        "BRIDGE".toList ++ " : ".toList ++ quoted edit.bridge.text] := by
  have hlast := @fileLines_ymlLine_append "BRIDGE".toList (quoted edit.bridge.text) (by decide)
    (newline_notMem_quoted edit.bridge.oneLine) []
  rw [List.append_nil] at hlast
  rw [Edit.file, List.append_assoc, List.append_assoc, List.append_assoc,
    fileLines_ymlLine_append (by decide) edit.ram.oneLine,
    fileLines_ymlLine_append (by decide) edit.cpu.oneLine,
    fileLines_ymlLine_append (by decide) (newline_notMem_subutaiEnv edit.branch),
    fileLines_ymlLine_append (by decide) edit.disk.oneLine, hlast]
  rfl

/-- The bridge is read back with its quotes, whatever characters it has. -/
theorem rhBridge_parseYml (edit : Edit) (dlg : DlgPeer) :
    (dlg.parseYml false true (some edit.file)).rhBridge = quoted edit.bridge.text := by
  have hlast : parseLine ("BRIDGE".toList ++ " : ".toList ++ quoted edit.bridge.text) =
      ⟨"BRIDGE".toList, quoted edit.bridge.text, true⟩ :=
    parseLine_quoted bridgeKey (by decide) edit.bridge.text
  rw [DlgPeer.parseYml, if_neg Bool.false_ne_true]
  simp only [if_true, fileLines_editFile, List.foldl_cons, List.foldl_nil]
  rw [DlgPeer.parseLine, hlast]
  rfl

/-- After a reading `configs` finds the bridge. -/
theorem indexBridge_parseYml (edit : Edit) (dlg : DlgPeer) (bridges : List QString) :
    (dlg.parseYml false true (some edit.file)).indexBridge bridges =
      bridges.findIdx? fun bridge => bridge = edit.bridge.text := by
  rw [DlgPeer.indexBridge, rhBridge_parseYml]
  congr 1
  funext bridge
  rw [← quoted_eq, decide_eq_decide]
  exact ⟨quoted_injective, congrArg quoted⟩

/-! ## Reading after writing -/

variable {edit : Edit} {dlg : DlgPeer} {file : Option QString}

theorem fields_of_checked (h : dlg.checkConfigs edit = true) :
    (dlg.changeConfigs edit file).2.1 = edit.fields := by
  cases file with
  | none => simp [DlgPeer.changeConfigs, h]
  | some text => cases hremoved : edit.removed <;> cases hopened : edit.opened <;>
      simp [DlgPeer.changeConfigs, h, hremoved, hopened]

theorem fields_of_accepted (h : (dlg.changeConfigs edit file).1 = true) :
    (dlg.changeConfigs edit file).2.1 = edit.fields := by
  cases hcheck : dlg.checkConfigs edit with
  | true => exact fields_of_checked hcheck
  | false => simp [DlgPeer.changeConfigs, hcheck] at h

/-- What the dialog is after an edit, and what `configs` shows before and after the next
reading of the file. -/
structure ReadBack (changeConfigure opened : Bool) (bridges : List QString) (fields : ConfigFields)
    (dlg : DlgPeer) (file : Option QString) : Prop where
  unchanged : dlg.parseYml changeConfigure opened file = dlg
  before : (dlg.configs changeConfigure bridges fields).cmbBridge.currentText =
    fields.cmbBridge.currentText
  after : ((dlg.parseYml changeConfigure opened file).configs changeConfigure bridges
    fields).cmbBridge.currentText = fields.cmbBridge.currentText

theorem currentText_setCurrentIndex (cmb : BridgeList) (i : Nat) :
    (cmb.setCurrentIndex i).currentText = (cmb.items[i]?).getD [] := by
  rw [BridgeList.setCurrentIndex, BridgeList.currentText]
  split
  · rfl
  · rw [List.getElem?_eq_none (Nat.le_of_not_lt ‹_›)]
    rfl

theorem ne_nil_of_indexBridge {bridges : List QString} {i : Nat}
    (h : dlg.indexBridge bridges = some i) : dlg.rhBridge ≠ [] := by
  obtain ⟨hlt, hbridge, -⟩ := List.findIdx?_eq_some_iff_getElem.mp h
  rw [← of_decide_eq_true hbridge]
  exact List.cons_ne_nil _ _

/-- What `configs` shows of the bridge that was just chosen. -/
theorem currentText_configs_iff {bridges : List QString} {fields : ConfigFields}
    (hchosen : fields.cmbBridge.currentText = dlg.rhBridge) :
    (dlg.configs false bridges fields).cmbBridge.currentText = fields.cmbBridge.currentText ↔
      ∀ i, dlg.indexBridge bridges = some i → fields.cmbBridge.items[i]? = some dlg.rhBridge := by
  rw [DlgPeer.configs, if_neg Bool.false_ne_true]
  cases hindex : dlg.indexBridge bridges with
  | none => simp
  | some i =>
      dsimp only
      rw [currentText_setCurrentIndex, hchosen]
      cases hitem : fields.cmbBridge.items[i]? with
      | none => simp [(ne_nil_of_indexBridge hindex).symm, hitem]
      | some item => simp [hitem]

/-- The bridge never survives the next reading of the file. -/
theorem readBack_iff (haccepted : (dlg.changeConfigs edit file).1 = true) {fields : ConfigFields}
    (hchosen : fields.cmbBridge.currentText = edit.bridge.text) (changeConfigure opened : Bool)
    (bridges : List QString) :
    ReadBack changeConfigure opened bridges fields (dlg.changeConfigs edit file).2.1
        (dlg.changeConfigs edit file).2.2 ↔
      changeConfigure = true ∨
        opened = false ∧ ∀ i, edit.fields.indexBridge bridges = some i →
          fields.cmbBridge.items[i]? = some edit.bridge.text := by
  rw [fields_of_accepted haccepted, file_of_accepted haccepted]
  cases changeConfigure with
  | true => exact iff_of_true ⟨rfl, rfl, rfl⟩ (Or.inl rfl)
  | false =>
      cases opened with
      | true =>
          apply iff_of_false
          · intro h
            have hbridge := congrArg DlgPeer.rhBridge h.unchanged
            rw [rhBridge_parseYml] at hbridge
            exact quoted_ne edit.bridge.text hbridge
          · simp
      | false =>
          have hsame : edit.fields.parseYml false false (some edit.file) = edit.fields := rfl
          have hshown := @currentText_configs_iff edit.fields bridges fields hchosen
          constructor
          · intro h
            exact Or.inr ⟨rfl, hshown.mp h.before⟩
          · rintro (hchecked | ⟨-, hindex⟩)
            · exact absurd hchecked Bool.false_ne_true
            · refine ⟨hsame, hshown.mpr hindex, ?_⟩
              rw [hsame]
              exact hshown.mpr hindex

/-- The bridge `eth0` is chosen in the edit of the memory. -/
def memoryFields : ConfigFields where
  leCpu := "2".toList
  leRam := "8192".toList
  leDisk := "100".toList
  cmbBridge := ⟨["eth0".toList], some 0⟩

/-- The dialog before it has read its file. -/
def unreadDlg : DlgPeer := ⟨[], [], [], []⟩

theorem readBack_iff_memory :
    ReadBack true true ["eth0".toList] memoryFields
      (unreadDlg.changeConfigs memoryEdit (some [])).2.1
      (unreadDlg.changeConfigs memoryEdit (some [])).2.2 :=
  (@readBack_iff memoryEdit unreadDlg (some []) (by decide) memoryFields (by decide) true true
    ["eth0".toList]).mpr (Or.inl rfl)

/-- When the box is not checked any more, the bridge is read back as another text, and
`configs` does not find the one that was kept. -/
theorem not_readBack_memory :
    (unreadDlg.changeConfigs memoryEdit (some [])).1 = true ∧
    (unreadDlg.changeConfigs memoryEdit (some [])).2.1.rhBridge = "eth0".toList ∧
    ((unreadDlg.changeConfigs memoryEdit (some [])).2.1.parseYml false true
      (unreadDlg.changeConfigs memoryEdit (some [])).2.2).rhBridge = "\"eth0\"".toList ∧
    (unreadDlg.changeConfigs memoryEdit (some [])).2.1.indexBridge ["eth0".toList] = none ∧
    ¬ ReadBack false true ["eth0".toList] memoryFields
      (unreadDlg.changeConfigs memoryEdit (some [])).2.1
      (unreadDlg.changeConfigs memoryEdit (some [])).2.2 := by
  have hread : ((unreadDlg.changeConfigs memoryEdit (some [])).2.1.parseYml false true
      (unreadDlg.changeConfigs memoryEdit (some [])).2.2).rhBridge = "\"eth0\"".toList := by decide
  refine ⟨by decide, by decide, hread, by decide, ?_⟩
  intro h
  have hbridge := congrArg DlgPeer.rhBridge h.unchanged
  rw [hread] at hbridge
  exact absurd hbridge (by decide)

/-! ## Edits that are rejected or fail -/

/-- `seen` tells whether `file.exists()` finds the file. -/
def DlgPeer.changeConfigsSeen (seen : Bool) (edit : Edit) (dlg : DlgPeer) (file : Option QString) :
    Bool × DlgPeer × Option QString :=
  if seen then dlg.changeConfigs edit file
  else
    let res := dlg.changeConfigs edit none
    (res.1, res.2.1, file)

/-- An edit that is accepted but fails has already changed the dialog, and the file may be
gone. -/
theorem kept_of_failed_iff (seen : Bool) (edit : Edit) (dlg : DlgPeer) (file : Option QString) :
    ((dlg.changeConfigsSeen seen edit file).1 = false →
        (dlg.changeConfigsSeen seen edit file).2 = (dlg, file)) ↔
      dlg.checkConfigs edit = false ∨
        seen = true ∧ file.isSome ∧ edit.removed = true ∧ edit.opened = true ∨
        edit.fields = dlg ∧ (seen = false ∨ file = none ∨ edit.removed = false) := by
  cases hcheck : dlg.checkConfigs edit with
  | false => cases seen <;> simp [DlgPeer.changeConfigsSeen, DlgPeer.changeConfigs, hcheck]
  | true =>
      cases seen with
      | false => simp [DlgPeer.changeConfigsSeen, DlgPeer.changeConfigs, hcheck]
      | true =>
          cases file with
          | none => simp [DlgPeer.changeConfigsSeen, DlgPeer.changeConfigs, hcheck]
          | some text =>
              cases hremoved : edit.removed <;> cases hopened : edit.opened <;>
                simp [DlgPeer.changeConfigsSeen, DlgPeer.changeConfigs, hcheck, hremoved, hopened]

/-- The file is removed and cannot be made again. -/
def unopenedEdit : Edit := { memoryEdit with opened := false }

theorem not_kept_unopened :
    (unreadDlg.changeConfigsSeen true unopenedEdit (some [])).1 = false ∧
    (unreadDlg.changeConfigsSeen true unopenedEdit (some [])).2.2 = none ∧
    ¬ ((unreadDlg.changeConfigsSeen true unopenedEdit (some [])).1 = false →
        (unreadDlg.changeConfigsSeen true unopenedEdit (some [])).2 = (unreadDlg, some [])) := by
  decide

end SubutaiTray.Peer
