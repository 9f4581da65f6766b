import SubutaiTray.Settings.Manager

/-!
What the constructor of the settings manager makes of the entries it finds.

Each stage of the constructor, like each setter, touches a few members and keys; the
rest is in the frame. A member that no later stage touches is what its row of the
table makes of its entry.
-/
namespace SubutaiTray.Settings

/-- Members and keys outside the lists are left alone. -/
structure Frame (fields : List Field) (keys : List QString) (m m' : CSettingsManager) : Prop where
  val : ∀ field, field ∉ fields → m'.val field = m.val field
  settings : ∀ key, key ∉ keys → m'.settings key = m.settings key
  texts : m'.texts = m.texts
  rhPorts : m'.rhPorts = m.rhPorts

namespace Frame

variable {fields fields' : List Field} {keys keys' : List QString} {m m' m'' : CSettingsManager}

theorem refl (fields : List Field) (keys : List QString) (m : CSettingsManager) :
    Frame fields keys m m :=
  ⟨fun _ _ => rfl, fun _ _ => rfl, rfl, rfl⟩

theorem trans (h : Frame fields keys m m') (h' : Frame fields' keys' m' m'') :
    Frame (fields ++ fields') (keys ++ keys') m m'' := by
  refine ⟨?_, ?_, h'.texts.trans h.texts, h'.rhPorts.trans h.rhPorts⟩
  · intro field hfield
    rw [List.mem_append, not_or] at hfield
    exact (h'.val field hfield.2).trans (h.val field hfield.1)
  · intro key hkey
    rw [List.mem_append, not_or] at hkey
    exact (h'.settings key hkey.2).trans (h.settings key hkey.1)

theorem set (field : Field) (value : field.Val) (m : CSettingsManager) :
    Frame [field] [] m (m.set field value) := by
  refine ⟨?_, fun _ _ => rfl, rfl, rfl⟩
  intro field' hfield
  exact Function.update_of_ne (fun heq => hfield (List.mem_singleton.mpr heq)) value m.val

theorem save (key : QString) (var : QVariant) (m : CSettingsManager) :
    Frame [] [key] m (m.save key var) := by
  refine ⟨fun _ _ => rfl, ?_, rfl, rfl⟩
  intro key' hkey
  exact m.settings.setValue_of_ne (fun heq => hkey (List.mem_singleton.mpr heq)) var

theorem setFieldDef (field : Field) (key : QString) (var : field.Val → QVariant)
    (value : field.Val) (m : CSettingsManager) :
    Frame [field] [key] m (m.setFieldDef field key var value) :=
  (set field value m).trans (save key (var value) _)

end Frame

namespace CSettingsManager

theorem val_set_self (field : Field) (value : field.Val) (m : CSettingsManager) :
    (m.set field value).val field = value :=
  Function.update_self field value m.val

theorem settings_save_self (key : QString) (var : QVariant) (m : CSettingsManager) :
    (m.save key var).settings key = some var :=
  m.settings.setValue_self key var

theorem val_setFieldDef_self (field : Field) (key : QString) (var : field.Val → QVariant)
    (value : field.Val) (m : CSettingsManager) :
    (m.setFieldDef field key var value).val field = value :=
  val_set_self field value m

theorem settings_setFieldDef_self (field : Field) (key : QString) (var : field.Val → QVariant)
    (value : field.Val) (m : CSettingsManager) :
    (m.setFieldDef field key var value).settings key = some (var value) :=
  settings_save_self key (var value) _

theorem settings_setText_self (setting : TextSetting) (value : QString) (m : CSettingsManager) :
    (m.setText setting value).settings setting.row.2 = some (.string value) :=
  settings_setFieldDef_self _ _ _ _ m

/-! ## The stages of the constructor -/

section
variable (lib : QtLibrary) (machine : Machine) (m : CSettingsManager)

theorem frame_loadRefreshTime :
    Frame [.uint .refreshTimeSec] [] m (m.loadRefreshTime lib) := by
  rw [loadRefreshTime]
  split
  · exact Frame.refl _ _ m
  · exact Frame.set _ _ m

theorem frame_loadNotificationDelay :
    Frame [.uint .notificationDelaySec] [smNotificationDelaySec] m
      (m.loadNotificationDelay lib) := by
  rw [loadNotificationDelay]
  split
  · exact Frame.refl _ _ m
  · exact Frame.setFieldDef _ _ _ _ m

theorem frame_setBranch (branch : QString) :
    Frame [.str .branch] [smAppBranch] m (m.setBranch branch) := by
  have htaken : Frame [.str .branch] [] m
      (if branch ∈ branches then m.set (.str .branch) branch else m) := by
    split
    · exact Frame.set _ _ m
    · exact Frame.refl _ _ m
  exact htaken.trans (Frame.save smAppBranch _ _)

theorem frame_loadBranch :
    Frame [.str .branch] [smAppBranch, smAppBranch] m (m.loadBranch lib) := by
  refine @Frame.trans [.str .branch] [] [smAppBranch] [smAppBranch] m _ _ ?_
    (Frame.save smAppBranch _ _)
  split
  · exact Frame.refl _ _ m
  · exact frame_setBranch m _

theorem frame_makeTrayGuid :
    Frame [.str .trayGuid] [smTrayGuid] m (m.makeTrayGuid machine) := by
  rw [makeTrayGuid]
  split
  · exact Frame.setFieldDef _ _ _ _ m
  · exact Frame.refl _ _ m

theorem frame_resolveCommands :
    Frame (cmdWhich.map fun command => .str command.1) [] m (m.resolveCommands machine) := by
  rw [resolveCommands]
  generalize cmdWhich = commands
  induction commands generalizing m with
  | nil => exact Frame.refl _ _ m
  | cons command commands ih =>
      exact (Frame.set (.str command.1) _ m).trans (ih (resolveCommand machine m command))

theorem frame_resolveTerminal :
    Frame [.str .terminalCmd, .str .terminalArg] [] m (m.resolveTerminal machine) := by
  rw [resolveTerminal]
  split
  · split
    · exact Frame.refl _ _ m
    · next term _ =>
      have hcmd := Frame.set (.str .terminalCmd) term m
      dsimp only
      split
      · exact hcmd.trans (Frame.refl [.str .terminalArg] [] _)
      · exact hcmd.trans (Frame.set (.str .terminalArg) _ _)
  · exact Frame.refl _ _ m

theorem frame_initAutostart : Frame [.bool .autostart] [] m (m.initAutostart machine) :=
  Frame.set _ _ m

theorem frame_initPassword :
    Frame [.str .passwordStr, .password] [smPassword] m (m.initPassword lib machine) := by
  rw [initPassword]
  dsimp only
  split
  · exact Frame.refl _ _ m
  · split
    · exact (Frame.set (.str .passwordStr) _ m).trans (Frame.refl [.password] [smPassword] _)
    · exact (Frame.set (.str .passwordStr) _ m).trans (Frame.setFieldDef _ _ _ _ _)

theorem frame_initDefaultBrowser :
    Frame [.str .defaultBrowser] [smDefaultBrowser] m (m.initDefaultBrowser lib machine) :=
  Frame.setFieldDef _ _ _ _ m

end

/-! ## What the table loads -/

section
variable (lib : QtLibrary) (settings : QSettings)

def storedStr (setting : StrField × QString) (old : QString) : QString :=
  (settings setting.2).elim old fun var => qvarToStr lib.conversions var old

def storedBool (setting : BoolField × QString) (old : Bool) : Bool :=
  (settings setting.2).elim old lib.conversions.toBool

def storedUInt (setting : UIntField × QString) (old : UInt32) : UInt32 :=
  (settings setting.2).elim old (qvarToInt lib.conversions)

variable {lib settings} {record : (field : Field) → field.Val}

theorem storedStr_of_string {setting : StrField × QString} {value : QString}
    (hsaved : settings setting.2 = some (.string value)) (old : QString) :
    storedStr lib settings setting old = if value ≠ [] then value else old := by
  rw [storedStr, hsaved]
  change qvarToStr lib.conversions (.string value) old = _
  rw [qvarToStr, lib.conversions.toString_string]

theorem storedStr_congr {settings' : QSettings} {setting : StrField × QString}
    (h : settings' setting.2 = settings setting.2) (old : QString) :
    storedStr lib settings' setting old = storedStr lib settings setting old := by
  rw [storedStr, storedStr, h]

theorem storedBool_of_bool {setting : BoolField × QString} {value : Bool}
    (hsaved : settings setting.2 = some (.bool value)) (old : Bool) :
    storedBool lib settings setting old = value := by
  rw [storedBool, hsaved]
  exact lib.conversions.toBool_bool value

theorem fields_dctSettingsVals (conversions : VariantConversions) :
    (dctSettingsVals conversions).map Tables.Row.field =
      strSettings.map (fun setting => .str setting.1) ++
        boolSettings.map (fun setting => .bool setting.1) ++
        uintSettings.map (fun setting => .uint setting.1) ++
        [.port .rhPort, .password, .dctNotificationIgnore] := rfl

theorem nodup_dctSettingsVals (conversions : VariantConversions) :
    ((dctSettingsVals conversions).map Tables.Row.field).Nodup := by
  rw [fields_dctSettingsVals]
  decide

theorem load_str {setting : StrField × QString} (h : setting ∈ strSettings) :
    Tables.load settings (dctSettingsVals lib.conversions) record (.str setting.1) =
      storedStr lib settings setting (record (.str setting.1)) := by
  have hmem : strVal lib.conversions setting ∈ dctSettingsVals lib.conversions :=
    List.mem_append_left _ (List.mem_append_left _ (List.mem_append_left _ (List.mem_map_of_mem h)))
  exact (Tables.load_of_mem (nodup_dctSettingsVals _) hmem).trans rfl

theorem load_bool {setting : BoolField × QString} (h : setting ∈ boolSettings) :
    Tables.load settings (dctSettingsVals lib.conversions) record (.bool setting.1) =
      storedBool lib settings setting (record (.bool setting.1)) := by
  have hmem : boolVal lib.conversions setting ∈ dctSettingsVals lib.conversions :=
    List.mem_append_left _ (List.mem_append_left _ (List.mem_append_right _ (List.mem_map_of_mem h)))
  exact (Tables.load_of_mem (nodup_dctSettingsVals _) hmem).trans rfl

theorem load_uint {setting : UIntField × QString} (h : setting ∈ uintSettings) :
    Tables.load settings (dctSettingsVals lib.conversions) record (.uint setting.1) =
      storedUInt lib settings setting (record (.uint setting.1)) := by
  have hmem : uintVal lib.conversions setting ∈ dctSettingsVals lib.conversions :=
    List.mem_append_left _ (List.mem_append_right _ (List.mem_map_of_mem h))
  exact (Tables.load_of_mem (nodup_dctSettingsVals _) hmem).trans rfl

end

/-! ## The states that the constructor goes through -/

section
variable (lib : QtLibrary) (machine : Machine) (settings : QSettings)

def tableLoaded : CSettingsManager :=
  loadTable lib { settings := settings, val := machine.initial, texts := fun _ => ∅, rhPorts := ∅ }

def refreshTimeLoaded : CSettingsManager := (tableLoaded lib machine settings).loadRefreshTime lib

def delayLoaded : CSettingsManager :=
  (refreshTimeLoaded lib machine settings).loadNotificationDelay lib

def branchLoaded : CSettingsManager := (delayLoaded lib machine settings).loadBranch lib

def guidMade : CSettingsManager := (branchLoaded lib machine settings).makeTrayGuid machine

def commandsResolved : CSettingsManager := (guidMade lib machine settings).resolveCommands machine

def terminalResolved : CSettingsManager :=
  (commandsResolved lib machine settings).resolveTerminal machine

def autostarted : CSettingsManager := (terminalResolved lib machine settings).initAutostart machine

def passwordRead : CSettingsManager :=
  (autostarted lib machine settings).initPassword lib machine

theorem new_eq : new lib machine settings =
    (passwordRead lib machine settings).initDefaultBrowser lib machine := rfl

theorem frame_new :
    Frame [.str .defaultBrowser] [smDefaultBrowser]
      (passwordRead lib machine settings) (new lib machine settings) :=
  frame_initDefaultBrowser lib machine _

theorem frame_autostarted :
    Frame [.str .passwordStr, .password, .str .defaultBrowser] [smPassword, smDefaultBrowser]
      (autostarted lib machine settings) (new lib machine settings) :=
  (frame_initPassword lib machine _).trans (frame_new lib machine settings)

theorem frame_terminalResolved :
    Frame [.bool .autostart, .str .passwordStr, .password, .str .defaultBrowser]
      [smPassword, smDefaultBrowser]
      (terminalResolved lib machine settings) (new lib machine settings) :=
  (frame_initAutostart machine _).trans (frame_autostarted lib machine settings)

theorem frame_guidMade :
    Frame ((cmdWhich.map fun command => .str command.1) ++
      [.str .terminalCmd, .str .terminalArg, .bool .autostart, .str .passwordStr, .password,
        .str .defaultBrowser])
      [smPassword, smDefaultBrowser]
      (guidMade lib machine settings) (new lib machine settings) :=
  (frame_resolveCommands machine _).trans
    ((frame_resolveTerminal machine _).trans (frame_terminalResolved lib machine settings))

theorem frame_delayLoaded :
    Frame ([.str .branch, .str .trayGuid] ++ (cmdWhich.map fun command => .str command.1) ++
      [.str .terminalCmd, .str .terminalArg, .bool .autostart, .str .passwordStr, .password,
        .str .defaultBrowser])
      [smAppBranch, smAppBranch, smTrayGuid, smPassword, smDefaultBrowser]
      (delayLoaded lib machine settings) (new lib machine settings) :=
  (frame_loadBranch lib _).trans
    ((frame_makeTrayGuid machine _).trans (frame_guidMade lib machine settings))

/-- The members that the constructor treats behind the table. -/
def treated : List Field :=
  [.uint .refreshTimeSec, .uint .notificationDelaySec, .str .branch, .str .trayGuid] ++
    (cmdWhich.map fun command => .str command.1) ++
    [.str .terminalCmd, .str .terminalArg, .bool .autostart, .str .passwordStr, .password,
      .str .defaultBrowser]

/-- The keys that it saves. -/
def resaved : List QString :=
  [smNotificationDelaySec, smAppBranch, smAppBranch, smTrayGuid, smPassword, smDefaultBrowser]

theorem frame_tableLoaded :
    Frame treated resaved (tableLoaded lib machine settings) (new lib machine settings) :=
  (frame_loadRefreshTime lib _).trans
    ((frame_loadNotificationDelay lib _).trans (frame_delayLoaded lib machine settings))

variable {lib machine settings}

theorem val_new {field : Field} (h : field ∉ treated) :
    (new lib machine settings).val field =
      Tables.load settings (dctSettingsVals lib.conversions) machine.initial field :=
  (frame_tableLoaded lib machine settings).val field h

theorem settings_new {key : QString} (h : key ∉ resaved) :
    (new lib machine settings).settings key = settings key :=
  (frame_tableLoaded lib machine settings).settings key h

/-! ## Plain members -/

theorem val_new_str {setting : StrField × QString} {value : QString}
    (hmem : setting ∈ strSettings) (htreated : .str setting.1 ∉ treated)
    (hsaved : settings setting.2 = some (.string value)) :
    (new lib machine settings).val (.str setting.1) =
      if value ≠ [] then value else machine.initialStr setting.1 := by
  rw [val_new htreated, load_str hmem, storedStr_of_string hsaved]
  rfl

theorem val_new_bool {setting : BoolField × QString} {value : Bool}
    (hmem : setting ∈ boolSettings) (htreated : .bool setting.1 ∉ treated)
    (hsaved : settings setting.2 = some (.bool value)) :
    (new lib machine settings).val (.bool setting.1) = value := by
  rw [val_new htreated, load_bool hmem, storedBool_of_bool hsaved]

theorem val_new_uint {setting : UIntField × QString} {var : QVariant} {value : UInt32}
    (hmem : setting ∈ uintSettings) (htreated : .uint setting.1 ∉ treated)
    (hsaved : settings setting.2 = some var) (hvar : lib.conversions.toUInt var = some value) :
    (new lib machine settings).val (.uint setting.1) = value := by
  rw [val_new htreated, load_uint hmem, storedUInt, hsaved]
  change qvarToInt _ _ = _
  rw [qvarToInt, hvar]
  rfl

theorem val_new_rhPort {var : QVariant} {value : UInt32} (hsaved : settings smRhPort = some var)
    (hvar : lib.conversions.toUInt var = some value) :
    (new lib machine settings).val (.port .rhPort) = value.toUInt16 := by
  have hmem : rhPortVal lib.conversions ∈ dctSettingsVals lib.conversions :=
    List.mem_append_right _ List.mem_cons_self
  rw [val_new (by decide)]
  refine (Tables.load_of_mem (nodup_dctSettingsVals _) hmem).trans ?_
  change Option.elim (settings smRhPort) _ _ = _
  rw [hsaved]
  change (qvarToInt _ _).toUInt16 = _
  rw [qvarToInt, hvar]
  rfl

theorem val_new_dctNotificationIgnore {entries : QVariantMap}
    (hsaved : settings smDctNotificationsIgnore = some (.map entries)) :
    (new lib machine settings).val .dctNotificationIgnore = entries := by
  have hmem : ignoreVal lib.conversions ∈ dctSettingsVals lib.conversions :=
    List.mem_append_right _ (List.mem_cons_of_mem _ (List.mem_cons_of_mem _ List.mem_cons_self))
  rw [val_new (by decide)]
  refine (Tables.load_of_mem (nodup_dctSettingsVals _) hmem).trans ?_
  change Option.elim (settings smDctNotificationsIgnore) _ _ = _
  rw [hsaved]
  exact lib.conversions.toMap_map entries

/-- A member without a row is at its initial value in every new manager. -/
theorem val_new_of_noRow {field : Field} (htreated : field ∉ treated)
    (hrow : field ∉ (dctSettingsVals lib.conversions).map Tables.Row.field) :
    (new lib machine settings).val field = machine.initial field := by
  rw [val_new htreated, Tables.load_of_notMem hrow]

theorem val_new_xquartzPath :
    (new lib machine settings).val (.str .xquartzPath) = machine.initialStr .xquartzPath := by
  refine val_new_of_noRow (by decide) ?_
  rw [fields_dctSettingsVals]
  decide

theorem val_new_pluginPort :
    (new lib machine settings).val (.port .pluginPort) = initialPort .pluginPort := by
  refine val_new_of_noRow (by decide) ?_
  rw [fields_dctSettingsVals]
  decide

/-! ## Members with a stage of their own -/

theorem val_new_refreshTimeSec {value : UInt32} (hsaved : settings smRefreshTime = some (.uint value)) :
    (new lib machine settings).val (.uint .refreshTimeSec) = value := by
  have hframe := (frame_loadNotificationDelay lib (refreshTimeLoaded lib machine settings)).trans
    (frame_delayLoaded lib machine settings)
  rw [hframe.val _ (by decide), refreshTimeLoaded, loadRefreshTime]
  have hsaved' : (tableLoaded lib machine settings).settings smRefreshTime = some (.uint value) :=
    hsaved
  simp only [hsaved', lib.conversions.toUInt_uint]
  exact val_set_self _ _ _

theorem val_new_notificationDelaySec {value : UInt32}
    (hsaved : settings smNotificationDelaySec = some (.uint value)) :
    (new lib machine settings).val (.uint .notificationDelaySec) = clampedDelay value := by
  have hsaved' : (refreshTimeLoaded lib machine settings).settings smNotificationDelaySec =
      some (.uint value) :=
    ((frame_loadRefreshTime lib _).settings _ List.not_mem_nil).trans hsaved
  rw [(frame_delayLoaded lib machine settings).val _ (by decide), delayLoaded,
    loadNotificationDelay, hsaved', Option.bind_some, lib.conversions.toUInt_uint]
  exact val_setFieldDef_self _ _ _ _ _

theorem val_new_branch {branch : QString} (hmem : branch ∈ branches)
    (hsaved : settings smAppBranch = some (.string branch)) :
    (new lib machine settings).val (.str .branch) = branch := by
  have hframe := (frame_makeTrayGuid machine (branchLoaded lib machine settings)).trans
    (frame_guidMade lib machine settings)
  have hsaved' : (delayLoaded lib machine settings).settings smAppBranch =
      some (.string branch) :=
    (((frame_loadRefreshTime lib _).trans (frame_loadNotificationDelay lib _)).settings _
      (by decide)).trans hsaved
  rw [hframe.val _ (by decide), branchLoaded, loadBranch]
  simp only [hsaved', lib.conversions.toString_string, setBranch, if_pos hmem]
  exact val_set_self (.str .branch) branch (delayLoaded lib machine settings)

theorem frame_to_branchLoaded :
    Frame [.uint .refreshTimeSec, .uint .notificationDelaySec, .str .branch]
      [smNotificationDelaySec, smAppBranch, smAppBranch]
      (tableLoaded lib machine settings) (branchLoaded lib machine settings) :=
  ((frame_loadRefreshTime lib _).trans (frame_loadNotificationDelay lib _)).trans
    (frame_loadBranch lib _)

theorem frame_to_autostarted :
    Frame ((cmdWhich.map fun command => .str command.1) ++
      [.str .terminalCmd, .str .terminalArg, .bool .autostart]) []
      (guidMade lib machine settings) (autostarted lib machine settings) :=
  (frame_resolveCommands machine _).trans
    ((frame_resolveTerminal machine _).trans (frame_initAutostart machine _))

theorem val_guidMade_trayGuid {var : QVariant} (hsaved : settings smTrayGuid = some var)
    (hne : lib.conversions.toString var ≠ []) :
    (guidMade lib machine settings).val (.str .trayGuid) = lib.conversions.toString var := by
  have hloaded : (branchLoaded lib machine settings).val (.str .trayGuid) =
      lib.conversions.toString var := by
    rw [frame_to_branchLoaded.val _ (by decide)]
    refine (@load_str lib settings machine.initial (.trayGuid, smTrayGuid) (by decide)).trans ?_
    rw [storedStr, hsaved]
    exact if_pos hne
  rw [guidMade, makeTrayGuid, if_neg (hloaded ▸ hne), hloaded]

/-- With the guid it was saved under the password is read as it was written. -/
theorem val_new_passwordStr {var : QVariant} {rc : UInt8} {password : QString}
    (hguid : settings smTrayGuid = some var) (hne : lib.conversions.toString var ≠ [])
    (hsaved : settings smPassword = some (.byteArray (storedPassword lib.sha1
      (lib.guidKey (lib.conversions.toString var)) rc password))) :
    (new lib machine settings).val (.str .passwordStr) =
      lib.reader.qString (toUtf8 password) := by
  have hstored : (autostarted lib machine settings).val .password =
      storedPassword lib.sha1 (lib.guidKey (lib.conversions.toString var)) rc password := by
    rw [frame_to_autostarted.val _ (by decide), guidMade,
      (frame_to_branchLoaded.trans (frame_makeTrayGuid machine _)).val _ (by decide)]
    have hmem : passwordVal lib.conversions ∈ dctSettingsVals lib.conversions :=
      List.mem_append_right _ (List.mem_cons_of_mem _ List.mem_cons_self)
    refine (Tables.load_of_mem (nodup_dctSettingsVals _) hmem).trans ?_
    change Option.elim (settings smPassword) _ _ = _
    rw [hsaved]
    exact lib.conversions.toByteArray_byteArray _
  have hkey : (autostarted lib machine settings).val (.str .trayGuid) =
      lib.conversions.toString var := by
    rw [frame_to_autostarted.val _ (by decide)]
    exact val_guidMade_trayGuid hguid hne
  have hempty := storedPassword_ne_nil lib.sha1 (lib.guidKey (lib.conversions.toString var)) rc
    password
  rw [(frame_new lib machine settings).val _ (by decide), passwordRead, initPassword]
  simp only [hstored, hkey, List.isEmpty_iff, hempty, if_false, readPassword_storedPassword]
  exact val_set_self _ _ _

theorem val_new_defaultBrowser {browser : QString}
    (hsaved : settings smDefaultBrowser = some (.string browser)) :
    (new lib machine settings).val (.str .defaultBrowser) = lib.capitalized browser := by
  have hframe := (frame_to_branchLoaded.trans (frame_makeTrayGuid machine _)).trans
    (frame_to_autostarted.trans (frame_initPassword lib machine (autostarted lib machine settings)))
  have hsaved' : (passwordRead lib machine settings).settings smDefaultBrowser =
      some (.string browser) :=
    (hframe.settings _ (by decide)).trans hsaved
  rw [new_eq, initDefaultBrowser, hsaved']
  simp only [lib.conversions.toString_string]
  exact val_setFieldDef_self _ _ _ _ _

theorem val_new_autostart :
    (new lib machine settings).val (.bool .autostart) =
      machine.applicationAutostart (storedBool lib settings (.autostart, smAutostart) true) := by
  have hframe := (frame_to_branchLoaded.trans (frame_makeTrayGuid machine _)).trans
    ((frame_resolveCommands machine (guidMade lib machine settings)).trans
      (frame_resolveTerminal machine _))
  have hloaded : (terminalResolved lib machine settings).val (.bool .autostart) =
      storedBool lib settings (.autostart, smAutostart) true := by
    refine (hframe.val _ (by decide)).trans ?_
    exact @load_bool lib settings machine.initial (.autostart, smAutostart) (by decide)
  rw [(frame_autostarted lib machine settings).val _ (by decide), autostarted, initAutostart,
    hloaded]
  exact val_set_self _ _ _

/-! ## The terminal -/

/-- The argument that comes with the terminal found, if the default one is to be replaced. -/
def imposedArg (machine : Machine) (cmd : QString) : Option QString :=
  if cmd = machine.defaults .terminalCmd then
    (foundTerminal machine).bind machine.recommendedTerminalArg
  else none

theorem val_resolveTerminal_cmd (machine : Machine) (m : CSettingsManager) :
    (m.resolveTerminal machine).val (.str .terminalCmd) =
      if m.val (.str .terminalCmd) = machine.defaults .terminalCmd then
        (foundTerminal machine).getD (machine.defaults .terminalCmd)
      else m.val (.str .terminalCmd) := by
  rw [resolveTerminal]
  split
  · next hdefault =>
    cases foundTerminal machine with
    | none => exact hdefault
    | some term =>
        dsimp only
        split
        · exact val_set_self (.str .terminalCmd) term m
        · rw [(Frame.set (.str .terminalArg) _ _).val _ (by decide)]
          exact val_set_self (.str .terminalCmd) term m
  · rfl

theorem val_resolveTerminal_arg (machine : Machine) (m : CSettingsManager) :
    (m.resolveTerminal machine).val (.str .terminalArg) =
      (imposedArg machine (m.val (.str .terminalCmd))).getD (m.val (.str .terminalArg)) := by
  rw [resolveTerminal, imposedArg]
  split
  · cases foundTerminal machine with
    | none => rfl
    | some term =>
        have hkept := (Frame.set (.str .terminalCmd) term m).val (.str .terminalArg) (by decide)
        dsimp only
        rw [Option.bind_some]
        cases machine.recommendedTerminalArg term with
        | none => exact hkept
        | some recommended => exact val_set_self (.str .terminalArg) recommended _
  · rfl

theorem val_commandsResolved {setting : StrField × QString} (hmem : setting ∈ strSettings)
    (hbefore : .str setting.1 ∉ [Field.uint .refreshTimeSec, .uint .notificationDelaySec,
      .str .branch, .str .trayGuid] ++ cmdWhich.map fun command => .str command.1) :
    (commandsResolved lib machine settings).val (.str setting.1) =
      storedStr lib settings setting (machine.initialStr setting.1) := by
  have hframe := (frame_to_branchLoaded.trans (frame_makeTrayGuid machine _)).trans
    (frame_resolveCommands machine (guidMade lib machine settings))
  rw [commandsResolved, hframe.val _ hbefore]
  exact @load_str lib settings machine.initial setting hmem

theorem val_new_terminalCmd :
    (new lib machine settings).val (.str .terminalCmd) =
      let cmd := storedStr lib settings (.terminalCmd, smTerminalCmd)
        (machine.defaults .terminalCmd)
      if cmd = machine.defaults .terminalCmd then
        (foundTerminal machine).getD (machine.defaults .terminalCmd)
      else cmd := by
  have hcmd := @val_commandsResolved lib machine settings (.terminalCmd, smTerminalCmd)
    (by decide) (by decide)
  rw [(frame_terminalResolved lib machine settings).val _ (by decide), terminalResolved,
    val_resolveTerminal_cmd, hcmd]
  rfl

theorem val_new_terminalArg :
    (new lib machine settings).val (.str .terminalArg) =
      (imposedArg machine (storedStr lib settings (.terminalCmd, smTerminalCmd)
        (machine.defaults .terminalCmd))).getD
      (storedStr lib settings (.terminalArg, smTerminalArg) (machine.defaults .terminalArg)) := by
  have hcmd := @val_commandsResolved lib machine settings (.terminalCmd, smTerminalCmd)
    (by decide) (by decide)
  have harg := @val_commandsResolved lib machine settings (.terminalArg, smTerminalArg)
    (by decide) (by decide)
  rw [(frame_terminalResolved lib machine settings).val _ (by decide), terminalResolved,
    val_resolveTerminal_arg, hcmd, harg]
  rfl

end

end CSettingsManager

end SubutaiTray.Settings
