import SubutaiTray.Library.Runs
import SubutaiTray.Settings.Loading

/-!
What of the settings survives a restart.

A setter saves its member under one key, and a new manager is constructed over the
store it leaves. Two things have to be kept in a session for that: the guid in
memory, which encrypts the password, is the saved one, and the locale, which is
saved only when it changes, is the saved one too.
-/
namespace SubutaiTray.Settings

inductive SettingValue where
  | text (s : QString)
  | flag (b : Bool)
  | number (n : Nat)
  deriving DecidableEq

/-- The calls of the public setters. -/
inductive SettingCall where
  | text (setting : TextSetting) (value : QString)
  | link (setting : LinkSetting) (path : QString)
  | flag (setting : FlagSetting) (value : Bool)
  | number (setting : NumberSetting) (value : UInt32)
  | logsLevel (level : Int)
  | vagrantProvider (provider : Int)
  | freq (setting : FreqSetting) (fr : Int)
  | port (field : PortField) (value : UInt16)
  | notificationDelaySec (delaySec : UInt32)
  | defaultBrowser (fr : QString)
  | locale (value : Int)
  | branch (value : QString)
  | autostart (value : Bool)
  | password (value : QString)
  | ignored (msg : QString) (value : Bool)
  | byId (setting : IdSetting) (id value : QString)
  | rhPortById (id : QString) (value : Int16)

namespace SettingCall

open CSettingsManager

def run (lib : QtLibrary) (machine : Machine) (m : CSettingsManager) :
    SettingCall → CSettingsManager
  | .text setting value => m.setText setting value
  | .link setting path => m.setLink machine setting path
  | .flag setting value => m.setFlag setting value
  | .number setting value => m.setNumber setting value
  | .logsLevel level => m.setNumber .logsLevel (UInt32.ofInt level)
  | .vagrantProvider provider => m.setNumber .vagrantProvider (UInt32.ofInt provider)
  | .freq setting fr => m.setFreq setting fr
  | .port field value => m.setPort field value
  | .notificationDelaySec delaySec => m.setNotificationDelaySec delaySec
  | .defaultBrowser fr => m.setDefaultBrowser lib fr
  | .locale value => m.setLocale value
  | .branch value => m.setBranch value
  | .autostart value => m.setAutostart machine value
  | .password value => m.setPassword lib machine value
  | .ignored msg value => m.setIgnored msg value
  | .byId setting id value => m.setById setting id value
  | .rhPortById id value => m.setRhPortById id value

/-- The getter of the setting. -/
def get (lib : QtLibrary) (machine : Machine) (m : CSettingsManager) :
    SettingCall → SettingValue
  | .text .defaultChromeProfile _ =>
      .text ((m.defaultChromeProfile machine).val (.str .defaultChromeProfile))
  | .text .defaultFirefoxProfile _ =>
      .text ((m.defaultFirefoxProfile machine).val (.str .defaultFirefoxProfile))
  | .text setting _ => .text (m.val (.str setting.row.1))
  | .link setting _ => .text (m.val (.str setting.row.1))
  | .flag setting _ => .flag (m.val (.bool setting.row.1))
  | .number setting _ => .number (m.val (.uint setting.row.1)).toNat
  | .logsLevel _ => .number (m.val (.uint .logsLevel)).toNat
  | .vagrantProvider _ => .number (m.val (.uint .vagrantProvider)).toNat
  | .freq setting _ => .number (m.val (.uint setting.row.1)).toNat
  | .port field _ => .number (m.val (.port field)).toNat
  | .notificationDelaySec _ => .number (m.val (.uint .notificationDelaySec)).toNat
  | .defaultBrowser _ => .text (m.val (.str .defaultBrowser))
  | .locale _ => .number (m.val (.uint .locale)).toNat
  | .branch _ => .text (m.val (.str .branch))
  | .autostart _ => .flag (m.val (.bool .autostart))
  | .password _ => .text (m.val (.str .passwordStr))
  | .ignored msg _ => .flag (m.isNotificationIgnored lib msg)
  | .byId setting id _ => .text (m.textById lib setting id)
  | .rhPortById id _ => .number (m.rhPortById lib id).toNat

/-- A program that the constructor looks for anew. -/
def lookedFor (field : StrField) : Bool := field ∈ cmdWhich.map Prod.fst

/-- The value the setter accepts, in the form it gives it. It refuses an unknown branch
and an autostart that the machine refuses; of a program that the constructor looks for
anew nothing is asked. -/
def accepted (lib : QtLibrary) (machine : Machine) (m : CSettingsManager) :
    SettingCall → Option SettingValue
  | .text setting value => if lookedFor setting.row.1 then none else some (.text value)
  | .link setting path =>
      if lookedFor setting.row.1 then none else some (.text (machine.linkResolved path))
  | .flag _ value => some (.flag value)
  | .number _ value => some (.number value.toNat)
  | .logsLevel level => some (.number (UInt32.ofInt level).toNat)
  | .vagrantProvider provider => some (.number (UInt32.ofInt provider).toNat)
  | .freq _ fr => some (.number (updateFreq fr).toNat)
  | .port _ value => some (.number value.toNat)
  | .notificationDelaySec delaySec => some (.number (clampedDelay delaySec).toNat)
  | .defaultBrowser fr => some (.text (lib.capitalized fr))
  | .locale value => some (.number (UInt32.ofInt value).toNat)
  | .branch value => if value ∈ branches then some (.text value) else none
  | .autostart value =>
      if m.val (.bool .autostart) = value ∨ machine.setApplicationAutostart value then
        some (.flag value)
      else none
  | .password value => some (.text value)
  | .ignored _ value => some (.flag value)
  | .byId _ _ value => some (.text value)
  | .rhPortById _ value => some (.number value.toUInt16.toNat)

/-- A manager constructed later over the store that the setter leaves returns the value
that it accepted. -/
def Persists (lib : QtLibrary) (machine later : Machine) (m : CSettingsManager)
    (call : SettingCall) : Prop :=
  ∀ value, call.accepted lib machine m = some value →
    call.get lib later (CSettingsManager.new lib later (call.run lib machine m).settings) = value

/-- The table loads a text only if it is not empty. -/
def LoadsText (later : Machine) (field : StrField) (value : QString) : Prop :=
  value ≠ [] ∨ later.initialStr field = []

theorem loadsText_iff {later : Machine} {field : StrField} {value : QString} :
    (if value ≠ [] then value else later.initialStr field) = value ↔
      LoadsText later field value := by
  rw [LoadsText]
  by_cases hempty : value = []
  · simp [hempty]
  · simp [hempty]

def Kept (lib : QtLibrary) (machine later : Machine) (m : CSettingsManager) :
    SettingCall → Prop
  | .text .xquartzPath value => value = later.initialStr .xquartzPath
  | .text .terminalCmd value =>
      value = [] ∨ value = later.defaults .terminalCmd →
        (foundTerminal later).getD (later.defaults .terminalCmd) = value
  | .text .terminalArg value =>
      match imposedArg later
          (storedStr lib m.settings (.terminalCmd, smTerminalCmd) (later.defaults .terminalCmd)) with
      | none => LoadsText later .terminalArg value
      | some recommended => recommended = value
  | .text .defaultChromeProfile value =>
      value ≠ [] ∧ value ∈ later.chromeProfiles ∨ value = later.defaults .defaultChromeProfile
  | .text .defaultFirefoxProfile value =>
      value ≠ [] ∧ value ∈ later.firefoxProfiles ∨ value = later.defaults .defaultFirefoxProfile
  | .text setting value => lookedFor setting.row.1 ∨ LoadsText later setting.row.1 value
  | .link setting path =>
      lookedFor setting.row.1 ∨ LoadsText later setting.row.1 (machine.linkResolved path)
  | .port .pluginPort value => value = initialPort .pluginPort
  | .defaultBrowser fr => lib.capitalized (lib.capitalized fr) = lib.capitalized fr
  | .autostart value =>
      if m.val (.bool .autostart) = value then
        later.applicationAutostart (storedBool lib m.settings (.autostart, smAutostart) true) = value
      else machine.setApplicationAutostart value → later.applicationAutostart value = value
  | .password value => nul ∉ value ∧ value.head? ≠ some bom
  | _ => True

/-! ## What a session keeps -/

end SettingCall

namespace CSettingsManager

structure Inv (lib : QtLibrary) (m : CSettingsManager) : Prop where
  guid : ∃ var, m.settings smTrayGuid = some var ∧
    lib.conversions.toString var = m.val (.str .trayGuid)
  guid_ne_nil : m.val (.str .trayGuid) ≠ []
  locale : storedUInt lib m.settings (.locale, smLocale) 0 = m.val (.uint .locale)

variable {lib : QtLibrary} {machine : Machine} {m m' : CSettingsManager}

theorem Inv.of_same (h : Inv lib m) (hguid : m'.val (.str .trayGuid) = m.val (.str .trayGuid))
    (hlocale : m'.val (.uint .locale) = m.val (.uint .locale))
    (hsettings : ∀ key ∈ [smTrayGuid, smLocale], m'.settings key = m.settings key) :
    Inv lib m' := by
  have hkey := hsettings smTrayGuid List.mem_cons_self
  have hkey' := hsettings smLocale (List.mem_cons_of_mem _ List.mem_cons_self)
  refine ⟨?_, ?_, ?_⟩
  · rw [hkey, hguid]
    exact h.guid
  · rw [hguid]
    exact h.guid_ne_nil
  · rw [storedUInt, hkey', hlocale]
    exact h.locale

theorem Inv.of_frame {fields : List Field} {keys : List QString} (h : Inv lib m)
    (hframe : Frame fields keys m m')
    (hfields : .str .trayGuid ∉ fields ∧ .uint .locale ∉ fields)
    (hkeys : ∀ key ∈ [smTrayGuid, smLocale], key ∉ keys) : Inv lib m' :=
  h.of_same (hframe.val _ hfields.1) (hframe.val _ hfields.2)
    fun key hkey => hframe.settings key (hkeys key hkey)

/-- The guid is loaded if it was saved, and made and saved otherwise. -/
theorem Inv.new (settings : QSettings) : Inv lib (CSettingsManager.new lib machine settings) := by
  have hframe := frame_guidMade lib machine settings
  have hsame : (CSettingsManager.new lib machine settings).settings smTrayGuid =
      (guidMade lib machine settings).settings smTrayGuid := hframe.settings _ (by decide)
  have hval : (CSettingsManager.new lib machine settings).val (.str .trayGuid) =
      (guidMade lib machine settings).val (.str .trayGuid) := hframe.val _ (by decide)
  have hmade : (∃ var, (guidMade lib machine settings).settings smTrayGuid = some var ∧
      lib.conversions.toString var = (guidMade lib machine settings).val (.str .trayGuid)) ∧
      (guidMade lib machine settings).val (.str .trayGuid) ≠ [] := by
    have hloaded : (branchLoaded lib machine settings).val (.str .trayGuid) =
        storedStr lib settings (.trayGuid, smTrayGuid) [] := by
      rw [frame_to_branchLoaded.val _ (by decide)]
      exact @load_str lib settings machine.initial (.trayGuid, smTrayGuid) (by decide)
    have hsaved : (branchLoaded lib machine settings).settings smTrayGuid = settings smTrayGuid :=
      frame_to_branchLoaded.settings _ (by decide)
    rw [guidMade, makeTrayGuid]
    split
    · rw [settings_setFieldDef_self, val_setFieldDef_self]
      exact ⟨⟨_, rfl, lib.conversions.toString_string _⟩, machine.uuid_ne_nil⟩
    · next hne =>
      refine ⟨?_, hne⟩
      rw [hloaded] at hne ⊢
      rw [hsaved]
      rw [storedStr] at hne ⊢
      cases hentry : settings smTrayGuid with
      | none =>
          rw [hentry] at hne
          exact absurd rfl hne
      | some var =>
          refine ⟨var, rfl, ?_⟩
          rw [hentry] at hne
          change lib.conversions.toString var = qvarToStr lib.conversions var []
          change qvarToStr lib.conversions var [] ≠ [] at hne
          rw [qvarToStr] at hne ⊢
          split
          · rfl
          · next hempty => exact absurd (if_neg hempty) hne
  refine ⟨?_, ?_, ?_⟩
  · rw [hsame, hval]
    exact hmade.1
  · rw [hval]
    exact hmade.2
  · rw [val_new (by decide), storedUInt, settings_new (by decide)]
    exact (@load_uint lib settings machine.initial (.locale, smLocale) (by decide)).symm

/-- A key with a place marker for an id is none of the keys that the constructor saves. -/
theorem arg_notMem {stem : QString} (hstem : '%' ∉ stem)
    (hkeys : ∀ key ∈ smLocale :: resaved, ¬stem <+: key) (id : QString) :
    arg (stem ++ "%1".toList) id ∉ smLocale :: resaved := by
  intro hmem
  apply hkeys _ hmem
  rw [arg_append hstem]
  exact List.prefix_append _ _

theorem arg_key_notMem (setting : IdSetting) (id : QString) :
    arg setting.key id ∉ smLocale :: resaved := by
  cases setting with
  | rhUser => exact @arg_notMem "Rh_User_".toList (by decide) (by decide) id
  | rhPass => exact @arg_notMem "Rh_Pass_".toList (by decide) (by decide) id
  | rhHost => exact @arg_notMem "Rh_Host_".toList (by decide) (by decide) id
  | peerPass => exact @arg_notMem "Peer_Pass_".toList (by decide) (by decide) id
  | peerFinger => exact @arg_notMem "Peer_Finger_".toList (by decide) (by decide) id

theorem arg_smRhPort_notMem (id : QString) : arg smRhPort id ∉ smLocale :: resaved :=
  @arg_notMem "Rh_Port_".toList (by decide) (by decide) id

theorem Inv.save_of_notMem (h : Inv lib m) {key : QString} (hkey : key ∉ smLocale :: resaved)
    (hval : m'.val = m.val) (var : QVariant) (hsettings : m'.settings = m.settings.setValue key var) :
    Inv lib m' := by
  refine h.of_same (congrFun hval _) (congrFun hval _) ?_
  intro key' hmem
  have hne : key' ≠ key := by
    rintro rfl
    apply hkey
    cases List.mem_cons.mp hmem with
    | inl hguid => exact hguid ▸ by decide
    | inr hlocale => exact List.mem_singleton.mp hlocale ▸ List.mem_cons_self
  rw [hsettings]
  exact m.settings.setValue_of_ne hne var

theorem Inv.setLocale (h : Inv lib m) (value : Int) : Inv lib (m.setLocale value) := by
  rw [CSettingsManager.setLocale]
  split
  · have hframe := Frame.setFieldDef (.uint .locale) smLocale .uint (UInt32.ofInt value) m
    have hguid := hframe.val (.str .trayGuid) (by decide)
    have hsaved := hframe.settings smTrayGuid (by decide)
    refine ⟨?_, ?_, ?_⟩
    · rw [hguid, hsaved]
      exact h.guid
    · rw [hguid]
      exact h.guid_ne_nil
    · rw [storedUInt, settings_setFieldDef_self, val_setFieldDef_self]
      change qvarToInt _ _ = _
      rw [qvarToInt, lib.conversions.toUInt_uint]
      rfl
  · exact h

theorem Inv.run (h : Inv lib m) (call : SettingCall) : Inv lib (call.run lib machine m) := by
  cases call with
  | text setting value =>
      refine h.of_frame (Frame.setFieldDef _ _ _ _ m) ?_ ?_ <;> cases setting <;> decide
  | link setting path =>
      refine h.of_frame (Frame.setFieldDef _ _ _ _ m) ?_ ?_ <;> cases setting <;> decide
  | flag setting value =>
      refine h.of_frame (Frame.setFieldDef _ _ _ _ m) ?_ ?_ <;> cases setting <;> decide
  | number setting value =>
      refine h.of_frame (Frame.setFieldDef _ _ _ _ m) ?_ ?_ <;> cases setting <;> decide
  | freq setting fr =>
      refine h.of_frame (Frame.setFieldDef (.uint setting.row.1) setting.row.2
        (fun freq => .int freq.toNat) (updateFreq fr) m) ?_ ?_ <;> cases setting <;> decide
  | port field value =>
      refine h.of_frame (Frame.setFieldDef (.port field) field.key
        (fun port => .int port.toNat) value m) ?_ ?_ <;> cases field <;> decide
  | logsLevel _ | vagrantProvider _ | notificationDelaySec _ | defaultBrowser _ | password _
  | ignored _ _ => exact h.of_frame (Frame.setFieldDef _ _ _ _ m) (by decide) (by decide)
  | locale value => exact h.setLocale value
  | branch value => exact h.of_frame (frame_setBranch m value) (by decide) (by decide)
  | autostart value =>
      rw [SettingCall.run, setAutostart]
      split
      · exact h
      · split
        · exact h.of_frame (Frame.setFieldDef _ _ _ _ m) (by decide) (by decide)
        · exact h
  | byId setting id value => exact h.save_of_notMem (arg_key_notMem setting id) rfl _ rfl
  | rhPortById id value => exact h.save_of_notMem (arg_smRhPort_notMem id) rfl _ rfl

/-! ## What a new manager finds -/

variable {later : Machine}

theorem val_new_setText_iff {setting : TextSetting} {value : QString}
    (hmem : setting.row ∈ strSettings) (htreated : .str setting.row.1 ∉ treated) :
    (CSettingsManager.new lib later (m.setText setting value).settings).val (.str setting.row.1) =
      value ↔ SettingCall.LoadsText later setting.row.1 value := by
  rw [val_new_str hmem htreated (settings_setText_self setting value m)]
  exact SettingCall.loadsText_iff

end CSettingsManager

namespace SettingCall

open CSettingsManager

variable {lib : QtLibrary} {machine later : Machine} {m : CSettingsManager}

theorem persists_iff {call : SettingCall} {value : SettingValue}
    (h : call.accepted lib machine m = some value) :
    call.Persists lib machine later m ↔
      call.get lib later (CSettingsManager.new lib later (call.run lib machine m).settings) =
        value := by
  rw [Persists, h]
  constructor
  · intro hall
    exact hall value rfl
  · intro heq value' hvalue
    rw [heq, Option.some.inj hvalue]

theorem persists_of_none {call : SettingCall} (h : call.accepted lib machine m = none) :
    call.Persists lib machine later m := by
  intro value hvalue
  exact absurd (h.symm.trans hvalue).symm (Option.some_ne_none value)

theorem persists_text_iff {setting : TextSetting} {value : QString}
    (hlooked : lookedFor setting.row.1 = false)
    (hget : ∀ m', (text setting value).get lib later m' = .text (m'.val (.str setting.row.1))) :
    (text setting value).Persists lib machine later m ↔
      (CSettingsManager.new lib later (m.setText setting value).settings).val
        (.str setting.row.1) = value := by
  have haccepted : (text setting value).accepted lib machine m = some (.text value) :=
    if_neg (hlooked ▸ Bool.false_ne_true)
  rw [persists_iff haccepted, hget, SettingValue.text.injEq]
  rfl

theorem persists_text_plain {setting : TextSetting} {value : QString}
    (hmem : setting.row ∈ strSettings) (htreated : .str setting.row.1 ∉ treated)
    (hlooked : lookedFor setting.row.1 = false)
    (hget : ∀ m', (text setting value).get lib later m' = .text (m'.val (.str setting.row.1))) :
    (text setting value).Persists lib machine later m ↔
      lookedFor setting.row.1 ∨ LoadsText later setting.row.1 value := by
  rw [persists_text_iff hlooked hget, val_new_setText_iff hmem htreated, hlooked]
  exact (or_iff_right Bool.false_ne_true).symm

theorem persists_text_lookedFor {setting : TextSetting} {value : QString}
    (hlooked : lookedFor setting.row.1 = true) :
    (text setting value).Persists lib machine later m ↔
      lookedFor setting.row.1 ∨ LoadsText later setting.row.1 value :=
  iff_of_true (persists_of_none (if_pos hlooked)) (Or.inl hlooked)

theorem persists_xquartzPath {value : QString} :
    (text .xquartzPath value).Persists lib machine later m ↔
      value = later.initialStr .xquartzPath := by
  rw [persists_text_iff rfl fun _ => rfl]
  change (CSettingsManager.new _ _ _).val (.str .xquartzPath) = value ↔ _
  rw [val_new_xquartzPath]
  exact eq_comm

theorem persists_terminalCmd {value : QString} :
    (text .terminalCmd value).Persists lib machine later m ↔
      (text .terminalCmd value).Kept lib machine later m := by
  have hcmd := @storedStr_of_string lib _ (.terminalCmd, smTerminalCmd) value
    (settings_setText_self .terminalCmd value m) (later.defaults .terminalCmd)
  rw [persists_text_iff rfl fun _ => rfl]
  change (CSettingsManager.new _ _ _).val (.str .terminalCmd) = value ↔ (_ → _)
  rw [val_new_terminalCmd, hcmd]
  by_cases hempty : value = []
  · simp [hempty]
  · by_cases hdefault : value = later.defaults .terminalCmd
    · simp [hdefault]
    · simp [hempty, hdefault]

theorem persists_terminalArg {value : QString} :
    (text .terminalArg value).Persists lib machine later m ↔
      (text .terminalArg value).Kept lib machine later m := by
  have hkept : (m.setText .terminalArg value).settings smTerminalCmd = m.settings smTerminalCmd :=
    (Frame.setFieldDef _ _ _ _ m).settings _ (by decide)
  have hcmd := @storedStr_congr lib _ _ (.terminalCmd, smTerminalCmd) hkept
    (later.defaults .terminalCmd)
  have harg := @storedStr_of_string lib _ (.terminalArg, smTerminalArg) value
    (settings_setText_self .terminalArg value m) (later.defaults .terminalArg)
  rw [persists_text_iff rfl fun _ => rfl]
  change (CSettingsManager.new _ _ _).val (.str .terminalArg) = value ↔ _
  rw [val_new_terminalArg, harg, hcmd, Kept]
  cases imposedArg later
      (storedStr lib m.settings (.terminalCmd, smTerminalCmd) (later.defaults .terminalCmd)) with
  | none => exact @loadsText_iff later .terminalArg value
  | some recommended => rfl

/-- The getter of a profile falls back to the default one. -/
theorem profile_eq_iff {profiles : List QString} {default value : QString} :
    (if (if value ≠ [] then value else default) ∈ profiles then
      if value ≠ [] then value else default else default) = value ↔
      value ≠ [] ∧ value ∈ profiles ∨ value = default := by
  by_cases hempty : value = []
  · simp [hempty]
  · by_cases hmem : value ∈ profiles
    · simp [hempty, hmem]
    · simp [hempty, hmem, eq_comm]

theorem val_installedProfile (machine : Machine) (setting : TextSetting)
    (profiles : List QString) (m : CSettingsManager) :
    (m.installedProfile machine setting profiles).val (.str setting.row.1) =
      if m.val (.str setting.row.1) ∈ profiles then m.val (.str setting.row.1)
      else machine.defaults setting.row.1 := by
  rw [installedProfile]
  split
  · rfl
  · exact val_setFieldDef_self (.str setting.row.1) _ _ _ m

theorem persists_profile {setting : TextSetting} {profiles : List QString} {value : QString}
    (hmem : setting.row ∈ strSettings) (htreated : .str setting.row.1 ∉ treated)
    (hlooked : lookedFor setting.row.1 = false)
    (hdefault : later.initialStr setting.row.1 = later.defaults setting.row.1)
    (hget : ∀ m', (text setting value).get lib later m' =
      .text ((m'.installedProfile later setting profiles).val (.str setting.row.1))) :
    (text setting value).Persists lib machine later m ↔
      value ≠ [] ∧ value ∈ profiles ∨ value = later.defaults setting.row.1 := by
  have haccepted : (text setting value).accepted lib machine m = some (.text value) :=
    if_neg (hlooked ▸ Bool.false_ne_true)
  have hloaded := @val_new_str lib later _ setting.row value hmem htreated
    (settings_setText_self setting value m)
  rw [hdefault] at hloaded
  rw [persists_iff haccepted, hget, SettingValue.text.injEq, val_installedProfile, run, hloaded]
  exact profile_eq_iff

theorem persists_text (setting : TextSetting) (value : QString) :
    (text setting value).Persists lib machine later m ↔
      (text setting value).Kept lib machine later m := by
  cases setting with
  | xquartzPath => exact persists_xquartzPath
  | terminalCmd => exact persists_terminalCmd
  | terminalArg => exact persists_terminalArg
  | defaultChromeProfile | defaultFirefoxProfile =>
      exact persists_profile (by decide) (by decide) rfl rfl fun _ => rfl
  | sshPath | scpPath | sshKeygenCmd => exact persists_text_lookedFor rfl
  | login | sshUser | rhUser | rhPass | rhHost | peerPass | peerFinger | logsStorage
  | sshKeysStorage | peersStorage | chromePath | firefoxPath | vmStorage | vmwareVmStorage
  | kvmVmStorage | hypervVmStorage | parallelsVmStorage =>
      exact persists_text_plain (by decide) (by decide) rfl fun _ => rfl

theorem persists_link (setting : LinkSetting) (path : QString) :
    (link setting path).Persists lib machine later m ↔
      (link setting path).Kept lib machine later m := by
  have hplain (hmem : setting.row ∈ strSettings) (htreated : .str setting.row.1 ∉ treated)
      (hlooked : lookedFor setting.row.1 = false) :
      (link setting path).Persists lib machine later m ↔
        (link setting path).Kept lib machine later m := by
    have haccepted : (link setting path).accepted lib machine m =
        some (.text (machine.linkResolved path)) := if_neg (hlooked ▸ Bool.false_ne_true)
    have hsaved : (m.setLink machine setting path).settings setting.row.2 =
        some (.string (machine.linkResolved path)) := settings_setFieldDef_self _ _ _ _ m
    rw [persists_iff haccepted, get, SettingValue.text.injEq, run,
      val_new_str hmem htreated hsaved, Kept, hlooked, loadsText_iff]
    exact (or_iff_right Bool.false_ne_true).symm
  have hlookedFor (hlooked : lookedFor setting.row.1 = true) :
      (link setting path).Persists lib machine later m ↔
        (link setting path).Kept lib machine later m :=
    iff_of_true (persists_of_none (if_pos hlooked)) (Or.inl hlooked)
  cases setting with
  | p2pPath | vagrantPath | oracleVirtualboxPath | x2goclientPath => exact hlookedFor rfl
  | parallelsPath | vmwarePath | kvmPath => exact hplain (by decide) (by decide) rfl

theorem persists_flag (setting : FlagSetting) (value : Bool) :
    (flag setting value).Persists lib machine later m := by
  have haccepted : (flag setting value).accepted lib machine m = some (.flag value) := rfl
  have hsaved : (m.setFlag setting value).settings setting.row.2 = some (.bool value) :=
    settings_setFieldDef_self _ _ _ _ m
  rw [persists_iff haccepted, get, SettingValue.flag.injEq, run]
  cases setting <;> exact val_new_bool (by decide) (by decide) hsaved

theorem val_new_setNumber (setting : NumberSetting) (value : UInt32) :
    (CSettingsManager.new lib later (m.setNumber setting value).settings).val
      (.uint setting.row.1) = value := by
  have hsaved : (m.setNumber setting value).settings setting.row.2 = some (.uint value) :=
    settings_setFieldDef_self _ _ _ _ m
  have hvar := lib.conversions.toUInt_uint value
  cases setting with
  | refreshTimeSec => exact val_new_refreshTimeSec hsaved
  | notificationsLevel | logsLevel | vagrantProvider | preferredNotificationsPlace | traySkin =>
      exact val_new_uint (by decide) (by decide) hsaved hvar

theorem updateFreq_lt (fr : Int) : (updateFreq fr).toNat < 2 ^ 31 := by
  rw [updateFreq, UInt32.toNat_mod]
  have : (UInt32.ofInt fr).toNat % ufLast.toNat < ufLast.toNat := Nat.mod_lt _ (by decide)
  exact Nat.lt_trans this (by decide)

theorem val_new_setFreq (setting : FreqSetting) (fr : Int) :
    (CSettingsManager.new lib later (m.setFreq setting fr).settings).val (.uint setting.row.1) =
      updateFreq fr := by
  have hsaved : (m.setFreq setting fr).settings setting.row.2 =
      some (.int (updateFreq fr).toNat) :=
    settings_setFieldDef_self (.uint setting.row.1) _ (fun freq => .int freq.toNat) _ m
  have hvar := lib.conversions.toUInt_int (updateFreq fr) (updateFreq_lt fr)
  cases setting <;> exact val_new_uint (by decide) (by decide) hsaved hvar

theorem persists_port (field : PortField) (value : UInt16) :
    (port field value).Persists lib machine later m ↔
      (port field value).Kept lib machine later m := by
  have haccepted : (port field value).accepted lib machine m = some (.number value.toNat) := rfl
  have hsaved : (m.setPort field value).settings field.key = some (.int value.toNat) :=
    settings_setFieldDef_self (.port field) _ (fun port => .int port.toNat) _ m
  rw [persists_iff haccepted, get, SettingValue.number.injEq, UInt16.toNat_inj, run]
  cases field with
  | rhPort =>
      have hsmall : value.toUInt32.toNat < 2 ^ 31 := by
        have := value.toNat_lt
        rw [UInt16.toNat_toUInt32]
        omega
      have hvar := lib.conversions.toUInt_int value.toUInt32 hsmall
      rw [UInt16.toNat_toUInt32] at hvar
      refine iff_of_true ((val_new_rhPort hsaved hvar).trans ?_) trivial
      exact UInt16.toUInt16_toUInt32 value
  | pluginPort =>
      rw [val_new_pluginPort]
      exact eq_comm

theorem clampedDelay_clampedDelay (delaySec : UInt32) :
    clampedDelay (clampedDelay delaySec) = clampedDelay delaySec := by
  have hmin : ¬clampedDelay delaySec < notificationDelayMin := by
    rw [clampedDelay]
    split
    · decide
    · next hmin =>
      split
      · decide
      · exact hmin
  have hmax : ¬clampedDelay delaySec > notificationDelayMax := by
    rw [clampedDelay]
    split
    · decide
    · split
      · decide
      · next hmax => exact hmax
  rw [clampedDelay, if_neg hmin, if_neg hmax]

theorem persists_notificationDelaySec (delaySec : UInt32) :
    (notificationDelaySec delaySec).Persists lib machine later m := by
  have haccepted : (notificationDelaySec delaySec).accepted lib machine m =
    some (.number (clampedDelay delaySec).toNat) := rfl
  have hsaved : (m.setNotificationDelaySec delaySec).settings smNotificationDelaySec =
      some (.uint (clampedDelay delaySec)) := settings_setFieldDef_self _ _ _ _ m
  rw [persists_iff haccepted, get, run, val_new_notificationDelaySec hsaved,
    clampedDelay_clampedDelay]

theorem persists_defaultBrowser (fr : QString) :
    (defaultBrowser fr).Persists lib machine later m ↔
      (defaultBrowser fr).Kept lib machine later m := by
  have haccepted : (defaultBrowser fr).accepted lib machine m =
    some (.text (lib.capitalized fr)) := rfl
  have hsaved : (m.setDefaultBrowser lib fr).settings smDefaultBrowser =
      some (.string (lib.capitalized fr)) := settings_setFieldDef_self _ _ _ _ m
  rw [persists_iff haccepted, get, run, val_new_defaultBrowser hsaved, SettingValue.text.injEq]
  rfl

theorem persists_locale (h : Inv lib m) (value : Int) :
    (locale value).Persists lib machine later m := by
  have haccepted : (locale value).accepted lib machine m =
    some (.number (UInt32.ofInt value).toNat) := rfl
  have hinv : Inv lib (m.setLocale value) := h.setLocale value
  have hset : (m.setLocale value).val (.uint .locale) = UInt32.ofInt value := by
    rw [setLocale]
    split
    · exact val_setFieldDef_self (.uint .locale) _ _ _ m
    · next hsame => exact Decidable.of_not_not hsame
  have hloaded : (CSettingsManager.new lib later (m.setLocale value).settings).val (.uint .locale) =
      storedUInt lib (m.setLocale value).settings (.locale, smLocale) 0 := by
    rw [val_new (by decide)]
    exact @load_uint lib _ later.initial (.locale, smLocale) (by decide)
  rw [persists_iff haccepted, get, run, hloaded, hinv.locale, hset]

theorem persists_branch (value : QString) : (branch value).Persists lib machine later m := by
  by_cases hmem : value ∈ branches
  · have haccepted : (branch value).accepted lib machine m = some (.text value) := if_pos hmem
    have hsaved : (m.setBranch value).settings smAppBranch = some (.string value) := by
      rw [setBranch, if_pos hmem]
      refine (settings_save_self _ _ _).trans ?_
      rw [val_set_self]
    rw [persists_iff haccepted, get, run, val_new_branch hmem hsaved]
  · exact persists_of_none (if_neg hmem)

theorem persists_autostart (value : Bool) :
    (autostart value).Persists lib machine later m ↔
      (autostart value).Kept lib machine later m := by
  rw [Kept]
  split
  · next hsame =>
    have haccepted : (autostart value).accepted lib machine m = some (.flag value) :=
      if_pos (Or.inl hsame)
    rw [persists_iff haccepted, get, run, val_new_autostart, setAutostart, if_pos hsame,
      SettingValue.flag.injEq]
  · next hchanged =>
    by_cases hset : machine.setApplicationAutostart value = true
    · have haccepted : (autostart value).accepted lib machine m = some (.flag value) :=
        if_pos (Or.inr hset)
      have hsaved := @storedBool_of_bool lib _ (.autostart, smAutostart) value
        (settings_setFieldDef_self (.bool .autostart) smAutostart .bool value m) true
      rw [persists_iff haccepted, get, run, val_new_autostart, setAutostart, if_neg hchanged,
        if_pos hset, hsaved, SettingValue.flag.injEq]
      exact (imp_iff_right hset).symm
    · refine iff_of_true (persists_of_none (if_neg ?_)) fun h => absurd h hset
      rintro (hsame | hok)
      · exact hchanged hsame
      · exact hset hok

theorem persists_password (h : Inv lib m) (value : QString) :
    (password value).Persists lib machine later m ↔
      (password value).Kept lib machine later m := by
  have haccepted : (password value).accepted lib machine m = some (.text value) := rfl
  have hinv : Inv lib (m.setPassword lib machine value) := h.run (.password value)
  obtain ⟨var, hguid, hvar⟩ := hinv.guid
  have hsame : (m.setPassword lib machine value).val (.str .trayGuid) =
      m.val (.str .trayGuid) := (Frame.setFieldDef _ _ _ _ m).val _ (by decide)
  have hkey : lib.conversions.toString var = m.val (.str .trayGuid) := hvar.trans hsame
  have hsaved : (m.setPassword lib machine value).settings smPassword =
      some (.byteArray (storedPassword lib.sha1 (lib.guidKey (lib.conversions.toString var))
        machine.randomByte value)) := by
    rw [hkey]
    exact settings_setFieldDef_self _ _ _ _ m
  have hne : lib.conversions.toString var ≠ [] := hkey ▸ h.guid_ne_nil
  rw [persists_iff haccepted, get, run, SettingValue.text.injEq,
    val_new_passwordStr hguid hne hsaved]
  exact lib.reader.qString_toUtf8_eq_self_iff value

theorem persists_ignored (msg : QString) (value : Bool) :
    (ignored msg value).Persists lib machine later m := by
  have haccepted : (ignored msg value).accepted lib machine m = some (.flag value) := rfl
  have hsaved : (m.setIgnored msg value).settings smDctNotificationsIgnore =
      some (.map ((m.val .dctNotificationIgnore).insert msg (.bool value))) :=
    settings_setFieldDef_self _ _ _ _ m
  rw [persists_iff haccepted, get, run, isNotificationIgnored,
    val_new_dctNotificationIgnore hsaved, QVariantMap.find_insert_self]
  exact congrArg _ (lib.conversions.toBool_bool value)

/-- What is kept by an id is looked up when it is asked for. -/
theorem persists_byId (setting : IdSetting) (id value : QString) :
    (byId setting id value).Persists lib machine later m := by
  have haccepted : (byId setting id value).accepted lib machine m = some (.text value) := rfl
  have hsaved : (CSettingsManager.new lib later (m.setById setting id value).settings).settings
      (arg setting.key id) = some (.string value) := by
    rw [settings_new fun h => arg_key_notMem setting id (List.mem_cons_of_mem _ h)]
    exact settings_save_self _ _ _
  have htexts : (CSettingsManager.new lib later (m.setById setting id value).settings).texts =
      fun _ => ∅ := (frame_tableLoaded lib later _).texts
  rw [persists_iff haccepted, get, run, textById, htexts, Std.ExtTreeMap.getElem?_empty]
  simp only [hsaved, lib.conversions.toString_string]

/-- `quint16` undoes the sign with which a port is saved. -/
theorem ofInt_toInt (port : Int16) : UInt16.ofInt port.toInt = port.toUInt16 := by
  apply UInt16.toNat_inj.mp
  have hbits : port.toUInt16.toNat = port.toBitVec.toNat := (Int16.toNat_toBitVec port).symm
  have hsigned : port.toInt = port.toBitVec.toInt := rfl
  have hlt := port.toBitVec.isLt
  rw [hbits, hsigned, UInt16.ofInt, UInt16.toNat_ofNat', BitVec.toInt_eq_toNat_cond]
  split <;> omega

theorem persists_rhPortById (id : QString) (value : Int16) :
    (rhPortById id value).Persists lib machine later m := by
  have haccepted : (rhPortById id value).accepted lib machine m =
    some (.number value.toUInt16.toNat) := rfl
  have hsaved : (CSettingsManager.new lib later (m.setRhPortById id value).settings).settings
      (arg smRhPort id) = some (.int value.toInt) := by
    rw [settings_new fun h => arg_smRhPort_notMem id (List.mem_cons_of_mem _ h)]
    exact settings_save_self _ _ _
  have hports : (CSettingsManager.new lib later (m.setRhPortById id value).settings).rhPorts = ∅ :=
    (frame_tableLoaded lib later _).rhPorts
  rw [persists_iff haccepted, get, run, CSettingsManager.rhPortById, hports,
    Std.ExtTreeMap.getElem?_empty]
  simp only [hsaved, lib.conversions.toInt_int, ofInt_toInt]

theorem persists_iff_kept (h : Inv lib m) (call : SettingCall) :
    call.Persists lib machine later m ↔ call.Kept lib machine later m := by
  cases call with
  | text setting value => exact persists_text setting value
  | link setting path => exact persists_link setting path
  | port field value => exact persists_port field value
  | defaultBrowser fr => exact persists_defaultBrowser fr
  | autostart value => exact persists_autostart value
  | password value => exact persists_password h value
  | flag setting value => exact iff_of_true (persists_flag setting value) trivial
  | number setting value =>
      refine iff_of_true ((persists_iff rfl).mpr ?_) trivial
      rw [get, run, val_new_setNumber]
  | logsLevel level =>
      refine iff_of_true ((persists_iff rfl).mpr ?_) trivial
      exact congrArg (fun n : UInt32 => SettingValue.number n.toNat)
        (val_new_setNumber .logsLevel (UInt32.ofInt level))
  | vagrantProvider provider =>
      refine iff_of_true ((persists_iff rfl).mpr ?_) trivial
      exact congrArg (fun n : UInt32 => SettingValue.number n.toNat)
        (val_new_setNumber .vagrantProvider (UInt32.ofInt provider))
  | freq setting fr =>
      refine iff_of_true ((persists_iff rfl).mpr ?_) trivial
      rw [get, run, val_new_setFreq]
  | notificationDelaySec delaySec =>
      exact iff_of_true (persists_notificationDelaySec delaySec) trivial
  | locale value => exact iff_of_true (persists_locale h value) trivial
  | branch value => exact iff_of_true (persists_branch value) trivial
  | ignored msg value => exact iff_of_true (persists_ignored msg value) trivial
  | byId setting id value => exact iff_of_true (persists_byId setting id value) trivial
  | rhPortById id value => exact iff_of_true (persists_rhPortById id value) trivial

end SettingCall

/-! ## Sessions -/

/-- The profile getters may save the default profile. -/
inductive SessionEvent where
  | call (call : SettingCall)
  | defaultChromeProfile
  | defaultFirefoxProfile
  | restart

namespace CSettingsManager

variable {lib : QtLibrary} {m : CSettingsManager}

def step (lib : QtLibrary) (m : CSettingsManager) (input : Machine × SessionEvent) :
    CSettingsManager :=
  match input.2 with
  | .call call => call.run lib input.1 m
  | .defaultChromeProfile => m.defaultChromeProfile input.1
  | .defaultFirefoxProfile => m.defaultFirefoxProfile input.1
  | .restart => new lib input.1 m.settings

theorem Inv.installedProfile (h : Inv lib m) (machine : Machine) (setting : TextSetting)
    (profiles : List QString) : Inv lib (m.installedProfile machine setting profiles) := by
  rw [CSettingsManager.installedProfile]
  split
  · exact h
  · exact @Inv.run lib machine m h (.text setting _)

theorem Inv.step (h : Inv lib m) (input : Machine × SessionEvent) :
    Inv lib (m.step lib input) := by
  obtain ⟨machine, event⟩ := input
  cases event with
  | call call => exact h.run call
  | defaultChromeProfile | defaultFirefoxProfile => exact h.installedProfile machine _ _
  | restart => exact Inv.new m.settings

/-- At any time of any session, over whatever store it began and on whatever machines, a
setting survives a restart in exactly these cases. -/
theorem persists_iff_kept_of_session (lib : QtLibrary) (machine : Machine) (settings : QSettings)
    (inputs : List (Machine × SessionEvent)) (now later : Machine) (call : SettingCall) :
    let m := inputs.foldl (step lib) (new lib machine settings)
    call.Persists lib now later m ↔ call.Kept lib now later m := by
  intro m
  have hinv : Inv lib m :=
    Runs.invariant (Inv.new settings) (fun _ input h => h.step input) inputs
  exact SettingCall.persists_iff_kept hinv call

end CSettingsManager

def sampleLibrary : QtLibrary where
  conversions := plainConversions
  reader := utf8Reader
  sha1 := sampleSha1
  guidKey _ := sampleKey
  toLower s := s.map Char.toLower
  toUpper := Char.toUpper

def sampleMachine : Machine where
  defaults
    | .terminalCmd => "xterm".toList
    | .terminalArg => "-e".toList
    | .defaultBrowser => "Chrome".toList
    | .branch => "production".toList
    | _ => "/usr/bin".toList
  which _ := none
  isSymLink _ := false
  symLinkTarget _ := []
  isApplicationLaunchable _ := false
  defaultTerminals := []
  recommendedTerminalArg _ := none
  chromeProfiles := ["Default".toList]
  firefoxProfiles := []
  setApplicationAutostart _ := true
  applicationAutostart b := b
  uuid := "{01234567-89ab-cdef-0102-030405060708}".toList
  uuid_ne_nil := by decide
  randomByte := 17

/-- The plugin port is saved, but no row of the table loads it. -/
theorem not_persists_pluginPort :
    ¬(SettingCall.port .pluginPort 5000).Persists sampleLibrary sampleMachine sampleMachine
      (CSettingsManager.new sampleLibrary sampleMachine fun _ => none) := by
  rw [SettingCall.persists_port]
  change ¬((5000 : UInt16) = 9998)
  decide

end SubutaiTray.Settings
