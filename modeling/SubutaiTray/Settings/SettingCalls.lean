import SubutaiTray.Library.Footprints
import SubutaiTray.Settings.Persistence

/-!
What several setters do one after the other.

A setter touches one member at most, and what it makes of it depends on hardly anything else, so the
setters of different members do not interfere.
-/
namespace SubutaiTray.Settings

namespace SettingCall

/-- The members that the setter may set or looks at. -/
def fields : SettingCall → List Field
  | .text setting _ => [.str setting.row.1]
  | .link setting _ => [.str setting.row.1]
  | .flag setting _ => [.bool setting.row.1]
  | .number setting _ => [.uint setting.row.1]
  | .logsLevel _ => [.uint .logsLevel]
  | .vagrantProvider _ => [.uint .vagrantProvider]
  | .freq setting _ => [.uint setting.row.1]
  | .port field _ => [.port field]
  | .notificationDelaySec _ => [.uint .notificationDelaySec]
  | .defaultBrowser _ => [.str .defaultBrowser]
  | .locale _ => [.uint .locale]
  | .branch _ => [.str .branch]
  | .autostart _ => [.bool .autostart]
  | .password _ => [.password, .str .trayGuid]
  | .ignored _ _ => [.dctNotificationIgnore]
  | .byId _ _ _ | .rhPortById _ _ => []

variable {lib : QtLibrary} {machine : Machine}

theorem val_run_of_notMem {call : SettingCall} {field : Field} (h : field ∉ call.fields)
    (m : CSettingsManager) : (call.run lib machine m).val field = m.val field := by
  cases call with
  | text setting value => exact (Frame.setFieldDef (.str setting.row.1) _ .string value m).val field h
  | link setting path =>
      exact (Frame.setFieldDef (.str setting.row.1) _ .string (machine.linkResolved path) m).val field h
  | flag setting value => exact (Frame.setFieldDef (.bool setting.row.1) _ .bool value m).val field h
  | number setting value => exact (Frame.setFieldDef (.uint setting.row.1) _ .uint value m).val field h
  | freq setting fr =>
      exact (Frame.setFieldDef (.uint setting.row.1) setting.row.2 (fun freq => .int freq.toNat)
        (updateFreq fr) m).val field h
  | port port value =>
      exact (Frame.setFieldDef (.port port) port.key (fun port => .int port.toNat) value m).val field h
  | logsLevel _ | vagrantProvider _ | notificationDelaySec _ | defaultBrowser _ | ignored _ _ =>
      exact (Frame.setFieldDef _ _ _ _ m).val field h
  | password _ =>
      exact (Frame.setFieldDef _ _ _ _ m).val field
        fun hmem => h (List.mem_cons.mpr (.inl (List.mem_singleton.mp hmem)))
  | locale value =>
      rw [run, CSettingsManager.setLocale]
      split
      · exact (Frame.setFieldDef _ _ _ _ m).val field h
      · rfl
  | branch value => exact (CSettingsManager.frame_setBranch m value).val field h
  | autostart value =>
      rw [run, CSettingsManager.setAutostart]
      split
      · rfl
      · split
        · exact (Frame.setFieldDef _ _ _ _ m).val field h
        · rfl
  | byId _ _ _ | rhPortById _ _ => rfl

theorem val_run_freq (setting : FreqSetting) (fr : Int) (m : CSettingsManager) :
    ((SettingCall.freq setting fr).run lib machine m).val (.uint setting.row.1) = updateFreq fr :=
  CSettingsManager.val_setFieldDef_self (.uint setting.row.1) setting.row.2 (fun freq => .int freq.toNat)
    (updateFreq fr) m

theorem val_run_flag (setting : FlagSetting) (value : Bool) (m : CSettingsManager) :
    ((SettingCall.flag setting value).run lib machine m).val (.bool setting.row.1) = value :=
  CSettingsManager.val_setFieldDef_self (.bool setting.row.1) _ .bool value m

/-- The locale is set only if it is another one, which is no difference in the end. -/
theorem val_run_locale (value : Int) (m : CSettingsManager) :
    ((SettingCall.locale value).run lib machine m).val (.uint .locale) = UInt32.ofInt value := by
  rw [run, CSettingsManager.setLocale]
  split
  · exact CSettingsManager.val_setFieldDef_self (.uint .locale) smLocale .uint _ m
  · rename_i hsame
    exact Classical.not_not.mp hsame

theorem val_setFieldDef_congr {m m' : CSettingsManager} (field : Field) (key : QString)
    (var : field.Val → QVariant) (value : field.Val) {other : Field} (hother : other ∈ [field]) :
    (m.setFieldDef field key var value).val other = (m'.setFieldDef field key var value).val other := by
  obtain rfl := List.mem_singleton.mp hother
  rw [CSettingsManager.val_setFieldDef_self, CSettingsManager.val_setFieldDef_self]

/-- What a setter makes of its members depends on them only. -/
theorem val_run_congr {m m' : CSettingsManager} (call : SettingCall)
    (h : ∀ field ∈ call.fields, m.val field = m'.val field) {field : Field} (hfield : field ∈ call.fields) :
    (call.run lib machine m).val field = (call.run lib machine m').val field := by
  cases call with
  | text _ _ | link _ _ | flag _ _ | number _ _ | logsLevel _ | vagrantProvider _
  | notificationDelaySec _ | defaultBrowser _ => exact val_setFieldDef_congr _ _ _ _ hfield
  | freq setting fr =>
      exact val_setFieldDef_congr (.uint setting.row.1) setting.row.2 (fun freq => .int freq.toNat)
        (updateFreq fr) hfield
  | port port value =>
      exact val_setFieldDef_congr (.port port) port.key (fun port => .int port.toNat) value hfield
  | ignored msg value =>
      have hsame := h .dctNotificationIgnore List.mem_cons_self
      rw [run, run, CSettingsManager.setIgnored, CSettingsManager.setIgnored, hsame]
      exact val_setFieldDef_congr _ _ _ _ hfield
  | password value =>
      have hguid : m.val (.str .trayGuid) = m'.val (.str .trayGuid) :=
        h _ (List.mem_cons_of_mem _ List.mem_cons_self)
      rw [run, run, CSettingsManager.setPassword, CSettingsManager.setPassword, hguid]
      rcases List.mem_cons.mp hfield with hpassword | hother
      · exact val_setFieldDef_congr _ _ _ _ (List.mem_singleton.mpr hpassword)
      · obtain rfl := List.mem_singleton.mp hother
        rw [(Frame.setFieldDef _ _ _ _ m).val _ (by decide), (Frame.setFieldDef _ _ _ _ m').val _ (by decide),
          hguid]
  | locale value =>
      have hsame := h (.uint .locale) List.mem_cons_self
      rw [run, run, CSettingsManager.setLocale, CSettingsManager.setLocale, hsame]
      split
      · exact val_setFieldDef_congr _ _ _ _ hfield
      · exact h field hfield
  | branch value =>
      have hsame := h field hfield
      obtain rfl := List.mem_singleton.mp hfield
      rw [run, run, CSettingsManager.setBranch, CSettingsManager.setBranch]
      rw [(Frame.save _ _ _).val _ List.not_mem_nil, (Frame.save _ _ _).val _ List.not_mem_nil]
      split
      · rw [CSettingsManager.val_set_self, CSettingsManager.val_set_self]
      · exact hsame
  | autostart value =>
      have hsame := h (.bool .autostart) List.mem_cons_self
      rw [run, run, CSettingsManager.setAutostart, CSettingsManager.setAutostart, hsame]
      split
      · exact h field hfield
      · split
        · exact val_setFieldDef_congr _ _ _ _ hfield
        · exact h field hfield
  | byId _ _ _ | rhPortById _ _ => exact absurd hfield List.not_mem_nil

/-- The setters as actions upon the members. -/
theorem local_run (lib : QtLibrary) (machine : Machine) :
    Footprints.Local CSettingsManager.val (run lib machine) fields :=
  ⟨fun m _ _ h => val_run_of_notMem h m, fun _ _ call h _ hfield => val_run_congr call h hfield⟩

/-! ## The keys -/

/-- The keys under which the setter may save. -/
def keys : SettingCall → List QString
  | .text setting _ => [setting.row.2]
  | .link setting _ => [setting.row.2]
  | .flag setting _ => [setting.row.2]
  | .number setting _ => [setting.row.2]
  | .logsLevel _ => [smLogsLevel]
  | .vagrantProvider _ => [smVagrantProvider]
  | .freq setting _ => [setting.row.2]
  | .port field _ => [field.key]
  | .notificationDelaySec _ => [smNotificationDelaySec]
  | .defaultBrowser _ => [smDefaultBrowser]
  | .locale _ => [smLocale]
  | .branch _ => [smAppBranch]
  | .autostart _ => [smAutostart]
  | .password _ => [smPassword]
  | .ignored _ _ => [smDctNotificationsIgnore]
  | .byId setting id _ => [arg setting.key id]
  | .rhPortById id _ => [arg smRhPort id]

theorem settings_run_of_notMem {call : SettingCall} {key : QString} (h : key ∉ call.keys)
    (m : CSettingsManager) : (call.run lib machine m).settings key = m.settings key := by
  cases call with
  | text _ _ | link _ _ | flag _ _ | number _ _ | logsLevel _ | vagrantProvider _
  | notificationDelaySec _ | defaultBrowser _ | password _ | ignored _ _ =>
      exact (Frame.setFieldDef _ _ _ _ m).settings key h
  | freq setting fr =>
      exact (Frame.setFieldDef (.uint setting.row.1) setting.row.2 (fun freq => .int freq.toNat)
        (updateFreq fr) m).settings key h
  | port port value =>
      exact (Frame.setFieldDef (.port port) port.key (fun port => .int port.toNat) value m).settings key h
  | locale value =>
      rw [run, CSettingsManager.setLocale]
      split
      · exact (Frame.setFieldDef _ _ _ _ m).settings key h
      · rfl
  | branch value =>
      refine (CSettingsManager.frame_setBranch m value).settings key ?_
      simpa [keys] using h
  | autostart value =>
      rw [run, CSettingsManager.setAutostart]
      split
      · rfl
      · split
        · exact (Frame.setFieldDef _ _ _ _ m).settings key h
        · rfl
  | byId setting id value => exact m.settings.setValue_of_ne (List.ne_of_not_mem_cons h) _
  | rhPortById id value => exact m.settings.setValue_of_ne (List.ne_of_not_mem_cons h) _

/-- What the keys with a place marker for an id begin with. -/
def idStems : List QString :=
  ["Rh_User_".toList, "Rh_Pass_".toList, "Rh_Host_".toList, "Peer_Pass_".toList, "Peer_Finger_".toList,
    "Rh_Port_".toList]

/-- A key that begins otherwise is none of them. -/
theorem notMem_keys_of_stems {key stem : QString} (h : ∀ stem ∈ idStems, ¬ stem <+: key)
    (hstem : stem ∈ idStems) (id : QString) : key ∉ [arg (stem ++ "%1".toList) id] := by
  have hplain : ∀ stem ∈ idStems, '%' ∉ stem := by decide
  rw [List.mem_singleton, arg_append (hplain stem hstem)]
  rintro rfl
  exact h stem hstem (List.prefix_append _ _)

theorem notMem_keys_byId {key : QString} (h : ∀ stem ∈ idStems, ¬ stem <+: key) (setting : IdSetting)
    (id value : QString) : key ∉ (byId setting id value).keys := by
  cases setting with
  | rhUser => exact @notMem_keys_of_stems key "Rh_User_".toList h (by decide) id
  | rhPass => exact @notMem_keys_of_stems key "Rh_Pass_".toList h (by decide) id
  | rhHost => exact @notMem_keys_of_stems key "Rh_Host_".toList h (by decide) id
  | peerPass => exact @notMem_keys_of_stems key "Peer_Pass_".toList h (by decide) id
  | peerFinger => exact @notMem_keys_of_stems key "Peer_Finger_".toList h (by decide) id

theorem notMem_keys_rhPortById {key : QString} (h : ∀ stem ∈ idStems, ¬ stem <+: key) (id : QString)
    (value : Int16) : key ∉ (rhPortById id value).keys :=
  @notMem_keys_of_stems key "Rh_Port_".toList h (by decide) id

end SettingCall

/-! ## What is done to the settings in a session -/

/-- The members that may be set; a restart reads them all again. -/
def SessionEvent.fields : SessionEvent → List Field
  | .call setter => setter.fields
  | .defaultChromeProfile => [.str .defaultChromeProfile]
  | .defaultFirefoxProfile => [.str .defaultFirefoxProfile]
  | .restart => []

def SessionEvent.keys : SessionEvent → List QString
  | .call setter => setter.keys
  | .defaultChromeProfile => [smDefaultChromeProfile]
  | .defaultFirefoxProfile => [smDefaultFirefoxProfile]
  | .restart => CSettingsManager.resaved

namespace CSettingsManager

variable {lib : QtLibrary} {machine : Machine} {m : CSettingsManager}

theorem frame_installedProfile (setting : TextSetting) (profiles : List QString) :
    Frame [.str setting.row.1] [setting.row.2] m (m.installedProfile machine setting profiles) := by
  rw [installedProfile]
  split
  · exact Frame.refl _ _ m
  · exact Frame.setFieldDef _ _ _ _ m

theorem val_step_of_notMem {event : SessionEvent} (hevent : event ≠ .restart) {field : Field}
    (h : field ∉ event.fields) : (m.step lib (machine, event)).val field = m.val field := by
  cases event with
  | call call => exact SettingCall.val_run_of_notMem h m
  | defaultChromeProfile | defaultFirefoxProfile => exact (frame_installedProfile _ _).val field h
  | restart => exact absurd rfl hevent

theorem settings_step_of_notMem {event : SessionEvent} {key : QString} (h : key ∉ event.keys) :
    (m.step lib (machine, event)).settings key = m.settings key := by
  cases event with
  | call call => exact SettingCall.settings_run_of_notMem h m
  | defaultChromeProfile | defaultFirefoxProfile => exact (frame_installedProfile _ _).settings key h
  | restart => exact settings_new h

end CSettingsManager

end SubutaiTray.Settings
