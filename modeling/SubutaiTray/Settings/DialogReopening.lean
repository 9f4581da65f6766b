import SubutaiTray.Peer.StatusLine
import SubutaiTray.Settings.SettingsDialog

/-!
Opening the settings dialog and pressing OK without a change.

Most members come back as they were. Some do only if the box could show them, some get another value
because the line is rewritten before it is saved, and the profile of Chrome is saved from a box that may
show the profiles of another browser. A profile that is not there is replaced when the dialog opens.
-/
namespace SubutaiTray.Settings

/-! ## Numbers through a box -/

theorem toInt_toInt32 (value : UInt32) :
    value.toInt32.toInt = if value.toNat < 2 ^ 31 then (value.toNat : Int) else value.toNat - 2 ^ 32 := by
  change value.toBitVec.toInt = _
  rw [BitVec.toInt_eq_toNat_cond]
  change (if 2 * value.toNat < 2 ^ 32 then (value.toNat : Int) else (value.toNat : Int) - (2 ^ 32 : Nat)) = _
  split <;> split <;> omega

theorem toNat_ofInt (n : Int) : (UInt32.ofInt n).toNat = (n % 2 ^ 32).toNat := by
  rw [UInt32.ofInt, UInt32.toNat_ofNat']
  omega

theorem ofInt_eq_iff (n : Int) (value : UInt32) : UInt32.ofInt n = value ↔ n % 2 ^ 32 = value.toNat := by
  rw [← UInt32.toNat_inj]
  rw [toNat_ofInt]
  omega

theorem ofInt_setCurrentIndex_iff {count : Nat} (hcount : count ≤ 11) (value : UInt32) :
    UInt32.ofInt (setCurrentIndex count value) = value ↔ value.toNat < count ∨ value = 4294967295 := by
  have hlt := value.toNat_lt
  rw [ofInt_eq_iff, setCurrentIndex, toInt_toInt32, ← UInt32.toNat_inj]
  change _ ↔ _ ∨ value.toNat = 4294967295
  split <;> split <;> omega

theorem updateFreq_setCurrentIndex_iff (value : UInt32) :
    updateFreq (setCurrentIndex 11 value) = value ↔ value < ufLast := by
  have hlt := value.toNat_lt
  rw [updateFreq, ← UInt32.toNat_inj, UInt32.toNat_mod, UInt32.lt_iff_toNat_lt, toNat_ofInt]
  change _ % 11 = _ ↔ _ < 11
  rw [setCurrentIndex, toInt_toInt32]
  split <;> split <;> omega

theorem ofInt_setSpinValue_iff {minimum maximum : Nat} (hmin : minimum ≤ maximum) (hmax : maximum < 2 ^ 31)
    (value : UInt32) :
    UInt32.ofInt (setSpinValue minimum maximum value) = value ↔
      minimum ≤ value.toNat ∧ value.toNat ≤ maximum := by
  have hlt := value.toNat_lt
  rw [ofInt_eq_iff, setSpinValue, toInt_toInt32]
  split <;> omega

theorem clampedDelay_setSpinValue_iff (value : UInt32) :
    clampedDelay (UInt32.ofInt (setSpinValue notificationDelayMin.toNat notificationDelayMax.toNat value)) =
        value ↔
      notificationDelayMin ≤ value ∧ value ≤ notificationDelayMax := by
  have hin := @ofInt_setSpinValue_iff 3 300 (by decide) (by decide) value
  change _ = value ↔ (3 : UInt32) ≤ value ∧ value ≤ 300
  rw [UInt32.le_iff_toNat_le, UInt32.le_iff_toNat_le]
  refine Iff.trans ?_ hin
  suffices h : clampedDelay (UInt32.ofInt (setSpinValue 3 300 value)) = UInt32.ofInt (setSpinValue 3 300 value) by
    exact ⟨fun h' => h.symm.trans h', fun h' => h.trans h'⟩
  have hrange : (UInt32.ofInt (setSpinValue 3 300 value)).toNat = (max 3 (min 300 value.toInt32.toInt)).toNat := by
    rw [toNat_ofInt, setSpinValue]
    omega
  rw [clampedDelay, if_neg, if_neg]
  · rw [gt_iff_lt, UInt32.lt_iff_toNat_lt, hrange]
    change ¬ 300 < _
    omega
  · rw [UInt32.lt_iff_toNat_lt, hrange]
    change ¬ _ < 3
    omega

theorem trimmed_of_digits {s : QString} (h : s.all Char.isDigit = true) : Peer.trimmed s = s := by
  have hspace (c : Char) (hmem : c ∈ s) : ¬ Installer.isSpace c = true := by
    have hdigit : c.isDigit = true := List.all_eq_true.mp h c hmem
    rw [Peer.isSpace_of_isAlphanum (Bool.or_eq_true_iff.mpr (.inr hdigit))]
    exact Bool.false_ne_true
  have hfront : s.dropWhile Installer.isSpace = s := by
    rw [List.dropWhile_eq_self_iff]
    exact fun hne => hspace _ (List.getElem_mem hne)
  rw [Peer.trimmed, hfront, List.rdropWhile_eq_self_iff]
  exact fun hne => hspace _ (List.getLast_mem hne)

theorem textToUInt_toDigits {n : Nat} (h : n < 2 ^ 32) : textToUInt (Nat.toDigits 10 n) = n := by
  have hall := all_isDigit_toDigits n
  have hvalue := decimal_toDigits n
  rw [textToUInt, trimmed_of_digits hall]
  cases heq : Nat.toDigits 10 n with
  | nil => exact absurd heq Nat.toDigits_ne_nil
  | cons c digits =>
      rw [heq] at hall hvalue
      have hplus : c ≠ '+' := by
        rintro rfl
        exact absurd (List.all_eq_true.mp hall _ List.mem_cons_self) (by decide)
      split
      · rename_i hmatch
        exact absurd (List.cons.inj hmatch).1 hplus
      · rw [if_pos ⟨List.cons_ne_nil c digits, hall, by rwa [hvalue]⟩, hvalue]

theorem textToUInt_shownPort (port : UInt16) :
    UInt16.ofNat (textToUInt (arg "%1".toList (number port.toNat))) = port := by
  rw [arg_one, number_natCast, textToUInt_toDigits (Nat.lt_trans port.toNat_lt (by decide)), UInt16.ofNat_toNat]

/-! ## What is kept -/

/-- A line is saved as it is shown. -/
def LineKept (env : Surroundings) (text : QString) : Prop := expandHome env.homeFolder text = text

/-- The box has the value, or the value is the one saved for a box without a current item. -/
def IndexKept (box : IndexBox) (value : UInt32) : Prop := value.toNat < box.count ∨ value = 4294967295

/-- When the member comes back as it was. -/
def ShownAndKept (lib : QtLibrary) (env : Surroundings) (m : CSettingsManager) : Field → Prop
  | .str .defaultBrowser => lib.capitalized (shownBrowser env m) = m.val (.str .defaultBrowser)
  | .str .defaultChromeProfile =>
      chosenChromeProfile env (shownProfile env m) = m.val (.str .defaultChromeProfile)
  | .str .defaultFirefoxProfile =>
      isBrowser m "Firefox" → m.val (.str .defaultFirefoxProfile) ∈ env.machine.firefoxProfiles ∨
        env.machine.defaults .defaultFirefoxProfile = m.val (.str .defaultFirefoxProfile)
  | .str .vmStorage => expandHome env.homeFolder (shownVmStorage env m) = m.val (.str .vmStorage)
  | .str .vmwareVmStorage => LineKept env (m.val (.str .vmwareVmStorage))
  | .str .hypervVmStorage => LineKept env (m.val (.str .hypervVmStorage))
  | .str .parallelsVmStorage => LineKept env (m.val (.str .parallelsVmStorage))
  | .str .kvmVmStorage => LineKept env (m.val (.str .kvmVmStorage))
  | .str .logsStorage => LineKept env (m.val (.str .logsStorage))
  | .str .sshKeysStorage => LineKept env (m.val (.str .sshKeysStorage))
  | .str .sshPath => LineKept env (m.val (.str .sshPath))
  | .str .scpPath => LineKept env (m.val (.str .scpPath))
  | .str .p2pPath =>
      env.machine.linkResolved (expandHome env.homeFolder (m.val (.str .p2pPath))) = m.val (.str .p2pPath)
  | .str .vagrantPath =>
      env.machine.linkResolved (expandHome env.homeFolder (m.val (.str .vagrantPath))) =
        m.val (.str .vagrantPath)
  | .str .x2goclient => env.machine.linkResolved (m.val (.str .x2goclient)) = m.val (.str .x2goclient)
  | .str .oracleVirtualboxPath =>
      env.machine.linkResolved (m.val (.str .oracleVirtualboxPath)) = m.val (.str .oracleVirtualboxPath)
  | .str .vmwarePath => env.machine.linkResolved (m.val (.str .vmwarePath)) = m.val (.str .vmwarePath)
  | .str .parallelsPath =>
      env.machine.linkResolved (m.val (.str .parallelsPath)) = m.val (.str .parallelsPath)
  | .str .kvmPath => env.machine.linkResolved (m.val (.str .kvmPath)) = m.val (.str .kvmPath)
  | .str .terminalArg =>
      env.takesRecommended = true →
        ∀ recommended ∈ env.machine.recommendedTerminalArg (m.val (.str .terminalCmd)),
          recommended = m.val (.str .terminalArg)
  | .uint .refreshTimeSec =>
      10 ≤ (m.val (.uint .refreshTimeSec)).toNat ∧ (m.val (.uint .refreshTimeSec)).toNat ≤ 600
  | .uint .notificationDelaySec =>
      notificationDelayMin ≤ m.val (.uint .notificationDelaySec) ∧
        m.val (.uint .notificationDelaySec) ≤ notificationDelayMax
  | .uint .p2pUpdateFreq => m.val (.uint .p2pUpdateFreq) < ufLast
  | .uint .trayUpdateFreq => m.val (.uint .trayUpdateFreq) < ufLast
  | .uint .preferredNotificationsPlace =>
      IndexKept .preferredNotificationsPlace (m.val (.uint .preferredNotificationsPlace))
  | .uint .notificationsLevel => IndexKept .notificationLevel (m.val (.uint .notificationsLevel))
  | .uint .logsLevel => IndexKept .logLevel (m.val (.uint .logsLevel))
  | .uint .traySkin => IndexKept .traySkin (m.val (.uint .traySkin))
  | .uint .locale => IndexKept .locale (m.val (.uint .locale))
  | .uint .vagrantProvider =>
      providerNumber (currentProvider env.os m) = m.val (.uint .vagrantProvider)
  | _ => True

section
variable {lib : QtLibrary} {env : Surroundings}

theorem text_argRecommended {dlg : DlgSettings} {le : LineEdit} (h : le ≠ .terminalArg) :
    (dlg.argRecommended env).text le = dlg.text le := by
  rw [DlgSettings.argRecommended]
  split
  · rfl
  · split
    · exact Function.update_of_ne h _ _
    · rfl

theorem terminalArg_argRecommended_iff (dlg : DlgSettings) :
    (dlg.argRecommended env).text .terminalArg = dlg.text .terminalArg ↔
      (env.takesRecommended = true →
        ∀ recommended ∈ env.machine.recommendedTerminalArg (dlg.text .terminalCmd),
          recommended = dlg.text .terminalArg) := by
  rw [DlgSettings.argRecommended]
  split
  · rename_i hnone
    rw [hnone]
    simp
  · rename_i recommended hsome
    rw [hsome]
    split
    · rename_i htaken
      simp [htaken.1, htaken.2]
    · rename_i hleft
      simp only [Option.mem_some_iff, forall_eq', true_iff]
      intro htakes
      exact Classical.not_not.mp fun hne => hleft ⟨hne, htakes⟩

/-- Only lines are rewritten. -/
theorem entries_boxes (dlg : DlgSettings) :
    ∃ text, dlg.entries env = { dlg with text } := by
  rw [DlgSettings.entries, DlgSettings.argRecommended]
  split
  · exact ⟨_, rfl⟩
  · split
    · exact ⟨_, rfl⟩
    · exact ⟨_, rfl⟩

/-- The entries of a dialog that was opened and left as it is. -/
def reopened (env : Surroundings) (visible : LineEdit → Bool) (m : CSettingsManager) : DlgSettings :=
  (DlgSettings.new env m visible).1.entries env

variable {visible : LineEdit → Bool} {m : CSettingsManager}

theorem text_reopened {le : LineEdit} (hle : le ≠ .terminalArg) (hhome : le ∉ homeLines) :
    (reopened env visible m).text le = shownText env m le :=
  (text_argRecommended hle).trans (if_neg hhome)

theorem text_reopened_of_mem {le : LineEdit} (hle : le ≠ .terminalArg) (hhome : le ∈ homeLines) :
    (reopened env visible m).text le = expandHome env.homeFolder (shownText env m le) :=
  (text_argRecommended hle).trans (if_pos hhome)

theorem checked_reopened (box : CheckBox) : (reopened env visible m).checked box = shownCheck m box := by
  obtain ⟨text, htext⟩ := @entries_boxes env (DlgSettings.new env m visible).1
  rw [reopened, htext]
  rfl

theorem index_reopened (box : IndexBox) :
    (reopened env visible m).index box = setCurrentIndex box.count (m.val (.uint box.field)) := by
  obtain ⟨text, htext⟩ := @entries_boxes env (DlgSettings.new env m visible).1
  rw [reopened, htext]
  rfl

theorem spins_reopened :
    (reopened env visible m).refreshTimeout = setSpinValue 10 600 (m.val (.uint .refreshTimeSec)) ∧
      (reopened env visible m).notificationDelay =
        setSpinValue notificationDelayMin.toNat notificationDelayMax.toNat
          (m.val (.uint .notificationDelaySec)) := by
  obtain ⟨text, htext⟩ := @entries_boxes env (DlgSettings.new env m visible).1
  rw [reopened, htext]
  exact ⟨rfl, rfl⟩

theorem provider_reopened : (reopened env visible m).provider = currentProvider env.os m := by
  obtain ⟨text, htext⟩ := @entries_boxes env (DlgSettings.new env m visible).1
  rw [reopened, htext]
  rfl

/-! ## What opening does -/

theorem val_profileAsked_of_notMem {field : Field}
    (h : field ∉ [.str .defaultChromeProfile, .str .defaultFirefoxProfile]) :
    (profileAsked env m).val field = m.val field := by
  rw [List.mem_pair, not_or] at h
  rw [profileAsked]
  split
  · exact (CSettingsManager.frame_installedProfile _ _).val field fun hmem => h.1 (List.mem_singleton.mp hmem)
  · split
    · exact (CSettingsManager.frame_installedProfile _ _).val field fun hmem => h.2 (List.mem_singleton.mp hmem)
    · rfl

theorem currentProvider_profileAsked (os : Updater.OS) :
    currentProvider os (profileAsked env m) = currentProvider os m := by
  rw [currentProvider, val_profileAsked_of_notMem (by decide), currentProvider]

/-- The profile of Firefox is the one member that opening sets and pressing does not. -/
theorem firefoxProfile_profileAsked_iff :
    (profileAsked env m).val (.str .defaultFirefoxProfile) = m.val (.str .defaultFirefoxProfile) ↔
      ShownAndKept lib env m (.str .defaultFirefoxProfile) := by
  rw [profileAsked, ShownAndKept]
  by_cases hfirefox : isBrowser m "Firefox"
  · have hchrome : ¬ isBrowser m "Chrome" := by
      intro h
      exact absurd (h.symm.trans hfirefox) (by decide)
    have hval := SettingCall.val_installedProfile env.machine .defaultFirefoxProfile
      env.machine.firefoxProfiles m
    rw [if_neg hchrome, if_pos hfirefox, imp_iff_right hfirefox]
    refine (iff_of_eq (congrArg (· = _) hval)).trans ?_
    split
    · rename_i hmem
      exact iff_of_true rfl (Or.inl hmem)
    · rename_i hnot
      exact (or_iff_right hnot).symm
  · refine iff_of_true ?_ fun h => absurd h hfirefox
    rw [if_neg hfirefox]
    split
    · exact (CSettingsManager.frame_installedProfile _ _).val _ (by decide)
    · rfl

/-! ## What pressing does -/

/-- That the setter leaves the member as it was before the dialog was opened. -/
def CallKept (lib : QtLibrary) (env : Surroundings) (m : CSettingsManager) (call : SettingCall) : Prop :=
  ∀ field ∈ call.fields,
    (call.run lib env.machine (profileAsked env m)).val field = m.val field ↔ ShownAndKept lib env m field

theorem callKept_of_run {call : SettingCall} {field : Field} {value : field.Val}
    (hfields : call.fields = [field])
    (hrun : (call.run lib env.machine (profileAsked env m)).val field = value)
    (hkept : value = m.val field ↔ ShownAndKept lib env m field) : CallKept lib env m call := by
  intro other hother
  rw [hfields] at hother
  obtain rfl := List.mem_singleton.mp hother
  rw [hrun]
  exact hkept

theorem callKept_text {setting : TextSetting} {text : QString}
    (hkept : text = m.val (.str setting.row.1) ↔ ShownAndKept lib env m (.str setting.row.1)) :
    CallKept lib env m (.text setting text) :=
  callKept_of_run rfl (CSettingsManager.val_setFieldDef_self (.str setting.row.1) _ .string text _) hkept

theorem callKept_link {setting : LinkSetting} {path : QString}
    (hkept : env.machine.linkResolved path = m.val (.str setting.row.1) ↔
      ShownAndKept lib env m (.str setting.row.1)) : CallKept lib env m (.link setting path) :=
  callKept_of_run rfl (CSettingsManager.val_setFieldDef_self (.str setting.row.1) _ .string _ _) hkept

theorem callKept_flag {setting : FlagSetting} {value : Bool} (hvalue : value = m.val (.bool setting.row.1))
    (hkept : ShownAndKept lib env m (.bool setting.row.1)) : CallKept lib env m (.flag setting value) :=
  callKept_of_run rfl (SettingCall.val_run_flag setting value _) (iff_of_true hvalue hkept)

theorem callKept_number {setting : NumberSetting} {value : UInt32}
    (hkept : value = m.val (.uint setting.row.1) ↔ ShownAndKept lib env m (.uint setting.row.1)) :
    CallKept lib env m (.number setting value) :=
  callKept_of_run rfl (CSettingsManager.val_setFieldDef_self (.uint setting.row.1) _ .uint value _) hkept

theorem callKept_freq {setting : FreqSetting} {fr : Int}
    (hkept : updateFreq fr = m.val (.uint setting.row.1) ↔ ShownAndKept lib env m (.uint setting.row.1)) :
    CallKept lib env m (.freq setting fr) :=
  callKept_of_run rfl (SettingCall.val_run_freq setting fr _) hkept

/-- An index that is shown and saved again. -/
theorem ofInt_index_reopened_iff (box : IndexBox) :
    UInt32.ofInt ((reopened env visible m).index box) = m.val (.uint box.field) ↔
      IndexKept box (m.val (.uint box.field)) := by
  rw [index_reopened, IndexKept]
  apply ofInt_setCurrentIndex_iff
  cases box <;> decide

theorem callKept_browserCalls :
    ∀ call ∈ (DlgSettings.new env m visible).1.browserCalls env, CallKept lib env m call := by
  refine List.forall_mem_cons.mpr ⟨?_, List.forall_mem_singleton.mpr ?_⟩
  · exact callKept_of_run rfl (CSettingsManager.val_setFieldDef_self (.str .defaultBrowser) _ .string _ _)
      Iff.rfl
  · exact callKept_text Iff.rfl

/-- The place of the provider's machines, and the member for all providers, which follows it. -/
theorem callKept_storage {setting : TextSetting} (hsetting : storageSetting (currentProvider env.os m) = some setting) :
    CallKept lib env m (.text setting ((reopened env visible m).text .vmStorage)) := by
  apply callKept_text
  rw [text_reopened_of_mem (by decide) (by decide), shownText, shownVmStorage, hsetting]
  cases hprovider : currentProvider env.os m with
  | virtualbox =>
      rw [hprovider] at hsetting
      exact absurd hsetting.symm (Option.some_ne_none setting)
  | vmwareDesktop | hyperv | parallels | libvirt =>
      rw [hprovider] at hsetting
      rw [← Option.some.inj hsetting]
      exact Iff.rfl

theorem callKept_hypervisor :
    CallKept lib env m (.link (hypervisorSetting (currentProvider env.os m))
      ((reopened env visible m).text .hypervisorCommand)) := by
  apply callKept_link
  rw [text_reopened (by decide) (by decide), shownText]
  cases currentProvider env.os m <;> exact Iff.rfl

theorem callKept_mainCalls :
    ∀ call ∈ (reopened env visible m).mainCalls (currentProvider env.os m), CallKept lib env m call := by
  have hline {le : LineEdit} (hle : le ≠ .terminalArg) (hhome : le ∉ homeLines) :=
    @text_reopened env visible m le hle hhome
  have hhomeLine {le : LineEdit} (hle : le ≠ .terminalArg) (hhome : le ∈ homeLines) :=
    @text_reopened_of_mem env visible m le hle hhome
  have hbox := @checked_reopened env visible m
  have hindex := @ofInt_index_reopened_iff env visible m
  intro call hmem
  rw [DlgSettings.mainCalls, List.mem_append] at hmem
  rcases hmem with hstorage | hmem
  · rw [Option.mem_toList, Option.map_eq_some_iff] at hstorage
    obtain ⟨setting, hsetting, rfl⟩ := hstorage
    exact callKept_storage hsetting
  · revert call
    simp only [List.forall_mem_cons, List.not_mem_nil, false_imp_iff, implies_true, and_true]
    refine ⟨?_, ?_, ?_, ?_, ?_, ?_, ?_, ?_, ?_, ?_, ?_, ?_, ?_, ?_, ?_, ?_, ?_, ?_, ?_, ?_, ?_, ?_, ?_, ?_, ?_⟩
    -- the storages and the user
    · exact callKept_text (by rw [hhomeLine (by decide) (by decide)]; exact Iff.rfl)
    · exact callKept_text (iff_of_true (hline (by decide) (by decide)) trivial)
    · exact callKept_text (by rw [hhomeLine (by decide) (by decide)]; exact Iff.rfl)
    · exact callKept_text (by rw [hhomeLine (by decide) (by decide)]; exact Iff.rfl)
    -- the commands
    · exact callKept_link (by rw [hhomeLine (by decide) (by decide)]; exact Iff.rfl)
    · exact callKept_link (by rw [hhomeLine (by decide) (by decide)]; exact Iff.rfl)
    · exact callKept_link (by rw [hline (by decide) (by decide)]; exact Iff.rfl)
    · exact callKept_text (by rw [hhomeLine (by decide) (by decide)]; exact Iff.rfl)
    · exact callKept_text (by rw [hhomeLine (by decide) (by decide)]; exact Iff.rfl)
    · exact callKept_hypervisor
    -- the resource host
    · exact callKept_text (iff_of_true (hline (by decide) (by decide)) trivial)
    · exact callKept_text (iff_of_true (hline (by decide) (by decide)) trivial)
    · refine callKept_of_run rfl
        (CSettingsManager.val_setFieldDef_self (.port .rhPort) _ (fun port => .int port.toNat) _ _) ?_
      rw [hline (by decide) (by decide)]
      exact iff_of_true (textToUInt_shownPort _) trivial
    · exact callKept_text (iff_of_true (hline (by decide) (by decide)) trivial)
    -- the spin boxes
    · apply callKept_number
      rw [spins_reopened.1]
      exact @ofInt_setSpinValue_iff 10 600 (by decide) (by decide) _
    · refine callKept_of_run rfl
        (CSettingsManager.val_setFieldDef_self (.uint .notificationDelaySec) _ .uint _ _) ?_
      rw [spins_reopened.2]
      exact clampedDelay_setSpinValue_iff _
    -- the check boxes and the boxes with an index
    · exact callKept_flag (hbox .p2pAutoupdate) trivial
    · exact callKept_flag (hbox .trayAutoupdate) trivial
    · exact callKept_freq (by rw [index_reopened]; exact updateFreq_setCurrentIndex_iff _)
    · exact callKept_freq (by rw [index_reopened]; exact updateFreq_setCurrentIndex_iff _)
    · exact callKept_number (hindex .preferredNotificationsPlace)
    · exact callKept_number (hindex .notificationLevel)
    · exact callKept_of_run rfl (CSettingsManager.val_setFieldDef_self (.uint .logsLevel) _ .uint _ _)
        (hindex .logLevel)
    · exact callKept_number (hindex .traySkin)
    · exact callKept_of_run rfl (SettingCall.val_run_locale _ _) (hindex .locale)

theorem callKept_lastCalls :
    ∀ call ∈ (reopened env visible m).lastCalls, CallKept lib env m call := by
  have hcmd : (reopened env visible m).text .terminalCmd = m.val (.str .terminalCmd) :=
    text_reopened (by decide) (by decide)
  have hbox := @checked_reopened env visible m
  rw [DlgSettings.lastCalls]
  simp only [List.forall_mem_cons, List.not_mem_nil, false_imp_iff, implies_true, and_true]
  refine ⟨?_, ?_, ?_, ?_, ?_, ?_⟩
  · refine callKept_of_run rfl
      (CSettingsManager.val_setFieldDef_self (.uint .vagrantProvider) _ .uint _ _) ?_
    have hnumber (provider : Peer.Provider) :
        UInt32.ofInt (providerNumber provider).toNat = providerNumber provider := by
      cases provider <;> decide
    rw [provider_reopened, hnumber]
    exact Iff.rfl
  · exact callKept_text (iff_of_true hcmd trivial)
  · exact callKept_text (terminalArg_argRecommended_iff _)
  · exact callKept_flag (hbox .useAnimations) trivial
  · exact callKept_text (iff_of_true (text_reopened (by decide) (by decide)) trivial)
  · intro field hfield
    obtain rfl := List.mem_singleton.mp hfield
    have hshown : (profileAsked env m).val (.bool .autostart) = shownCheck m .autostart :=
      val_profileAsked_of_notMem (by decide)
    rw [hbox .autostart, SettingCall.run, CSettingsManager.setAutostart, if_pos hshown]
    exact iff_of_true hshown trivial

theorem callKept_savedCalls (outcome : Outcome) :
    ∀ call ∈ (DlgSettings.new env m visible).1.savedCalls env (currentProvider env.os m) outcome,
      CallKept lib env m call := by
  intro call hmem
  cases outcome with
  | corrects => exact callKept_browserCalls call hmem
  | waitsForPeers =>
      rcases List.mem_append.mp hmem with hbrowser | hmain
      · exact callKept_browserCalls call hbrowser
      · exact callKept_mainCalls call hmain
  | closes =>
      rcases List.mem_append.mp hmem with hfirst | hlast
      · rcases List.mem_append.mp hfirst with hbrowser | hmain
        · exact callKept_browserCalls call hbrowser
        · exact callKept_mainCalls call hmain
      · exact callKept_lastCalls call hlast

/-- The provider that is shown is the current one. -/
theorem outcome_reopened_ne :
    ((DlgSettings.new env m visible).1.btnOkReleased lib env (profileAsked env m)).outcome ≠
      .waitsForPeers := by
  rw [DlgSettings.btnOkReleased]
  split
  · exact fun h => Outcome.noConfusion h
  · rw [DlgSettings.entriesTaken]
    split
    · rename_i hchanged
      rw [currentProvider_mainCalls, currentProvider_browserCalls, currentProvider_profileAsked] at hchanged
      exact absurd provider_reopened.symm hchanged.1
    · exact fun h => Outcome.noConfusion h

theorem chromeProfile_mem_savedFields (provider : Peer.Provider) (outcome : Outcome) :
    .str .defaultChromeProfile ∈ savedFields provider outcome := by
  cases outcome <;> simp [savedFields, browserFields]

/-- The members that opening the dialog and pressing OK may set. -/
def reopenedFields (provider : Peer.Provider) (outcome : Outcome) : List Field :=
  .str .defaultFirefoxProfile :: savedFields provider outcome

/-- Opening the dialog and pressing OK does not ask to turn off the running peers. It leaves a member alone
if and only if it does not get so far as to set it, or the member is shown and saved as it is. -/
theorem val_reopened_iff (lib : QtLibrary) (env : Surroundings) (visible : LineEdit → Bool)
    (m : CSettingsManager) :
    let opened := DlgSettings.new env m visible
    let pressed := opened.1.btnOkReleased lib env opened.2
    pressed.outcome ≠ .waitsForPeers ∧
      ∀ field, pressed.settings.val field = m.val field ↔
        (field ∈ reopenedFields (currentProvider env.os m) pressed.outcome → ShownAndKept lib env m field) := by
  intro opened pressed
  refine ⟨outcome_reopened_ne, fun field => ?_⟩
  obtain ⟨hset, hleft⟩ := val_btnOkReleased lib env opened.1 (profileAsked env m)
  rw [currentProvider_profileAsked] at hset hleft
  by_cases hsaved : field ∈ savedFields (currentProvider env.os m) pressed.outcome
  · rw [reopenedFields, imp_iff_right (List.mem_cons_of_mem _ hsaved)]
    have hcalled := hsaved
    rw [← DlgSettings.fields_savedCalls env opened.1, List.mem_flatMap] at hcalled
    obtain ⟨call, hcall, hfield⟩ := hcalled
    exact (iff_of_eq (congrArg (· = _) (hset call hcall field hfield))).trans
      (callKept_savedCalls pressed.outcome call hcall field hfield)
  · have hkept : pressed.settings.val field = (profileAsked env m).val field := hleft field hsaved
    rw [hkept]
    by_cases hfirefox : field = .str .defaultFirefoxProfile
    · rw [hfirefox, reopenedFields, imp_iff_right List.mem_cons_self]
      exact firefoxProfile_profileAsked_iff
    · have hchrome : field ≠ .str .defaultChromeProfile := by
        rintro rfl
        exact hsaved (chromeProfile_mem_savedFields _ _)
      refine iff_of_true (val_profileAsked_of_notMem ?_) fun hmem => ?_
      · rw [List.mem_pair, not_or]
        exact ⟨hchrome, hfirefox⟩
      · exact absurd ((List.mem_cons.mp hmem).resolve_left hfirefox) hsaved

end

end SubutaiTray.Settings
