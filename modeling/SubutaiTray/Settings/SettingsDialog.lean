import SubutaiTray.Library.Sweeping
import SubutaiTray.Peer.ConfigFile
import SubutaiTray.Settings.SettingCalls
import SubutaiTray.Updater.Operations

/-!
The settings dialog (`DlgSettings`): what it shows, and what pressing OK saves.

The setters are called in three groups. The user may go back after the first one because of wrong
entries, and running peers stop the dialog before the last one, so what is saved depends on how far
the press gets. Beside a wrong entry there is a label (`isSome_errorLabels_iff`).
-/
namespace SubutaiTray.Settings

inductive LineEdit where
  | p2pCommand
  | hypervisorCommand
  | vagrantCommand
  | sshCommand
  | scpCommand
  | x2goclientCommand
  | sshUser
  | rhipHost
  | rhipPassword
  | rhipPort
  | rhipUser
  | logsStorage
  | sshKeysStorage
  | sshKeygenCommand
  | terminalCmd
  | terminalArg
  | vmStorage
  deriving DecidableEq

inductive CheckBox where
  | p2pAutoupdate
  | trayAutoupdate
  | useAnimations
  | autostart
  deriving DecidableEq

/-- The combo boxes that are read by their index. -/
inductive IndexBox where
  | p2pFrequency
  | trayFrequency
  | preferredNotificationsPlace
  | notificationLevel
  | logLevel
  | traySkin
  | locale
  deriving DecidableEq

/-- How many items it is filled with. -/
def IndexBox.count : IndexBox → Nat
  | .p2pFrequency | .trayFrequency => 11
  | .preferredNotificationsPlace | .notificationLevel => 4
  | .logLevel => 6
  | .traySkin | .locale => 3

/-- `browser` and `profile` are the texts of their boxes, `provider` is the data of its. -/
structure DlgSettings where
  text : LineEdit → QString
  visible : LineEdit → Bool
  checked : CheckBox → Bool
  index : IndexBox → Int
  refreshTimeout : Int
  notificationDelay : Int
  browser : QString
  profile : QString
  provider : Peer.Provider

inductive Check where
  | leEmptyValidate
  | pathValid
  | folderHasWritePermission
  | canLaunchApplication
  | canLaunchTerminal
  deriving DecidableEq

structure FieldValidator where
  fc : LineEdit
  validator : Check
  tabIndex : Nat
  validatorMsg : QString

/-- What the press finds around it, and what the user answers. -/
structure Surroundings where
  os : Updater.OS
  machine : Machine
  /-- The names under which the profiles of Chrome are shown. -/
  chromeNames : List QString
  supportedBrowsers : List QString
  homeFolder : QString
  virtualboxVmStorage : QString
  passes : Check → QString → Bool
  correctsWrong : Bool
  takesRecommended : Bool
  /-- The directories of the peers that are running. -/
  peersRunning : List QString
  turnsOff : Bool

/-! ## Providers -/

def providerNumber : Peer.Provider → UInt32
  | .virtualbox => 0
  | .vmwareDesktop => 1
  | .hyperv => 2
  | .parallels => 3
  | .libvirt => 4

/-- `VagrantProvider::List` -/
def providerList : Updater.OS → List Peer.Provider
  | .linux => [.virtualbox, .libvirt, .vmwareDesktop]
  | .mac => [.virtualbox, .parallels, .vmwareDesktop]
  | .windows => [.virtualbox, .hyperv, .vmwareDesktop]

/-- A provider that is not one of the system is taken for VirtualBox. -/
def currentProvider (os : Updater.OS) (m : CSettingsManager) : Peer.Provider :=
  ((providerList os).find? fun provider => providerNumber provider = m.val (.uint .vagrantProvider)).getD
    .virtualbox

/-- The setting of the place where the provider keeps its machines. VirtualBox keeps it itself. -/
def storageSetting : Peer.Provider → Option TextSetting
  | .virtualbox => none
  | .vmwareDesktop => some .vmwareVmStorage
  | .hyperv => some .hypervVmStorage
  | .parallels => some .parallelsVmStorage
  | .libvirt => some .kvmVmStorage

/-- `set_hypervisor_path` and `current_hypervisor_path`: Hyper-V has the setting of VirtualBox. -/
def hypervisorSetting : Peer.Provider → LinkSetting
  | .virtualbox | .hyperv => .oracleVirtualboxPath
  | .vmwareDesktop => .vmwarePath
  | .parallels => .parallelsPath
  | .libvirt => .kvmPath

/-! ## The constructor -/

/-- `QComboBox::setCurrentIndex`, with an `uint32_t` that becomes an `int`. -/
def setCurrentIndex (count : Nat) (value : UInt32) : Int :=
  if 0 ≤ value.toInt32.toInt ∧ value.toInt32.toInt < count then value.toInt32.toInt else -1

/-- `QSpinBox::setValue` -/
def setSpinValue (minimum maximum : Int) (value : UInt32) : Int :=
  max minimum (min maximum value.toInt32.toInt)

/-- The item that a loop over the list makes current: the last one that is wanted, or else the first
one, which is current since it was put in. -/
def currentItem (items : List (QString × QString)) (wanted : QString) : QString :=
  match (items.filter fun item => item.1 = wanted).getLast? with
  | some item => item.2
  | none => (items.head?.map Prod.snd).getD []

section
variable (env : Surroundings) (m : CSettingsManager)

def chromeProfiles : List (QString × QString) := env.machine.chromeProfiles.zip env.chromeNames

def isBrowser (m : CSettingsManager) (browser : String) : Prop :=
  m.val (.str .defaultBrowser) = browser.toList

instance (browser : String) : Decidable (isBrowser m browser) := inferInstanceAs (Decidable (_ = _))

/-- The profile of the browser is asked for, and replaced when there is no such profile. -/
def profileAsked : CSettingsManager :=
  if isBrowser m "Chrome" then m.defaultChromeProfile env.machine
  else if isBrowser m "Firefox" then m.defaultFirefoxProfile env.machine
  else m

def shownBrowser : QString :=
  currentItem (env.supportedBrowsers.map fun browser => (browser, browser)) (m.val (.str .defaultBrowser))

def shownProfile : QString :=
  let asked := profileAsked env m
  if isBrowser m "Chrome" then
    currentItem (chromeProfiles env) (asked.val (.str .defaultChromeProfile))
  else if isBrowser m "Firefox" then
    currentItem (env.machine.firefoxProfiles.map fun profile => (profile, profile))
      (asked.val (.str .defaultFirefoxProfile))
  else []

def shownVmStorage : QString :=
  match storageSetting (currentProvider env.os m) with
  | none => env.virtualboxVmStorage
  | some setting => m.val (.str setting.row.1)

def shownText : LineEdit → QString
  | .p2pCommand => m.val (.str .p2pPath)
  | .hypervisorCommand => m.val (.str (hypervisorSetting (currentProvider env.os m)).row.1)
  | .vagrantCommand => m.val (.str .vagrantPath)
  | .sshCommand => m.val (.str .sshPath)
  | .scpCommand => m.val (.str .scpPath)
  | .x2goclientCommand => m.val (.str .x2goclient)
  | .sshUser => m.val (.str .sshUser)
  | .rhipHost => m.val (.str .rhHost)
  | .rhipPassword => m.val (.str .rhPass)
  | .rhipPort => arg "%1".toList (number (m.val (.port .rhPort)).toNat)
  | .rhipUser => m.val (.str .rhUser)
  | .logsStorage => m.val (.str .logsStorage)
  | .sshKeysStorage => m.val (.str .sshKeysStorage)
  | .sshKeygenCommand => m.val (.str .sshKeygenCmd)
  | .terminalCmd => m.val (.str .terminalCmd)
  | .terminalArg => m.val (.str .terminalArg)
  | .vmStorage => shownVmStorage env m

def shownCheck : CheckBox → Bool
  | .p2pAutoupdate => m.val (.bool .p2pAutoupdate)
  | .trayAutoupdate => m.val (.bool .trayAutoupdate)
  | .useAnimations => m.val (.bool .useAnimations)
  | .autostart => m.val (.bool .autostart)

/-- The member that the box shows. -/
def IndexBox.field : IndexBox → UIntField
  | .p2pFrequency => .p2pUpdateFreq
  | .trayFrequency => .trayUpdateFreq
  | .preferredNotificationsPlace => .preferredNotificationsPlace
  | .notificationLevel => .notificationsLevel
  | .logLevel => .logsLevel
  | .traySkin => .traySkin
  | .locale => .locale

/-- The dialog when it is opened, and what that makes of the settings. Which lines can be seen depends on
the tab that is shown. -/
def DlgSettings.new (visible : LineEdit → Bool) : DlgSettings × CSettingsManager :=
  ({  text := shownText env m
      visible := visible
      checked := shownCheck m
      index := fun box => setCurrentIndex box.count (m.val (.uint box.field))
      refreshTimeout := setSpinValue 10 600 (m.val (.uint .refreshTimeSec))
      notificationDelay := setSpinValue notificationDelayMin.toNat notificationDelayMax.toNat
        (m.val (.uint .notificationDelaySec))
      browser := shownBrowser env m
      profile := shownProfile env m
      provider := currentProvider env.os m },
    profileAsked env m)

end

/-! ## Pressing OK -/

def expandHome (homeFolder : QString) : QString → QString
  | '~' :: txt => homeFolder ++ txt
  | txt => txt

/-- The lines that may begin with a tilde. -/
def homeLines : List LineEdit :=
  [.logsStorage, .sshKeysStorage, .vmStorage, .p2pCommand, .sshCommand, .vagrantCommand, .scpCommand]

def emptyValidatorMsg : QString := "Field cannot be empty".toList

def folderPermissionValidatorMsg : QString := "Administrative rights are needed to open the folder".toList

def pathInvalidValidatorMsg : QString := "Invalid path".toList

def canLaunchApplicationMsg : QString := "Cannot launch application".toList

def emptyValidator (tabIndex : Nat) (fc : LineEdit) : FieldValidator :=
  ⟨fc, .leEmptyValidate, tabIndex, emptyValidatorMsg⟩

/-- The three rows of a folder. -/
def folderValidators (fc : LineEdit) : List FieldValidator :=
  [emptyValidator 0 fc, ⟨fc, .pathValid, 0, pathInvalidValidatorMsg⟩,
    ⟨fc, .folderHasWritePermission, 0, folderPermissionValidatorMsg⟩]

/-- The two rows of a command. -/
def commandValidators (launch : Check) (fc : LineEdit) : List FieldValidator :=
  [emptyValidator 1 fc, ⟨fc, launch, 1, canLaunchApplicationMsg⟩]

def leValidators : List FieldValidator :=
  [emptyValidator 0 .sshUser] ++ folderValidators .sshKeysStorage ++ folderValidators .vmStorage ++
    folderValidators .logsStorage ++ commandValidators .canLaunchApplication .p2pCommand ++
    commandValidators .canLaunchApplication .vagrantCommand ++
    commandValidators .canLaunchApplication .scpCommand ++
    commandValidators .canLaunchApplication .hypervisorCommand ++
    commandValidators .canLaunchApplication .sshCommand ++
    commandValidators .canLaunchTerminal .x2goclientCommand ++
    commandValidators .canLaunchTerminal .terminalCmd ++ [emptyValidator 1 .terminalArg] ++
    commandValidators .canLaunchApplication .sshKeygenCommand ++
    [emptyValidator 2 .rhipHost, emptyValidator 2 .rhipPassword, emptyValidator 2 .rhipPort,
      emptyValidator 2 .rhipUser]

def Check.holds (env : Surroundings) : Check → QString → Bool
  | .leEmptyValidate, text => Peer.trimmed text ≠ []
  | check, text => env.passes check text

/-- `QString::toUInt` -/
def textToUInt (text : QString) : Nat :=
  let digits :=
    match Peer.trimmed text with
    | '+' :: digits => digits
    | digits => digits
  if digits ≠ [] ∧ digits.all Char.isDigit ∧ decimal digits < 2 ^ 32 then decimal digits else 0

/-- A shown profile that Chrome does not have becomes the first one. -/
def chosenChromeProfile (env : Surroundings) (profileName : QString) : QString :=
  match env.machine.chromeProfiles with
  | [] => "Default".toList
  | first :: _ =>
      (((chromeProfiles env).find? fun profile => profile.2 = profileName).map Prod.fst).getD first

namespace DlgSettings

section
variable (env : Surroundings) (dlg : DlgSettings)

def homeExpanded : DlgSettings :=
  { dlg with
    text := fun le =>
      if le ∈ homeLines then expandHome env.homeFolder (dlg.text le) else dlg.text le }

def failedValidators : List FieldValidator :=
  leValidators.filter fun row => dlg.visible row.fc && !row.validator.holds env (dlg.text row.fc)

/-- The texts of the labels that are shown: all of the table are hidden before. -/
def errorLabels (failed : List FieldValidator) : LineEdit → Option QString :=
  failed.foldl (fun labels row => Function.update labels row.fc (some row.validatorMsg)) fun _ => none

def argRecommended : DlgSettings :=
  match env.machine.recommendedTerminalArg (dlg.text .terminalCmd) with
  | none => dlg
  | some recommended =>
      if recommended ≠ dlg.text .terminalArg ∧ env.takesRecommended = true then
        { dlg with text := Function.update dlg.text .terminalArg recommended }
      else dlg

/-- Saved before anything is checked. -/
def browserCalls : List SettingCall :=
  [.defaultBrowser dlg.browser, .text .defaultChromeProfile (chosenChromeProfile env dlg.profile)]

/-- Saved when the entries are right or to be saved anyway. -/
def mainCalls (provider : Peer.Provider) : List SettingCall :=
  ((storageSetting provider).map fun setting => .text setting (dlg.text .vmStorage)).toList ++
    [.text .vmStorage (dlg.text .vmStorage), .text .sshUser (dlg.text .sshUser),
      .text .logsStorage (dlg.text .logsStorage), .text .sshKeysStorage (dlg.text .sshKeysStorage),
      .link .p2pPath (dlg.text .p2pCommand), .link .vagrantPath (dlg.text .vagrantCommand),
      .link .x2goclientPath (dlg.text .x2goclientCommand), .text .sshPath (dlg.text .sshCommand),
      .text .scpPath (dlg.text .scpCommand),
      .link (hypervisorSetting provider) (dlg.text .hypervisorCommand),
      .text .rhHost (dlg.text .rhipHost), .text .rhPass (dlg.text .rhipPassword),
      .port .rhPort (UInt16.ofNat (textToUInt (dlg.text .rhipPort))), .text .rhUser (dlg.text .rhipUser),
      .number .refreshTimeSec (UInt32.ofInt dlg.refreshTimeout),
      .notificationDelaySec (UInt32.ofInt dlg.notificationDelay),
      .flag .p2pAutoupdate (dlg.checked .p2pAutoupdate),
      .flag .trayAutoupdate (dlg.checked .trayAutoupdate),
      .freq .p2pUpdateFreq (dlg.index .p2pFrequency), .freq .trayUpdateFreq (dlg.index .trayFrequency),
      .number .preferredNotificationsPlace (UInt32.ofInt (dlg.index .preferredNotificationsPlace)),
      .number .notificationsLevel (UInt32.ofInt (dlg.index .notificationLevel)),
      .logsLevel (dlg.index .logLevel), .number .traySkin (UInt32.ofInt (dlg.index .traySkin)),
      .locale (dlg.index .locale)]

/-- Saved when no peer is in the way of the provider. -/
def lastCalls : List SettingCall :=
  [.vagrantProvider (providerNumber dlg.provider).toNat, .text .terminalCmd (dlg.text .terminalCmd),
    .text .terminalArg (dlg.text .terminalArg), .flag .useAnimations (dlg.checked .useAnimations),
    .text .sshKeygenCmd (dlg.text .sshKeygenCommand), .autostart (dlg.checked .autostart)]

end

end DlgSettings

/-- How far the press gets. -/
inductive Outcome where
  | corrects
  | waitsForPeers
  | closes
  deriving DecidableEq

/-- `storage` is what VirtualBox is told to keep its machines in, `halted` are the peers turned off. -/
structure Pressed where
  settings : CSettingsManager
  dialog : DlgSettings
  labels : LineEdit → Option QString
  outcome : Outcome
  storage : Option QString
  halted : List QString

section
variable (lib : QtLibrary) (env : Surroundings)

def CSettingsManager.called (m : CSettingsManager) (calls : List SettingCall) : CSettingsManager :=
  calls.foldl (SettingCall.run lib env.machine) m

/-- The rest of `btn_ok_released`, when the entries are taken. -/
def DlgSettings.entriesTaken (dlg : DlgSettings) (labels : LineEdit → Option QString) (m : CSettingsManager) :
    Pressed :=
  let dlg := dlg.argRecommended env
  let provider := currentProvider env.os m
  let storage := if storageSetting provider = none then some (dlg.text .vmStorage) else none
  let m := m.called lib env (dlg.mainCalls provider)
  if currentProvider env.os m ≠ dlg.provider ∧ env.peersRunning ≠ [] then
    { settings := m
      dialog := if env.turnsOff then dlg else { dlg with provider := currentProvider env.os m }
      labels, outcome := .waitsForPeers, storage
      halted := if env.turnsOff then env.peersRunning else [] }
  else
    { settings := m.called lib env dlg.lastCalls
      dialog := dlg, labels, outcome := .closes, storage, halted := [] }

def DlgSettings.btnOkReleased (dlg : DlgSettings) (m : CSettingsManager) : Pressed :=
  let m := m.called lib env (dlg.browserCalls env)
  let dlg := dlg.homeExpanded env
  let failed := dlg.failedValidators env
  let labels := DlgSettings.errorLabels failed
  if failed ≠ [] ∧ env.correctsWrong = true then
    { settings := m, dialog := dlg, labels, outcome := .corrects, storage := none, halted := [] }
  else dlg.entriesTaken lib env labels m

end

/-! ## What is saved -/

def browserFields : List Field := [.str .defaultBrowser, .str .defaultChromeProfile]

def mainFields (provider : Peer.Provider) : List Field :=
  ((storageSetting provider).map fun setting => .str setting.row.1).toList ++
    [.str .vmStorage, .str .sshUser, .str .logsStorage, .str .sshKeysStorage, .str .p2pPath,
      .str .vagrantPath, .str .x2goclient, .str .sshPath, .str .scpPath,
      .str (hypervisorSetting provider).row.1, .str .rhHost, .str .rhPass, .port .rhPort, .str .rhUser,
      .uint .refreshTimeSec, .uint .notificationDelaySec, .bool .p2pAutoupdate, .bool .trayAutoupdate,
      .uint .p2pUpdateFreq, .uint .trayUpdateFreq, .uint .preferredNotificationsPlace,
      .uint .notificationsLevel, .uint .logsLevel, .uint .traySkin, .uint .locale]

def lastFields : List Field :=
  [.uint .vagrantProvider, .str .terminalCmd, .str .terminalArg, .bool .useAnimations, .str .sshKeygenCmd,
    .bool .autostart]

/-- The members of the dialog that are saved when the press gets so far. -/
def savedFields (provider : Peer.Provider) : Outcome → List Field
  | .corrects => browserFields
  | .waitsForPeers => browserFields ++ mainFields provider
  | .closes => browserFields ++ mainFields provider ++ lastFields

namespace DlgSettings

variable (env : Surroundings) (dlg : DlgSettings)

/-- The entries that are taken. -/
def entries : DlgSettings := (dlg.homeExpanded env).argRecommended env

def savedCalls (provider : Peer.Provider) : Outcome → List SettingCall
  | .corrects => dlg.browserCalls env
  | .waitsForPeers => dlg.browserCalls env ++ (dlg.entries env).mainCalls provider
  | .closes => dlg.browserCalls env ++ (dlg.entries env).mainCalls provider ++ (dlg.entries env).lastCalls

theorem fields_mainCalls (provider : Peer.Provider) :
    (dlg.mainCalls provider).flatMap SettingCall.fields = mainFields provider := by
  cases provider <;> rfl

theorem fields_savedCalls (provider : Peer.Provider) (outcome : Outcome) :
    (dlg.savedCalls env provider outcome).flatMap SettingCall.fields = savedFields provider outcome := by
  have hmain := fields_mainCalls (dlg.entries env) provider
  cases outcome with
  | corrects => rfl
  | waitsForPeers =>
      rw [savedCalls, List.flatMap_append, hmain]
      rfl
  | closes =>
      rw [savedCalls, List.flatMap_append, List.flatMap_append, hmain]
      rfl

end DlgSettings

/-- No setting of the dialog is saved twice. -/
theorem nodup_savedFields (provider : Peer.Provider) (outcome : Outcome) :
    (savedFields provider outcome).Nodup := by
  cases provider <;> cases outcome <;> decide

section
variable {lib : QtLibrary} {env : Surroundings}

theorem val_called_of_notMem {calls : List SettingCall} {field : Field}
    (h : field ∉ calls.flatMap SettingCall.fields) (m : CSettingsManager) :
    (m.called lib env calls).val field = m.val field :=
  (SettingCall.local_run lib env.machine).foldl_of_notMem h m

theorem called_append (calls calls' : List SettingCall) (m : CSettingsManager) :
    m.called lib env (calls ++ calls') = (m.called lib env calls).called lib env calls' :=
  List.foldl_append

/-- The provider is read again and again, and is always the same until it is saved. -/
theorem currentProvider_called {calls : List SettingCall}
    (h : .uint .vagrantProvider ∉ calls.flatMap SettingCall.fields) (os : Updater.OS) (m : CSettingsManager) :
    currentProvider os (m.called lib env calls) = currentProvider os m := by
  rw [currentProvider, val_called_of_notMem h, currentProvider]

theorem currentProvider_browserCalls (dlg : DlgSettings) (os : Updater.OS) (m : CSettingsManager) :
    currentProvider os (m.called lib env (dlg.browserCalls env)) = currentProvider os m := by
  have hnotMem : .uint .vagrantProvider ∉ browserFields := by decide
  exact @currentProvider_called lib env (dlg.browserCalls env) hnotMem os m

theorem currentProvider_mainCalls (dlg : DlgSettings) (provider : Peer.Provider) (os : Updater.OS)
    (m : CSettingsManager) :
    currentProvider os (m.called lib env (dlg.mainCalls provider)) = currentProvider os m := by
  apply currentProvider_called
  rw [DlgSettings.fields_mainCalls]
  cases provider <;> decide

theorem settings_btnOkReleased (dlg : DlgSettings) (m : CSettingsManager) :
    (dlg.btnOkReleased lib env m).settings =
      m.called lib env
        (dlg.savedCalls env (currentProvider env.os m) (dlg.btnOkReleased lib env m).outcome) := by
  rw [DlgSettings.btnOkReleased]
  split
  · rfl
  · rw [DlgSettings.entriesTaken, currentProvider_browserCalls]
    split
    · exact (called_append _ _ m).symm
    · rw [DlgSettings.savedCalls, called_append, called_append]
      rfl

/-- Whatever is entered and however far the press gets: each member that is saved is what its own setter
alone would make of its entry, and every other member is left as it was. -/
theorem val_btnOkReleased (lib : QtLibrary) (env : Surroundings) (dlg : DlgSettings) (m : CSettingsManager) :
    let pressed := dlg.btnOkReleased lib env m
    let provider := currentProvider env.os m
    (∀ call ∈ dlg.savedCalls env provider pressed.outcome, ∀ field ∈ call.fields,
        pressed.settings.val field = (call.run lib env.machine m).val field) ∧
      ∀ field ∉ savedFields provider pressed.outcome, pressed.settings.val field = m.val field := by
  intro pressed provider
  have hsettings : pressed.settings = _ := settings_btnOkReleased dlg m
  have hfields := dlg.fields_savedCalls env provider pressed.outcome
  refine ⟨?_, ?_⟩
  · intro call hmem field hfield
    rw [hsettings]
    apply (SettingCall.local_run lib env.machine).foldl_eq_alone _ hmem hfield
    rw [hfields]
    exact nodup_savedFields provider pressed.outcome
  · intro field hfield
    rw [hsettings]
    apply val_called_of_notMem
    rwa [hfields]

end

/-! ## Labels -/

theorem errorLabels_eq (failed : List FieldValidator) (le : LineEdit) :
    DlgSettings.errorLabels failed le =
      Sweeping.lastReport (failed.map fun row => (row.fc, row.validatorMsg)) le := by
  induction failed using List.reverseRecOn with
  | nil => rfl
  | append_singleton failed row ih =>
      rw [List.map_append, List.map_singleton, Sweeping.lastReport_concat, ← ih, DlgSettings.errorLabels,
        List.foldl_append, List.foldl_cons, List.foldl_nil, Function.update_apply]
      rfl

/-- A label is shown beside just the lines that can be seen and fail a check; it has the text of the last
check that fails. -/
theorem isSome_errorLabels_iff (env : Surroundings) (dlg : DlgSettings) (le : LineEdit) :
    (DlgSettings.errorLabels (dlg.failedValidators env) le).isSome = true ↔
      dlg.visible le = true ∧
        ∃ row ∈ leValidators, row.fc = le ∧ row.validator.holds env (dlg.text le) = false := by
  rw [errorLabels_eq, Sweeping.lastReport_isSome_iff, List.map_map, List.mem_map]
  constructor
  · rintro ⟨row, hrow, rfl⟩
    rw [DlgSettings.failedValidators, List.mem_filter, Bool.and_eq_true, Bool.not_eq_true'] at hrow
    exact ⟨hrow.2.1, row, hrow.1, rfl, hrow.2.2⟩
  · rintro ⟨hvisible, row, hrow, rfl, hfails⟩
    refine ⟨row, ?_, rfl⟩
    rw [DlgSettings.failedValidators, List.mem_filter, Bool.and_eq_true, Bool.not_eq_true']
    exact ⟨hrow, hvisible, hfails⟩

end SubutaiTray.Settings
