import SubutaiTray.Library.Tables
import SubutaiTray.Qt.PlaceMarkers
import SubutaiTray.Qt.StdMap
import SubutaiTray.Qt.Variant
import SubutaiTray.Settings.Password

/-!
The settings manager (`CSettingsManager`): its members, the setters, which save one
member each, and the constructor, which loads most members by a table and some by
code of their own.

The members are one record over an enumeration of fields. What the constructor asks
of the machine it runs on is a parameter that may differ from one call to the next.
-/
namespace SubutaiTray.Settings

inductive StrField where
  | login
  | branch
  | passwordStr
  | p2pPath
  | vagrantPath
  | oracleVirtualboxPath
  | parallelsPath
  | vmwarePath
  | kvmPath
  | xquartzPath
  | defaultBrowser
  | defaultChromeProfile
  | defaultFirefoxProfile
  | sshPath
  | scpPath
  | sshUser
  | rhHost
  | rhUser
  | rhPass
  | peerPass
  | peerFinger
  | logsStorage
  | sshKeysStorage
  | peersStorage
  | vmwareVmStorage
  | kvmVmStorage
  | hypervVmStorage
  | parallelsVmStorage
  | vmStorage
  | trayGuid
  | terminalCmd
  | x2goclient
  | terminalArg
  | sshKeygenCmd
  | chromePath
  | firefoxPath
  | subutaiCmd
  deriving DecidableEq

inductive BoolField where
  | rememberMe
  | p2pAutoupdate
  | trayAutoupdate
  | useAnimations
  | autostart
  deriving DecidableEq

inductive UIntField where
  | refreshTimeSec
  | notificationDelaySec
  | p2pUpdateFreq
  | trayUpdateFreq
  | notificationsLevel
  | logsLevel
  | vagrantProvider
  | traySkin
  | locale
  | preferredNotificationsPlace
  deriving DecidableEq

/-- The members of 16 bits. -/
inductive PortField where
  | rhPort
  | pluginPort
  deriving DecidableEq

inductive Field where
  | str (field : StrField)
  | bool (field : BoolField)
  | uint (field : UIntField)
  | port (field : PortField)
  | password
  | dctNotificationIgnore
  deriving DecidableEq

abbrev Field.Val : Field → Type
  | .str _ => QString
  | .bool _ => Bool
  | .uint _ => UInt32
  | .port _ => UInt16
  | .password => QByteArray
  | .dctNotificationIgnore => QVariantMap

/-- The settings that are kept by the id of a resource host or the name of a peer. -/
inductive IdSetting where
  | rhUser
  | rhPass
  | rhHost
  | peerPass
  | peerFinger
  deriving DecidableEq

structure CSettingsManager where
  settings : QSettings
  val : (field : Field) → field.Val
  texts : IdSetting → StdMap QString
  rhPorts : StdMap UInt16

/-- What is taken from Qt. -/
structure QtLibrary where
  conversions : VariantConversions
  reader : TextReader
  sha1 : Sha1
  /-- `QUuid(text).data4` -/
  guidKey : QString → GuidKey
  toLower : QString → QString
  toUpper : Char → Char

/-- The machine at the time of a call. -/
structure Machine where
  /-- The platform's default for a member that has one. -/
  defaults : StrField → QString
  which : QString → Option QString
  isSymLink : QString → Bool
  /-- Empty when the file is no link. -/
  symLinkTarget : QString → QString
  isApplicationLaunchable : QString → Bool
  defaultTerminals : List QString
  recommendedTerminalArg : QString → Option QString
  chromeProfiles : List QString
  firefoxProfiles : List QString
  /-- Whether `set_application_autostart` succeeds. -/
  setApplicationAutostart : Bool → Bool
  /-- What `application_autostart` says behind it. -/
  applicationAutostart : Bool → Bool
  uuid : QString
  uuid_ne_nil : uuid ≠ []
  randomByte : UInt8

/-! ## Keys -/

def smAppBranch : QString := "APP_Branch".toList
def smLogin : QString := "Login".toList
def smPassword : QString := "Password".toList
def smRememberMe : QString := "Remember_Me".toList
def smRefreshTime : QString := "Refresh_Time_Sec".toList
def smP2pPath : QString := "P2P_Path".toList
def smX2goclientPath : QString := "X2GOCLIENT_Path".toList
def smVagrantPath : QString := "VAGRANT_Path".toList
def smOracleVirtualboxPath : QString := "ORACLE_VIRTUALBOX_Path".toList
def smParallelsPath : QString := "PARALLELS_Path".toList
def smVmwarePath : QString := "VMWARE_Path".toList
def smKvmPath : QString := "KVM_Path".toList
def smXquartzPath : QString := "XQUARTZ_Path".toList
def smDefaultBrowser : QString := "Default_Browser".toList
def smDefaultChromeProfile : QString := "Default_Chrome_Profile".toList
def smDefaultFirefoxProfile : QString := "Default_Firefox_Profile".toList
def smNotificationDelaySec : QString := "Notification_Delay_Sec".toList
def smPluginPort : QString := "Plugin_Port".toList
def smSshPath : QString := "Ssh_Path".toList
def smScpPath : QString := "Scp_Path".toList
def smSshUser : QString := "Ssh_User".toList
def smRhUser : QString := "Rh_User_%1".toList
def smRhPass : QString := "Rh_Pass_%1".toList
def smRhHost : QString := "Rh_Host_%1".toList
def smRhPort : QString := "Rh_Port_%1".toList
def smPeerPass : QString := "Peer_Pass_%1".toList
def smPeerFinger : QString := "Peer_Finger_%1".toList
def smLogsStorage : QString := "Rh_Logs_Storage".toList
def smSshKeysStorage : QString := "Rh_Ssh_Keys_Storage".toList
def smPeersStorage : QString := "Rh_Peers_Storage".toList
def smVmwareVmStorage : QString := "VMware_Vm_Storage".toList
def smKvmVmStorage : QString := "KVM_Vm_Storage".toList
def smHypervVmStorage : QString := "Hyperv_Vm_Storage".toList
def smParallelsVmStorage : QString := "Parallels_Vm_Storage".toList
def smVmStorage : QString := "Vm_Storage".toList
def smTrayGuid : QString := "Tray_Guid".toList
def smP2pUpdateFreq : QString := "P2p_update_freq".toList
def smTrayUpdateFreq : QString := "Tray_update_freq".toList
def smP2pAutoupdate : QString := "P2p_Autoupdate".toList
def smTrayAutoupdate : QString := "Tray_Autoupdate".toList
def smLocale : QString := "Locale".toList
def smTerminalCmd : QString := "Terminal_Cmd".toList
def smTerminalArg : QString := "Terminal_Arg".toList
def smDctNotificationsIgnore : QString := "Dct_Notifications_Ignored".toList
def smNotificationsLevel : QString := "Notifications_Level".toList
def smLogsLevel : QString := "Logs_Level".toList
def smVagrantProvider : QString := "Provider".toList
def smUseAnimations : QString := "Use_Animations_On_Standard_Dialogs".toList
def smPreferredNotificationsPlace : QString := "Preffered_Notifications_Place".toList
def smTraySkin : QString := "Tray_Skin".toList
def smSshKeygenCmd : QString := "Ssh_Keygen_Cmd".toList
def smAutostart : QString := "Autostart".toList
def smChromePath : QString := "ChromePath".toList
def smFirefoxPath : QString := "FirefoxPath".toList
def smSubutaiCmd : QString := "SubutaiCmd".toList

def IdSetting.key : IdSetting → QString
  | .rhUser => smRhUser
  | .rhPass => smRhPass
  | .rhHost => smRhHost
  | .peerPass => smPeerPass
  | .peerFinger => smPeerFinger

/-! ## The table of the constructor -/

def strSettings : List (StrField × QString) :=
  [(.login, smLogin), (.p2pPath, smP2pPath), (.vagrantPath, smVagrantPath),
    (.oracleVirtualboxPath, smOracleVirtualboxPath), (.parallelsPath, smParallelsPath),
    (.vmwarePath, smVmwarePath), (.kvmPath, smKvmPath), (.x2goclient, smX2goclientPath),
    (.sshPath, smSshPath), (.scpPath, smScpPath), (.sshUser, smSshUser), (.rhHost, smRhHost),
    (.rhPass, smRhPass), (.rhUser, smRhUser), (.peerPass, smPeerPass),
    (.peerFinger, smPeerFinger), (.logsStorage, smLogsStorage),
    (.sshKeysStorage, smSshKeysStorage), (.peersStorage, smPeersStorage),
    (.vmwareVmStorage, smVmwareVmStorage), (.kvmVmStorage, smKvmVmStorage),
    (.hypervVmStorage, smHypervVmStorage), (.parallelsVmStorage, smParallelsVmStorage),
    (.vmStorage, smVmStorage), (.trayGuid, smTrayGuid), (.terminalCmd, smTerminalCmd),
    (.terminalArg, smTerminalArg), (.sshKeygenCmd, smSshKeygenCmd), (.chromePath, smChromePath),
    (.firefoxPath, smFirefoxPath), (.subutaiCmd, smSubutaiCmd),
    (.defaultBrowser, smDefaultBrowser), (.defaultChromeProfile, smDefaultChromeProfile),
    (.defaultFirefoxProfile, smDefaultFirefoxProfile)]

def boolSettings : List (BoolField × QString) :=
  [(.rememberMe, smRememberMe), (.p2pAutoupdate, smP2pAutoupdate),
    (.trayAutoupdate, smTrayAutoupdate), (.useAnimations, smUseAnimations),
    (.autostart, smAutostart)]

def uintSettings : List (UIntField × QString) :=
  [(.p2pUpdateFreq, smP2pUpdateFreq), (.trayUpdateFreq, smTrayUpdateFreq),
    (.notificationsLevel, smNotificationsLevel), (.logsLevel, smLogsLevel),
    (.vagrantProvider, smVagrantProvider), (.traySkin, smTraySkin),
    (.preferredNotificationsPlace, smPreferredNotificationsPlace), (.locale, smLocale)]

abbrev SettingVal := Tables.Row Field Field.Val QString QVariant

section
variable (conversions : VariantConversions)

def qvarToStr (var : QVariant) (old : QString) : QString :=
  if conversions.toString var ≠ [] then conversions.toString var else old

def qvarToInt (var : QVariant) : UInt32 := (conversions.toUInt var).getD 0

def strVal (setting : StrField × QString) : SettingVal :=
  ⟨.str setting.1, setting.2, qvarToStr conversions⟩

def boolVal (setting : BoolField × QString) : SettingVal :=
  ⟨.bool setting.1, setting.2, fun var _ => conversions.toBool var⟩

def uintVal (setting : UIntField × QString) : SettingVal :=
  ⟨.uint setting.1, setting.2, fun var _ => qvarToInt conversions var⟩

/-- The port is read like the numbers; the upper half goes into the padding behind it. -/
def rhPortVal : SettingVal :=
  ⟨.port .rhPort, smRhPort, fun var _ => (qvarToInt conversions var).toUInt16⟩

def passwordVal : SettingVal :=
  ⟨.password, smPassword, fun var _ => conversions.toByteArray var⟩

def ignoreVal : SettingVal :=
  ⟨.dctNotificationIgnore, smDctNotificationsIgnore, fun var _ => conversions.toMap var⟩

def dctSettingsVals : List SettingVal :=
  strSettings.map (strVal conversions) ++ boolSettings.map (boolVal conversions) ++
    uintSettings.map (uintVal conversions) ++
    [rhPortVal conversions, passwordVal conversions, ignoreVal conversions]

end

def Machine.initialStr (machine : Machine) : StrField → QString
  | .login | .passwordStr | .trayGuid | .vmStorage => []
  | .xquartzPath => "/Applications/Utilities/XQuartz.app".toList
  | .sshUser => "root".toList
  | .rhHost => "127.0.0.1".toList
  | .rhUser => "subutai".toList
  | .rhPass => "ubuntai".toList
  | .peerPass => "secret".toList
  | .peerFinger => "undefined".toList
  | field => machine.defaults field

def initialBool : BoolField → Bool
  | .rememberMe | .p2pAutoupdate | .trayAutoupdate => false
  | .useAnimations | .autostart => true

def defaultRefreshTimeoutSec : UInt32 := 20
def ufLast : UInt32 := 11
def notificationDelayMin : UInt32 := 3
def notificationDelayMax : UInt32 := 300

/-- The enumerators among them are `UF_MIN30` and zeros. -/
def initialUInt : UIntField → UInt32
  | .refreshTimeSec => defaultRefreshTimeoutSec
  | .notificationDelaySec => 7
  | .p2pUpdateFreq | .trayUpdateFreq => 3
  | .notificationsLevel | .logsLevel | .vagrantProvider | .traySkin | .locale
  | .preferredNotificationsPlace => 0

def initialPort : PortField → UInt16
  | .rhPort => 4567
  | .pluginPort => 9998

def Machine.initial (machine : Machine) : (field : Field) → field.Val
  | .str field => machine.initialStr field
  | .bool field => initialBool field
  | .uint field => initialUInt field
  | .port field => initialPort field
  | .password => []
  | .dctNotificationIgnore => []

namespace CSettingsManager

def set (field : Field) (value : field.Val) (m : CSettingsManager) : CSettingsManager :=
  { m with val := Function.update m.val field value }

def save (key : QString) (var : QVariant) (m : CSettingsManager) : CSettingsManager :=
  { m with settings := m.settings.setValue key var }

/-- `SET_FIELD_DEF`: the member is set and saved. -/
def setFieldDef (field : Field) (key : QString) (var : field.Val → QVariant) (value : field.Val)
    (m : CSettingsManager) : CSettingsManager :=
  (m.set field value).save key (var value)

end CSettingsManager

/-! ## Setters -/

/-- The setters of the form `m_f = f; m_settings.setValue(fn, m_f);` for texts. -/
inductive TextSetting where
  | login
  | sshPath
  | scpPath
  | sshUser
  | rhUser
  | rhPass
  | rhHost
  | peerPass
  | peerFinger
  | logsStorage
  | sshKeysStorage
  | peersStorage
  | terminalCmd
  | terminalArg
  | sshKeygenCmd
  | chromePath
  | firefoxPath
  | xquartzPath
  | vmStorage
  | vmwareVmStorage
  | kvmVmStorage
  | hypervVmStorage
  | parallelsVmStorage
  | defaultChromeProfile
  | defaultFirefoxProfile
  deriving DecidableEq

def TextSetting.row : TextSetting → StrField × QString
  | .login => (.login, smLogin)
  | .sshPath => (.sshPath, smSshPath)
  | .scpPath => (.scpPath, smScpPath)
  | .sshUser => (.sshUser, smSshUser)
  | .rhUser => (.rhUser, smRhUser)
  | .rhPass => (.rhPass, smRhPass)
  | .rhHost => (.rhHost, smRhHost)
  | .peerPass => (.peerPass, smPeerPass)
  | .peerFinger => (.peerFinger, smPeerFinger)
  | .logsStorage => (.logsStorage, smLogsStorage)
  | .sshKeysStorage => (.sshKeysStorage, smSshKeysStorage)
  | .peersStorage => (.peersStorage, smPeersStorage)
  | .terminalCmd => (.terminalCmd, smTerminalCmd)
  | .terminalArg => (.terminalArg, smTerminalArg)
  | .sshKeygenCmd => (.sshKeygenCmd, smSshKeygenCmd)
  | .chromePath => (.chromePath, smChromePath)
  | .firefoxPath => (.firefoxPath, smFirefoxPath)
  | .xquartzPath => (.xquartzPath, smXquartzPath)
  | .vmStorage => (.vmStorage, smVmStorage)
  | .vmwareVmStorage => (.vmwareVmStorage, smVmwareVmStorage)
  | .kvmVmStorage => (.kvmVmStorage, smKvmVmStorage)
  | .hypervVmStorage => (.hypervVmStorage, smHypervVmStorage)
  | .parallelsVmStorage => (.parallelsVmStorage, smParallelsVmStorage)
  | .defaultChromeProfile => (.defaultChromeProfile, smDefaultChromeProfile)
  | .defaultFirefoxProfile => (.defaultFirefoxProfile, smDefaultFirefoxProfile)

/-- The setters of paths that replace a link by its target. -/
inductive LinkSetting where
  | p2pPath
  | vagrantPath
  | oracleVirtualboxPath
  | parallelsPath
  | vmwarePath
  | kvmPath
  | x2goclientPath
  deriving DecidableEq

def LinkSetting.row : LinkSetting → StrField × QString
  | .p2pPath => (.p2pPath, smP2pPath)
  | .vagrantPath => (.vagrantPath, smVagrantPath)
  | .oracleVirtualboxPath => (.oracleVirtualboxPath, smOracleVirtualboxPath)
  | .parallelsPath => (.parallelsPath, smParallelsPath)
  | .vmwarePath => (.vmwarePath, smVmwarePath)
  | .kvmPath => (.kvmPath, smKvmPath)
  | .x2goclientPath => (.x2goclient, smX2goclientPath)

inductive FlagSetting where
  | rememberMe
  | p2pAutoupdate
  | trayAutoupdate
  | useAnimations
  deriving DecidableEq

def FlagSetting.row : FlagSetting → BoolField × QString
  | .rememberMe => (.rememberMe, smRememberMe)
  | .p2pAutoupdate => (.p2pAutoupdate, smP2pAutoupdate)
  | .trayAutoupdate => (.trayAutoupdate, smTrayAutoupdate)
  | .useAnimations => (.useAnimations, smUseAnimations)

/-- `set_logs_level` and `set_vagrant_provider` take an `int` as well. -/
inductive NumberSetting where
  | refreshTimeSec
  | notificationsLevel
  | logsLevel
  | vagrantProvider
  | preferredNotificationsPlace
  | traySkin
  deriving DecidableEq

def NumberSetting.row : NumberSetting → UIntField × QString
  | .refreshTimeSec => (.refreshTimeSec, smRefreshTime)
  | .notificationsLevel => (.notificationsLevel, smNotificationsLevel)
  | .logsLevel => (.logsLevel, smLogsLevel)
  | .vagrantProvider => (.vagrantProvider, smVagrantProvider)
  | .preferredNotificationsPlace => (.preferredNotificationsPlace, smPreferredNotificationsPlace)
  | .traySkin => (.traySkin, smTraySkin)

inductive FreqSetting where
  | p2pUpdateFreq
  | trayUpdateFreq
  deriving DecidableEq

def FreqSetting.row : FreqSetting → UIntField × QString
  | .p2pUpdateFreq => (.p2pUpdateFreq, smP2pUpdateFreq)
  | .trayUpdateFreq => (.trayUpdateFreq, smTrayUpdateFreq)

def PortField.key : PortField → QString
  | .rhPort => smRhPort
  | .pluginPort => smPluginPort

/-- `fr.toLower()` with its first character in upper case; an empty text grows by the
assignment to that character. -/
def QtLibrary.capitalized (lib : QtLibrary) (s : QString) : QString :=
  match lib.toLower s with
  | [] => [lib.toUpper nul]
  | c :: s => lib.toUpper c :: s

def Machine.linkResolved (machine : Machine) (path : QString) : QString :=
  let sl := machine.symLinkTarget path
  if sl = [] then path else sl

def branches : List QString :=
  ["production".toList, "stage".toList, "development".toList]

def clampedDelay (delaySec : UInt32) : UInt32 :=
  if delaySec < notificationDelayMin then notificationDelayMin
  else if delaySec > notificationDelayMax then notificationDelayMax
  else delaySec

/-- `update_freq_t(fr) % UF_LAST` -/
def updateFreq (fr : Int) : UInt32 := UInt32.ofInt fr % ufLast

namespace CSettingsManager

def setText (setting : TextSetting) : QString → CSettingsManager → CSettingsManager :=
  setFieldDef (.str setting.row.1) setting.row.2 .string

def setLink (machine : Machine) (setting : LinkSetting) (path : QString) :
    CSettingsManager → CSettingsManager :=
  setFieldDef (.str setting.row.1) setting.row.2 .string (machine.linkResolved path)

def setFlag (setting : FlagSetting) : Bool → CSettingsManager → CSettingsManager :=
  setFieldDef (.bool setting.row.1) setting.row.2 .bool

def setNumber (setting : NumberSetting) : UInt32 → CSettingsManager → CSettingsManager :=
  setFieldDef (.uint setting.row.1) setting.row.2 .uint

def setFreq (setting : FreqSetting) (fr : Int) : CSettingsManager → CSettingsManager :=
  setFieldDef (.uint setting.row.1) setting.row.2 (fun freq => .int freq.toNat) (updateFreq fr)

def setPort (field : PortField) : UInt16 → CSettingsManager → CSettingsManager :=
  setFieldDef (.port field) field.key fun port => .int port.toNat

def setNotificationDelaySec (delaySec : UInt32) : CSettingsManager → CSettingsManager :=
  setFieldDef (.uint .notificationDelaySec) smNotificationDelaySec .uint (clampedDelay delaySec)

def setDefaultBrowser (lib : QtLibrary) (fr : QString) : CSettingsManager → CSettingsManager :=
  setFieldDef (.str .defaultBrowser) smDefaultBrowser .string (lib.capitalized fr)

def setLocale (locale : Int) (m : CSettingsManager) : CSettingsManager :=
  if m.val (.uint .locale) ≠ UInt32.ofInt locale then
    m.setFieldDef (.uint .locale) smLocale .uint (UInt32.ofInt locale)
  else m

def setBranch (branch : QString) (m : CSettingsManager) : CSettingsManager :=
  let m := if branch ∈ branches then m.set (.str .branch) branch else m
  m.save smAppBranch (.string (m.val (.str .branch)))

def setAutostart (machine : Machine) (autostart : Bool) (m : CSettingsManager) :
    CSettingsManager :=
  if m.val (.bool .autostart) = autostart then m
  else if machine.setApplicationAutostart autostart then
    m.setFieldDef (.bool .autostart) smAutostart .bool autostart
  else m

def setPassword (lib : QtLibrary) (machine : Machine) (password : QString)
    (m : CSettingsManager) : CSettingsManager :=
  let key := lib.guidKey (m.val (.str .trayGuid))
  m.setFieldDef .password smPassword .byteArray
    (storedPassword lib.sha1 key machine.randomByte password)

/-- `ignore_notification` and `not_ignore_notification` -/
def setIgnored (msg : QString) (ignored : Bool) (m : CSettingsManager) : CSettingsManager :=
  m.setFieldDef .dctNotificationIgnore smDctNotificationsIgnore .map
    ((m.val .dctNotificationIgnore).insert msg (.bool ignored))

def setById (setting : IdSetting) (id text : QString) (m : CSettingsManager) :
    CSettingsManager :=
  { m with texts := Function.update m.texts setting ((m.texts setting).insert id text) }.save
    (arg setting.key id) (.string text)

/-- `quint16(port)` is kept, the `qint16` is saved. -/
def setRhPortById (id : QString) (port : Int16) (m : CSettingsManager) : CSettingsManager :=
  { m with rhPorts := m.rhPorts.insert id port.toUInt16 }.save (arg smRhPort id) (.int port.toInt)

/-! ## Getters that do more than return a member -/

/-- A profile that is not in the list is replaced by the default one. -/
def installedProfile (machine : Machine) (setting : TextSetting) (profiles : List QString)
    (m : CSettingsManager) : CSettingsManager :=
  if m.val (.str setting.row.1) ∈ profiles then m
  else m.setText setting (machine.defaults setting.row.1)

def defaultChromeProfile (machine : Machine) : CSettingsManager → CSettingsManager :=
  installedProfile machine .defaultChromeProfile machine.chromeProfiles

def defaultFirefoxProfile (machine : Machine) : CSettingsManager → CSettingsManager :=
  installedProfile machine .defaultFirefoxProfile machine.firefoxProfiles

/-- `rh_user(id)` and the like, the value that is kept if it was not yet. -/
def textById (lib : QtLibrary) (setting : IdSetting) (id : QString) (m : CSettingsManager) :
    QString :=
  match (m.texts setting)[id]? with
  | some text => text
  | none =>
      match m.settings (arg setting.key id) with
      | none => []
      | some var => lib.conversions.toString var

def rhPortById (lib : QtLibrary) (id : QString) (m : CSettingsManager) : UInt16 :=
  match m.rhPorts[id]? with
  | some port => port
  | none =>
      match m.settings (arg smRhPort id) with
      | none => 0
      | some var => UInt16.ofInt (lib.conversions.toInt var)

def isNotificationIgnored (lib : QtLibrary) (msg : QString) (m : CSettingsManager) : Bool :=
  match (m.val .dctNotificationIgnore).find msg with
  | none => false
  | some var => lib.conversions.toBool var

/-! ## The constructor -/

section
variable (lib : QtLibrary) (machine : Machine)

def loadTable (m : CSettingsManager) : CSettingsManager :=
  { m with val := Tables.load m.settings (dctSettingsVals lib.conversions) m.val }

def loadRefreshTime (m : CSettingsManager) : CSettingsManager :=
  match m.settings smRefreshTime with
  | none => m
  | some var =>
      m.set (.uint .refreshTimeSec)
        ((lib.conversions.toUInt var).getD defaultRefreshTimeoutSec)

def loadNotificationDelay (m : CSettingsManager) : CSettingsManager :=
  match (m.settings smNotificationDelaySec).bind lib.conversions.toUInt with
  | none => m
  | some nd => m.setNotificationDelaySec nd

def loadBranch (m : CSettingsManager) : CSettingsManager :=
  let m :=
    match m.settings smAppBranch with
    | none => m
    | some var => m.setBranch (lib.conversions.toString var)
  m.save smAppBranch (.string (m.val (.str .branch)))

def makeTrayGuid (m : CSettingsManager) : CSettingsManager :=
  if m.val (.str .trayGuid) = [] then
    m.setFieldDef (.str .trayGuid) smTrayGuid .string machine.uuid
  else m

/-- The commands that are looked for, with the name each has in the path. -/
def cmdWhich : List (StrField × QString) :=
  [(.sshKeygenCmd, "ssh-keygen".toList), (.sshPath, "ssh".toList), (.p2pPath, "p2p".toList),
    (.x2goclient, "x2goclient".toList), (.vagrantPath, "vagrant".toList),
    (.scpPath, "scp".toList), (.oracleVirtualboxPath, "virtualbox".toList)]

def resolved (cmd name default : QString) : QString :=
  match (machine.which cmd).or ((machine.which name).or (machine.which default)) with
  | none => default
  | some path => if machine.isSymLink path then machine.symLinkTarget path else path

def resolveCommand (m : CSettingsManager) (command : StrField × QString) : CSettingsManager :=
  let cmd := m.val (.str command.1)
  m.set (.str command.1) (resolved machine cmd command.2 (machine.defaults command.1))

def resolveCommands (m : CSettingsManager) : CSettingsManager :=
  cmdWhich.foldl (resolveCommand machine) m

def foundTerminal : Option QString :=
  machine.defaultTerminals.find? fun term =>
    match machine.which term with
    | none => false
    | some path => machine.isApplicationLaunchable path

def resolveTerminal (m : CSettingsManager) : CSettingsManager :=
  if m.val (.str .terminalCmd) = machine.defaults .terminalCmd then
    match foundTerminal machine with
    | none => m
    | some term =>
        let m := m.set (.str .terminalCmd) term
        match machine.recommendedTerminalArg term with
        | none => m
        | some recommended => m.set (.str .terminalArg) recommended
  else m

def initAutostart (m : CSettingsManager) : CSettingsManager :=
  m.set (.bool .autostart) (machine.applicationAutostart (m.val (.bool .autostart)))

def initPassword (m : CSettingsManager) : CSettingsManager :=
  let stored := m.val .password
  if stored.isEmpty then m
  else
    match readPassword lib.sha1 (lib.guidKey (m.val (.str .trayGuid))) stored with
    | some ba => m.set (.str .passwordStr) (lib.reader.qString ba)
    | none =>
        let password := lib.reader.qString stored
        (m.set (.str .passwordStr) password).setPassword lib machine password

def initDefaultBrowser (m : CSettingsManager) : CSettingsManager :=
  m.setDefaultBrowser lib
    (match m.settings smDefaultBrowser with
      | none => machine.defaults .defaultBrowser
      | some var => lib.conversions.toString var)

def new (settings : QSettings) : CSettingsManager :=
  let m : CSettingsManager :=
    { settings := settings, val := machine.initial, texts := fun _ => ∅, rhPorts := ∅ }
  let m := m.loadTable lib
  let m := m.loadRefreshTime lib
  let m := m.loadNotificationDelay lib
  let m := m.loadBranch lib
  let m := m.makeTrayGuid machine
  let m := m.resolveCommands machine
  let m := m.resolveTerminal machine
  let m := m.initAutostart machine
  let m := m.initPassword lib machine
  m.initDefaultBrowser lib machine

end

end CSettingsManager

end SubutaiTray.Settings
