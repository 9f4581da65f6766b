import SubutaiTray.Process.SystemCall

/-!
What the updater components do when they are asked to update, install or uninstall.

An operation asks the user and its surroundings, and goes on with each answer in its own
way; the questions, the download and the system calls are where it waits. After `returns`
the caller goes on, and the rest runs when the signals arrive.
-/
namespace SubutaiTray.Updater

inductive OS where
  | linux
  | mac
  | windows
  deriving DecidableEq

/-- `hub_component_updater_error_t` -/
inductive Chue where
  | success
  | inProgress
  | notOnKurjun
  | failed
  deriving DecidableEq

/-- `cc_component` -/
inductive CcComponent where
  | p2p
  | x2go
  | vagrant
  | vb
  | chrome
  | firefox
  | e2e
  | vagrantSubutai
  | vagrantLibvirt
  | vagrantParallels
  | vagrantVmwareDesktop
  | vagrantVbguest
  | subutaiBox
  | vmware
  | parallels
  | vmwareUtility
  | xquartz
  | hyperv
  | kvm
  deriving DecidableEq

/-- The classes that run a system call in a thread. -/
inductive Silent where
  | installer
  | updater
  | uninstaller
  deriving DecidableEq

/-- The components that the class has a case for. -/
def Silent.handles : Silent → CcComponent → Bool
  | .installer, _ => true
  | .uninstaller, _ => true
  | .updater, cc =>
      cc ∈ [.vagrantSubutai, .vagrantVbguest, .vagrantLibvirt, .vagrantVmwareDesktop,
        .vagrantParallels, .p2p]

/-- The calls of the slots that clear the flag. -/
inductive Notification where
  | updateFinished (success : Bool)
  | installFinished (success : Bool) (version : QString)
  | uninstallFinished (success : Bool) (version : QString)
  deriving DecidableEq

/-- What is looked up, or asked in a message box. `proceed` is a box with "Yes" and "No",
`acknowledge` one with "Ok". -/
inductive Question where
  | proceed
  | acknowledge
  | presented
  | downloaded
  | pathFound
  | pathUsable
  | upToDate
  | cpuSupport
  | chromeIsDefault
  | licenseInstalled
  | machinePeers
  | boxInstalled
  | srcExists
  | dstExists
  | tmpExists
  | tmpRemoved
  | dstRenamed
  | srcCopied
  | permissionsSet
  deriving DecidableEq

/-- A download shows its progress through the first argument. -/
inductive Script where
  | ends
  | finish (notification : Notification) (next : Script)
  | clear (next : Script)
  | progress (part total : Int) (next : Script)
  | returns (code : Chue) (next : Script)
  | ask (question : Question) (next : Bool → Script)
  | download (shown : Int → Int → Int × Int) (next : Bool → Script)
  | work (silent : Silent) (cc : CcComponent) (next : Bool → QString → Script)

/-- `CExecutableUpdater::replace_executables`, with what follows its signal `finished`. -/
def replaceExecutables (os : OS) (wasSuccessfulDownloaded : Bool) (finished : Bool → Script) :
    Script :=
  let setPermissions : Script :=
    if os = .windows then finished true
    else .ask .permissionsSet finished
  let copy : Script :=
    .ask .srcCopied fun
      | false => finished false
      | true => setPermissions
  let rename : Script :=
    .ask .dstRenamed fun
      | false => finished false
      | true => copy
  if wasSuccessfulDownloaded then
    .ask .srcExists fun
      | false => finished true
      | true =>
          .ask .dstExists fun
            | false => copy
            | true =>
                .ask .tmpExists fun
                  | false => rename
                  | true =>
                      .ask .tmpRemoved fun
                        | false => finished true
                        | true => rename
  else .ends

/-! ## Operations of more than one component -/

def install (cc : CcComponent) : Script :=
  .work .installer cc fun success version => .finish (.installFinished success version) .ends

def uninstall (cc : CcComponent) : Script :=
  .work .uninstaller cc fun success version => .finish (.uninstallFinished success version) .ends

def update (cc : CcComponent) : Script :=
  .work .updater cc fun success _ => .finish (.updateFinished success) .ends

/-- Nothing is installed, and the caller gets the code. -/
def refuseInstall (code : Chue) : Script :=
  .finish (.installFinished false undefinedVersion) (.returns code .ends)

def refuseUninstall (code : Chue) : Script :=
  .finish (.uninstallFinished false undefinedVersion) (.returns code .ends)

def downloadAndInstall (cc : CcComponent) : Script :=
  .download Prod.mk fun
    | false => .finish (.installFinished false undefinedVersion) .ends
    | true => .progress 0 0 (install cc)

/-- The package is on the server, and is downloaded and installed. -/
def installPackage (cc : CcComponent) : Script :=
  .ask .proceed fun
    | false => refuseInstall .success
    | true =>
        .ask .presented fun
          | false => refuseInstall .notOnKurjun
          | true => .returns .success (downloadAndInstall cc)

/-- There is nothing to download. -/
def installDirectly (cc : CcComponent) : Script :=
  .ask .proceed fun
    | false => refuseInstall .success
    | true => .progress 0 0 (.returns .success (install cc))

def updateNothing : Script :=
  .progress 100 100 (.finish (.updateFinished true) (.returns .success .ends))

def updatePlugin (part total : Int) (cc : CcComponent) : Script :=
  .progress part total (.returns .success (update cc))

def uninstallDirectly (cc : CcComponent) : Script := .returns .success (uninstall cc)

/-- The user is asked to stop the machines. -/
def uninstallStopped (cc : CcComponent) : Script :=
  .ask .proceed fun
    | false => refuseUninstall .failed
    | true => .returns .success (uninstall cc)

/-! ## The components -/

/-- The operations in `IUpdaterComponent` that each component defines. -/
structure Operations where
  updateInternal : Script
  installInternal : Script
  uninstallInternal : Script

def updaterComponentChrome : Operations where
  updateInternal := updateNothing
  installInternal := installPackage .chrome
  uninstallInternal := uninstallDirectly .chrome

def updaterComponentFirefox : Operations where
  updateInternal := updateNothing
  installInternal := installPackage .firefox
  uninstallInternal := uninstallDirectly .firefox

def updaterComponentVagrant : Operations where
  updateInternal := updateNothing
  installInternal := installPackage .vagrant
  uninstallInternal := uninstallDirectly .vagrant

def updaterComponentX2go : Operations where
  updateInternal := updateNothing
  installInternal := installPackage .x2go
  uninstallInternal := uninstallDirectly .x2go

def updaterComponentXQuartz : Operations where
  updateInternal := updateNothing
  installInternal := installPackage .xquartz
  uninstallInternal := uninstallDirectly .xquartz

def updaterComponentVMware : Operations where
  updateInternal := updateNothing
  installInternal := installPackage .vmware
  uninstallInternal := uninstallStopped .vmware

def updaterComponentParallels : Operations where
  updateInternal := updateNothing
  installInternal := installPackage .parallels
  uninstallInternal := uninstallStopped .parallels

def updaterComponentVagrantVMwareUtility : Operations where
  updateInternal := updateNothing
  installInternal := installPackage .vmwareUtility
  uninstallInternal := .progress 50 100 (uninstallDirectly .vmwareUtility)

def updaterComponentVagrantSubutai : Operations where
  updateInternal := updatePlugin 0 0 .vagrantSubutai
  installInternal := installDirectly .vagrantSubutai
  uninstallInternal := uninstallDirectly .vagrantSubutai

def updaterComponentVagrantVBguest : Operations where
  updateInternal := updatePlugin 0 0 .vagrantVbguest
  installInternal := installDirectly .vagrantVbguest
  uninstallInternal := uninstallDirectly .vagrantVbguest

def updaterComponentVagrantLibvirt : Operations where
  updateInternal := updatePlugin 100 100 .vagrantLibvirt
  installInternal := installDirectly .vagrantLibvirt
  uninstallInternal := .progress 50 100 (uninstallDirectly .vagrantLibvirt)

def updaterComponentVagrantParallels : Operations where
  updateInternal := updatePlugin 50 100 .vagrantParallels
  installInternal := installDirectly .vagrantParallels
  uninstallInternal := .progress 50 100 (uninstallDirectly .vagrantParallels)

def updaterComponentVagrantVmware : Operations where
  updateInternal := updatePlugin 50 100 .vagrantVmwareDesktop
  installInternal := installDirectly .vagrantVmwareDesktop
  uninstallInternal := .progress 50 100 (uninstallDirectly .vagrantVmwareDesktop)

/-- To decline the removal is a success here. -/
def updaterComponentHyperv : Operations where
  updateInternal := updateNothing
  installInternal := installDirectly .hyperv
  uninstallInternal :=
    .ask .proceed fun
      | false => refuseUninstall .success
      | true => .returns .success (uninstall .hyperv)

def updaterComponentKvm : Operations where
  updateInternal := updateNothing
  installInternal :=
    let work : Script := .progress 0 0 (.returns .success (install .kvm))
    .ask .proceed fun
      | false => refuseInstall .success
      | true =>
          .ask .cpuSupport fun
            | true => work
            | false =>
                .ask .acknowledge fun
                  | true => refuseInstall .success
                  | false => work
  uninstallInternal := uninstallStopped .kvm

/-- Where the uninstaller is not on the server it is the installation that is said to
have failed. -/
def updaterComponentVirtualbox (os : OS) : Operations where
  updateInternal := updateNothing
  installInternal := installPackage .vb
  uninstallInternal :=
    .ask .proceed fun
      | false => refuseUninstall .failed
      | true =>
          if os = .mac then
            .ask .presented fun
              | false => refuseInstall .notOnKurjun
              | true =>
                  .returns .success
                    (.download Prod.mk fun
                      | false => .finish (.uninstallFinished false undefinedVersion) .ends
                      | true => .progress 0 0 (uninstall .vb))
          else .returns .success (uninstall .vb)

def updaterComponentE2E : Operations where
  updateInternal := .finish (.updateFinished true) (.returns .success .ends)
  installInternal :=
    .ask .proceed fun
      | false => refuseInstall .success
      | true =>
          .ask .chromeIsDefault fun
            | true => .returns .success (install .e2e)
            | false =>
                .ask .presented fun
                  | false => refuseInstall .notOnKurjun
                  | true =>
                      .returns .success
                        (.download (fun rec total => (rec, total + total.tdiv 5)) fun
                          | false => .finish (.installFinished false undefinedVersion) .ends
                          | true => install .e2e)
  uninstallInternal := uninstallDirectly .e2e

/-- `install_internal(bool)`: only the end of the installation tells an update from one. -/
def installSubutaiBox (isUpdate : Bool) : Script :=
  let finished (success : Bool) (version : QString) : Script :=
    .finish (if isUpdate then .updateFinished success else .installFinished success version) .ends
  let downloadBox : Script :=
    .ask .presented fun
      | false => refuseInstall .notOnKurjun
      | true =>
          .returns .success
            (.download Prod.mk fun
              | false => finished false undefinedVersion
              | true => .progress 0 0 (.work .installer .subutaiBox finished))
  .ask .boxInstalled fun
    | true => downloadBox
    | false =>
        .ask .proceed fun
          | false => refuseInstall .success
          | true => downloadBox

def updaterComponentSubutaiBox : Operations where
  updateInternal := installSubutaiBox true
  installInternal := installSubutaiBox false
  uninstallInternal :=
    .ask .licenseInstalled fun
      | false => refuseUninstall .success
      | true =>
          .ask .machinePeers fun
            | false => .returns .success (uninstall .subutaiBox)
            | true =>
                .ask .proceed fun
                  | false => refuseUninstall .success
                  | true => .returns .success (uninstall .subutaiBox)

/-- The executable is replaced after the download, or at once where it is there already. -/
def downloadAndReplace (os : OS) : Script :=
  .ask .presented fun
    | false => .returns .notOnKurjun .ends
    | true =>
        .ask .upToDate fun
          | true =>
              .progress 100 100
                (replaceExecutables os true fun replaced =>
                  .finish (.updateFinished replaced) (.returns .success .ends))
          | false =>
              .returns .success
                (.download Prod.mk fun success =>
                  replaceExecutables os success fun replaced =>
                    .finish (.updateFinished replaced) .ends)

/-- Both start with the path of the executable. -/
def withP2pPath (next : Script) : Script :=
  .ask .pathFound fun
    | false => .returns .failed .ends
    | true =>
        .ask .pathUsable fun
          | false => .returns .failed .ends
          | true => next

def updateInternalMacWin (os : OS) : Script := withP2pPath (downloadAndReplace os)

def updateInternalLinux : Script :=
  withP2pPath
    (.ask .presented fun
      | false => .returns .notOnKurjun .ends
      | true =>
          .ask .upToDate fun
            | true => .progress 100 100 (.returns .success (update .p2p))
            | false =>
                .returns .success
                  (.download Prod.mk fun
                    | false => .finish (.updateFinished false) .ends
                    | true => .progress 0 0 (update .p2p)))

def updaterComponentP2P (os : OS) : Operations where
  updateInternal := if os = .linux then updateInternalLinux else updateInternalMacWin os
  installInternal :=
    .ask .proceed fun
      | false => refuseInstall .success
      | true =>
          .ask .presented fun
            | false => .returns .notOnKurjun .ends
            | true => .returns .success (downloadAndInstall .p2p)
  uninstallInternal := uninstallDirectly .p2p

/-- The control center neither installs nor removes itself. -/
def updaterComponentTray (os : OS) : Operations where
  updateInternal :=
    .ask .pathUsable fun
      | false => .returns .failed .ends
      | true => downloadAndReplace os
  installInternal := .returns .success .ends
  uninstallInternal := .clear (.returns .success .ends)

/-- The ids under which `CHubComponentsUpdater` keeps the components. -/
inductive ComponentId where
  | tray
  | p2p
  | x2go
  | vagrant
  | oracleVirtualbox
  | chrome
  | firefox
  | e2e
  | vagrantSubutai
  | vagrantVbguest
  | subutaiBox
  | vagrantParallels
  | vagrantLibvirt
  | vagrantVmwareDesktop
  | vmware
  | vmwareUtility
  | xquartz
  | hyperv
  | kvm
  | parallels
  deriving DecidableEq

/-- `m_dct_components` -/
def component (os : OS) : ComponentId → Operations
  | .tray => updaterComponentTray os
  | .p2p => updaterComponentP2P os
  | .x2go => updaterComponentX2go
  | .vagrant => updaterComponentVagrant
  | .oracleVirtualbox => updaterComponentVirtualbox os
  | .chrome => updaterComponentChrome
  | .firefox => updaterComponentFirefox
  | .e2e => updaterComponentE2E
  | .vagrantSubutai => updaterComponentVagrantSubutai
  | .vagrantVbguest => updaterComponentVagrantVBguest
  | .subutaiBox => updaterComponentSubutaiBox
  | .vagrantParallels => updaterComponentVagrantParallels
  | .vagrantLibvirt => updaterComponentVagrantLibvirt
  | .vagrantVmwareDesktop => updaterComponentVagrantVmware
  | .vmware => updaterComponentVMware
  | .vmwareUtility => updaterComponentVagrantVMwareUtility
  | .xquartz => updaterComponentXQuartz
  | .hyperv => updaterComponentHyperv
  | .kvm => updaterComponentKvm
  | .parallels => updaterComponentParallels

end SubutaiTray.Updater
