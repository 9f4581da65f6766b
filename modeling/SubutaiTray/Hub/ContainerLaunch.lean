import SubutaiTray.Hub.SshKeys
import SubutaiTray.P2P.LocalContainers

/-!
How a terminal or a desktop is opened on a container (`CHubController::ssh_to_container_from_hub` and its
kin).

The container is looked for among the environments of the hub, the connector is asked whether it is
reached, and the key of its environment is taken. Nothing is tried before all that is settled.
-/
namespace SubutaiTray.Hub

open SubutaiTray.P2P

/-- `ssh_desktop_launch_error_t` -/
inductive SshDesktopLaunchError where
  | success
  | envNotFound
  | contNotFound
  | contNotReady
  | joinToSwarmFailed
  | systemCallFailed
  | noKeyDeployed
  | noKeyFileTransferDeployed
  deriving DecidableEq

def SshDesktopLaunchError.number (error : SshDesktopLaunchError) : Int := error.ctorIdx

/-- The settings and the machine at the time of a launch. -/
structure LaunchMachine where
  sshUser : QString
  sshKeysStorage : QString
  separator : Char
  /-- Whether the text stands for an address of the machine other than that of the local host. -/
  isOwnAddress : QString → Bool
  runSshkeyInTerminal : (user ip port key : QString) → SystemCallWrapperError
  runX2goclientSession : QString → SystemCallWrapperError

/-- A terminal that is started, or a session that is written and opened. -/
inductive LaunchCall where
  | terminal (user ip port key : QString)
  | desktop (contId ip port user key : QString)
  deriving DecidableEq

/-- What a launch looks at. -/
structure LaunchView where
  lstEnvironments : List CEnvironment
  connector : P2PConnector
  locals : LocalTable
  sshKeys : SshKeyController

/-- `QFileInfo::baseName` -/
def fileBaseName (path : QString) : QString := (path.rtakeWhile (· ≠ '/')).takeWhile (· ≠ '.')

/-- `container_ip_from_ifconfig_analog` -/
def containerIpAndPort (machine : LaunchMachine) (cont : CHubContainer) : QString × QString :=
  if machine.isOwnAddress cont.rhIp then (cont.ip, "22".toList) else (cont.rhIp, cont.port)

namespace LaunchView

variable (view : LaunchView) (machine : LaunchMachine)

/-- `find_container_by_id` and `find_container_by_name`, by what is compared. -/
def findContainer (envKey : CEnvironment → QString) (contKey : CHubContainer → QString)
    (env cont : QString) : Option CEnvironment × Option CHubContainer :=
  match view.lstEnvironments.find? fun e => envKey e = env with
  | none => (none, none)
  | some e => (some e, e.lstContainers.find? fun c => contKey c = cont)

def findContainerById : QString → QString → Option CEnvironment × Option CHubContainer :=
  view.findContainer CEnvironment.id CHubContainer.id

def findContainerByName : QString → QString → Option CEnvironment × Option CHubContainer :=
  view.findContainer CEnvironment.name CHubContainer.name

def getEnvKey (envId : QString) : QString :=
  match ((view.sshKeys.envs[envId]?).map Envs.keys).getD [] with
  | [] => []
  | key :: _ => machine.sshKeysStorage ++ machine.separator :: fileBaseName key.path

/-- `is_ready_sdle`; the last status is none that `is_ready` returns. -/
def isReadySdle (env : CEnvironment) (cont : CHubContainer) : SshDesktopLaunchError :=
  match view.connector.isReady env cont with
  | .connectionSuccess => .success
  | .cantJoinSwarm => .joinToSwarmFailed
  | .cantConnectCont | .p2pNotInstalled => .contNotReady

def containerStatus (env : CEnvironment) (cont : CHubContainer) : SshDesktopLaunchError :=
  if view.locals.isContInMachine cont.peerId then .success else view.isReadySdle env cont

def sshToContainerInTerminal (cont : CHubContainer) (key : QString) : SystemCallWrapperError × LaunchCall :=
  if view.locals.isContInMachine cont.peerId then
    (machine.runSshkeyInTerminal machine.sshUser cont.ip [] key, .terminal machine.sshUser cont.ip [] key)
  else
    let cip := containerIpAndPort machine cont
    (machine.runSshkeyInTerminal machine.sshUser cip.1 cip.2 key, .terminal machine.sshUser cip.1 cip.2 key)

def desktopToContainerInX2go (cont : CHubContainer) (key : QString) : SystemCallWrapperError × LaunchCall :=
  let x2goUser := "x2go".toList
  let cip :=
    if view.locals.isContInMachine cont.peerId then (cont.ip, []) else containerIpAndPort machine cont
  (machine.runX2goclientSession cont.id, .desktop cont.id cip.1 cip.2 x2goUser key)

/-- The end of both functions. -/
def launched (call : SystemCallWrapperError × LaunchCall) : SshDesktopLaunchError × List LaunchCall :=
  (if call.1 ≠ .success then .systemCallFailed else .success, [call.2])

def sshToContainerInternal (env : CEnvironment) (cont : CHubContainer) (key : QString) :
    SshDesktopLaunchError × List LaunchCall :=
  if view.containerStatus env cont ≠ .success then (view.containerStatus env cont, [])
  else if key = [] then (.noKeyDeployed, [])
  else launched (view.sshToContainerInTerminal machine cont key)

/-- No key is asked for here. -/
def desktopToContainerInternal (env : CEnvironment) (cont : CHubContainer) (key : QString) :
    SshDesktopLaunchError × List LaunchCall :=
  if view.containerStatus env cont ≠ .success then (view.containerStatus env cont, [])
  else launched (view.desktopToContainerInX2go machine cont key)

def sshToContainer (env : CEnvironment) (cont : CHubContainer) : SshDesktopLaunchError × List LaunchCall :=
  view.sshToContainerInternal machine env cont (view.getEnvKey machine env.id)

def desktopToContainer (env : CEnvironment) (cont : CHubContainer) :
    SshDesktopLaunchError × List LaunchCall :=
  view.desktopToContainerInternal machine env cont (view.getEnvKey machine env.id)

/-- The end of the three functions. What was not found is passed on as a null reference, which no slot
looks at. -/
def finished (found : Option CEnvironment × Option CHubContainer)
    (toContainer : CEnvironment → CHubContainer → SshDesktopLaunchError × List LaunchCall) :
    SshDesktopLaunchError × List LaunchCall :=
  match found with
  | (none, _) => (.envNotFound, [])
  | (some _, none) => (.contNotFound, [])
  | (some env, some cont) => toContainer env cont

def sshToContainerFromHub (envId contId : QString) : SshDesktopLaunchError × List LaunchCall :=
  finished (view.findContainerById envId contId) (view.sshToContainer machine)

def sshToContainerFromCc (envName contName : QString) : SshDesktopLaunchError × List LaunchCall :=
  finished (view.findContainerByName envName contName) (view.sshToContainer machine)

def desktopToContainerFromHub (envId contId : QString) : SshDesktopLaunchError × List LaunchCall :=
  finished (view.findContainerById envId contId) (view.desktopToContainer machine)

/-! ## What a result tells -/

/-- It is tried to open a terminal or a desktop if and only if the result is a success or a failed system
call. -/
def Accounted (result : SshDesktopLaunchError × List LaunchCall) : Prop :=
  result.2.length = if result.1 = .success ∨ result.1 = .systemCallFailed then 1 else 0

variable {view machine} {env : CEnvironment} {cont : CHubContainer}

theorem accounted_launched (call : SystemCallWrapperError × LaunchCall) : Accounted (launched call) := by
  rw [Accounted, launched]
  by_cases hcall : call.1 = .success
  · simp [hcall]
  · simp [hcall]

theorem isReadySdle_ne_systemCallFailed : view.isReadySdle env cont ≠ .systemCallFailed := by
  rw [isReadySdle]
  cases view.connector.isReady env cont <;> simp

theorem accounted_containerStatus (h : view.containerStatus env cont ≠ .success) :
    Accounted (view.containerStatus env cont, []) := by
  have hsystem : view.containerStatus env cont ≠ .systemCallFailed := by
    rw [containerStatus]
    split
    · exact SshDesktopLaunchError.noConfusion
    · exact isReadySdle_ne_systemCallFailed
  simp [Accounted, h, hsystem]

theorem accounted_sshToContainerInternal (key : QString) :
    Accounted (view.sshToContainerInternal machine env cont key) := by
  rw [sshToContainerInternal]
  split
  · rename_i hstatus
    exact accounted_containerStatus hstatus
  · split
    · rfl
    · exact accounted_launched _

theorem accounted_desktopToContainerInternal (key : QString) :
    Accounted (view.desktopToContainerInternal machine env cont key) := by
  rw [desktopToContainerInternal]
  split
  · rename_i hstatus
    exact accounted_containerStatus hstatus
  · exact accounted_launched _

theorem accounted_finished {found : Option CEnvironment × Option CHubContainer}
    {toContainer : CEnvironment → CHubContainer → SshDesktopLaunchError × List LaunchCall}
    (h : ∀ env cont, Accounted (toContainer env cont)) : Accounted (finished found toContainer) := by
  obtain ⟨foundEnv, foundCont⟩ := found
  cases foundEnv with
  | none => rfl
  | some env =>
      cases foundCont with
      | none => rfl
      | some cont => exact h env cont

end LaunchView

end SubutaiTray.Hub
