import SubutaiTray.Qt.PlaceMarkers

/-!
The hub controller (`CHubController`): the cached environments, the counter of
answered requests and the refresh timer.

A reply that is not a JSON document makes its slot log in again, and the login
runs an event loop inside the slot. The slot is therefore cut in two: what it does
before the login, and what it does when the login has returned. The slots that
wait for a login form a stack, the innermost event loop on top. Requests that
were sent and not answered are counted.
-/
namespace SubutaiTray.Hub

structure CHubContainer where
  name : QString
  ip : QString
  id : QString
  port : QString
  isDesktop : Bool
  rhIp : QString
  rhId : QString
  peerId : QString
  deskEnv : QString
  deriving DecidableEq

def CHubContainer.operatorEq (a b : CHubContainer) : Bool :=
  a.name = b.name && a.ip = b.ip && a.id = b.id && a.port = b.port && a.rhIp = b.rhIp &&
    a.isDesktop = b.isDesktop

def vectorEq {α : Type} (operatorEq : α → α → Bool) (arg1 arg2 : List α) : Bool :=
  arg1.length = arg2.length && arg1.all fun a => arg2.any fun b => operatorEq a b

structure CEnvironment where
  name : QString
  hash : QString
  aesKey : QString
  ttl : QString
  id : QString
  hubId : Int
  status : QString
  statusDescr : QString
  baseInterfaceId : Int
  lstContainers : List CHubContainer
  deriving DecidableEq

def CEnvironment.operatorEq (a b : CEnvironment) : Bool :=
  a.id = b.id && a.name = b.name && a.hash = b.hash && a.aesKey = b.aesKey && a.ttl = b.ttl &&
    a.status = b.status && a.statusDescr = b.statusDescr &&
    vectorEq CHubContainer.operatorEq a.lstContainers b.lstContainers

def CEnvironment.healthy (env : CEnvironment) : Bool := env.status = "HEALTHY".toList

/-- `operator==` of `std::vector` -/
def stdVectorEq {α : Type} (operatorEq : α → α → Bool) : List α → List α → Bool
  | [], [] => true
  | a :: as, b :: bs => operatorEq a b && stdVectorEq operatorEq as bs
  | _, _ => false

inductive RefreshEnvironmentsRes where
  | rerSuccess
  | rerNoDiff
  | rerEmpty
  | rerError
  deriving DecidableEq

def reSuccess : Int := 0
def reNotJsonDoc : Int := 4

/-- The arguments of `on_balance_updated_sl` and of `on_environments_updated_sl` that
their slots read. -/
structure BalanceReply where
  balance : QString
  errCode : Int
  deriving DecidableEq

structure EnvironmentsReply where
  lstEnvironments : List CEnvironment
  errCode : Int
  networkError : Int
  deriving DecidableEq

inductive Slot where
  | balance (reply : BalanceReply)
  | environments (reply : EnvironmentsReply)
  deriving DecidableEq

structure HubController where
  lstEnvironmentsInternal : List CEnvironment
  lstEnvironments : List CEnvironment
  lstHealthyEnvironments : List CEnvironment
  balance : QString
  updatedComponentsCount : Nat
  updateBalanceAttemptCount : Nat
  updateEnvironmentsAttemptCount : Nat
  refreshTimer : Bool
  balanceRequests : Nat
  environmentsRequests : Nat
  logins : List Slot
  deriving DecidableEq

def undefinedBalance : QString := "Undefined balance".toList
def updateAttemptMax : Nat := 5

/-- The constructor, with the initial values of the static counters. -/
def HubController.new : HubController where
  lstEnvironmentsInternal := []
  lstEnvironments := []
  lstHealthyEnvironments := []
  balance := undefinedBalance
  updatedComponentsCount := 2
  updateBalanceAttemptCount := 0
  updateEnvironmentsAttemptCount := 0
  refreshTimer := true
  balanceRequests := 0
  environmentsRequests := 0
  logins := []

namespace HubController

/-- `CRestWorker::update_balance` and `CRestWorker::update_environments` -/
def updateBalance (hub : HubController) : HubController :=
  { hub with balanceRequests := hub.balanceRequests + 1 }

def updateEnvironments (hub : HubController) : HubController :=
  { hub with environmentsRequests := hub.environmentsRequests + 1 }

def refreshTimerTimeout (hub : HubController) : HubController :=
  let hub := { hub with refreshTimer := false, updatedComponentsCount := 0 }
  hub.updateBalance.updateEnvironments

def settingsChanged (hub : HubController) : HubController :=
  { hub with refreshTimer := true }

def logout (hub : HubController) : HubController :=
  { hub with
    refreshTimer := false
    lstEnvironments := []
    lstEnvironmentsInternal := []
    lstHealthyEnvironments := []
    balance := undefinedBalance }

def start (hub : HubController) : HubController :=
  if hub.updatedComponentsCount ≥ 2 then { hub with refreshTimer := true } else hub

def forceRefresh (hub : HubController) : HubController :=
  if hub.updatedComponentsCount ≥ 2 then hub.refreshTimerTimeout else hub

/-- `if (++UPDATED_COMPONENTS_COUNT == 2) m_refresh_timer.start();` -/
def countUpdated (hub : HubController) : HubController :=
  let count := hub.updatedComponentsCount + 1
  { hub with
    updatedComponentsCount := count
    refreshTimer := if count = 2 then true else hub.refreshTimer }

/-- The end of `on_balance_updated_sl`. -/
def setBalance (reply : BalanceReply) (hub : HubController) : HubController :=
  { hub with
    balance :=
      if reply.errCode ≠ reSuccess then undefinedBalance
      else arg "Balance: %1".toList reply.balance }

/-- `on_balance_updated_sl` up to the login. -/
def onBalanceUpdatedSl (reply : BalanceReply) (hub : HubController) : HubController :=
  let hub := hub.countUpdated
  if reply.errCode = reNotJsonDoc then { hub with logins := .balance reply :: hub.logins }
  else hub.setBalance reply

/-- `on_balance_updated_sl` behind a login that returned `lerr`. -/
def balanceLoginReturned (reply : BalanceReply) (lerr : Int) (hub : HubController) :
    HubController :=
  let hub :=
    if lerr = reSuccess then
      let hub := { hub with updateBalanceAttemptCount := hub.updateBalanceAttemptCount + 1 }
      if hub.updateBalanceAttemptCount ≤ updateAttemptMax then hub.updateBalance
      else { hub with updateBalanceAttemptCount := 0 }
    else hub
  hub.setBalance reply

/-- `on_environments_updated_sl` from the error checks on, and the argument of the signal
`environments_updated` if it is sent. -/
def storeEnvironments (reply : EnvironmentsReply) (hub : HubController) :
    HubController × Option RefreshEnvironmentsRes :=
  if reply.errCode ≠ 0 ∨ reply.networkError ≠ 0 then (hub, none)
  else if stdVectorEq CEnvironment.operatorEq reply.lstEnvironments hub.lstEnvironmentsInternal then
    (hub, some (if hub.lstEnvironmentsInternal.isEmpty then .rerEmpty else .rerNoDiff))
  else
    let lst := reply.lstEnvironments
    ({ hub with
        lstEnvironmentsInternal := lst
        lstEnvironments := lst
        lstHealthyEnvironments := lst.filter CEnvironment.healthy },
      some .rerSuccess)

/-- `on_environments_updated_sl` up to the login. -/
def onEnvironmentsUpdatedSl (reply : EnvironmentsReply) (hub : HubController) :
    HubController × Option RefreshEnvironmentsRes :=
  let hub := hub.countUpdated
  if reply.errCode = reNotJsonDoc then
    ({ hub with logins := .environments reply :: hub.logins }, none)
  else hub.storeEnvironments reply

/-- `on_environments_updated_sl` behind a login that returned `lerr`. -/
def environmentsLoginReturned (reply : EnvironmentsReply) (lerr : Int) (hub : HubController) :
    HubController × Option RefreshEnvironmentsRes :=
  if lerr = reSuccess then
    let hub :=
      { hub with updateEnvironmentsAttemptCount := hub.updateEnvironmentsAttemptCount + 1 }
    let hub :=
      if hub.updateEnvironmentsAttemptCount ≤ updateAttemptMax then hub.updateEnvironments
      else { hub with updateEnvironmentsAttemptCount := 0 }
    hub.storeEnvironments reply
  else (hub, none)

/-- The innermost login returns `lerr` and its slot goes on. -/
def loginReturned (lerr : Int) (hub : HubController) : Option HubController :=
  match hub.logins with
  | [] => none
  | .balance reply :: rest => some ({ hub with logins := rest }.balanceLoginReturned reply lerr)
  | .environments reply :: rest =>
      some ({ hub with logins := rest }.environmentsLoginReturned reply lerr).1

/-- All of `on_environments_updated_sl`, nothing else being handled while it logs in. -/
def handleEnvironmentsReply (reply : EnvironmentsReply) (lerr : Int) (hub : HubController) :
    HubController :=
  let waiting := (hub.onEnvironmentsUpdatedSl reply).1
  if reply.errCode = reNotJsonDoc then (waiting.loginReturned lerr).getD waiting else waiting

end HubController

end SubutaiTray.Hub
