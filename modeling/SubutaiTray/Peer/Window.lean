import SubutaiTray.Qt.Numbers
import SubutaiTray.Qt.StdMap

/-!
The peers of the machine in the tray window: `machine_peers_table`, the buttons of all
peers, and the fingerprints that are kept in the settings.

A button is stored under a fingerprint or, as long as a local peer has none, under its
name. It may carry what the machine, the hub and the network know of the peer.
-/
namespace SubutaiTray.Peer

inductive PeerUpdate where
  | new
  | old
  deriving DecidableEq

structure CLocalPeer where
  name : QString
  ip : QString
  fingerprint : QString
  status : QString
  update : PeerUpdate
  dir : QString
  updateAvailable : QString
  provisionStep : Int
  deriving DecidableEq

def undefinedString : QString := "undefined".toList

def updatingString : QString := "updating".toList

def finishedString : QString := "finished".toList

namespace CLocalPeer

/-- The constructor. -/
def new : CLocalPeer where
  name := undefinedString
  ip := undefinedString
  fingerprint := undefinedString
  status := undefinedString
  update := .old
  dir := undefinedString
  updateAvailable := "false".toList
  provisionStep := -1

def setUpdateAvailable (val : QString) (peer : CLocalPeer) : CLocalPeer :=
  if peer.updateAvailable = updatingString then
    if val = finishedString then { peer with updateAvailable := "false".toList } else peer
  else { peer with updateAvailable := val }

end CLocalPeer

structure CMyPeerInfo where
  fingerprint : QString
  name : QString
  status : QString
  deriving DecidableEq

structure MyPeerButton where
  localPeer : Option CLocalPeer
  hubPeer : Option CMyPeerInfo
  networkPeer : Option (QString × QString)
  networkPeerState : Nat
  hubPeerState : Nat
  localPeerState : Nat
  peerId : QString
  peerName : QString
  deriving DecidableEq

def MyPeerButton.new (peerId peerName : QString) : MyPeerButton where
  localPeer := none
  hubPeer := none
  networkPeer := none
  networkPeerState := 0
  hubPeerState := 0
  localPeerState := 0
  peerId := peerId
  peerName := peerName

/-- `CPeerController::peer_info_t` -/
inductive PeerInfo where
  | status
  | port
  | finger
  | update
  | provisionStep
  deriving DecidableEq

/-- The parts of a button, as `delete_peer_button_info` numbers them. -/
inductive ButtonPart where
  | ofMachine
  | ofHub
  | ofNetwork
  deriving DecidableEq

def MyPeerButton.without (part : ButtonPart) (button : MyPeerButton) : MyPeerButton :=
  match part with
  | .ofMachine => { button with localPeer := none, localPeerState := 0 }
  | .ofHub => { button with hubPeer := none, hubPeerState := 0 }
  | .ofNetwork => { button with networkPeer := none, networkPeerState := 0 }

/-- The name on the button and the name of its local peer, kept before the local peer is
deleted. -/
def MyPeerButton.backupNames (button : MyPeerButton) : QString × QString :=
  match button.localPeer with
  | some localPeer => (button.peerName, localPeer.name)
  | none => ([], [])

/-- The tables of the window, with the fingerprints of the settings and with
`number_threads` of the peer controller. -/
structure PeerWindow where
  machinePeersTable : StdMap CLocalPeer
  hubPeersTable : StdMap CMyPeerInfo
  myPeersButtonTable : StdMap MyPeerButton
  peerFingers : StdMap QString
  numberThreads : Nat

namespace PeerWindow

/-- Nothing is known but the stored fingerprints. -/
def new (peerFingers : StdMap QString) : PeerWindow where
  machinePeersTable := ∅
  hubPeersTable := ∅
  myPeersButtonTable := ∅
  peerFingers := peerFingers
  numberThreads := 0

/-- `CSettingsManager::peer_finger` -/
def peerFinger (window : PeerWindow) (peerName : QString) : QString :=
  (window.peerFingers[peerName]?).getD []

def setPeerFinger (peerName finger : QString) (window : PeerWindow) : PeerWindow :=
  { window with peerFingers := window.peerFingers.insert peerName finger }

def setButton (peerId : QString) (button : MyPeerButton) (window : PeerWindow) : PeerWindow :=
  { window with myPeersButtonTable := window.myPeersButtonTable.insert peerId button }

/-- `update_peer_icon`: a button without information goes away. -/
def updatePeerIcon (peerId : QString) (window : PeerWindow) : PeerWindow :=
  match window.myPeersButtonTable[peerId]? with
  | none => window
  | some button =>
      if button.localPeerState = 0 ∧ button.hubPeerState = 0 then
        if button.networkPeerState = 0 then
          { window with myPeersButtonTable := window.myPeersButtonTable.erase peerId }
        else
          match button.networkPeer with
          | some networkPeer => window.setButton peerId { button with peerName := networkPeer.2 }
          | none => window
      else window

/-- The button, made if there is none. -/
def button (peerId peerName : QString) (window : PeerWindow) : MyPeerButton :=
  (window.myPeersButtonTable[peerId]?).getD (MyPeerButton.new peerId peerName)

def localPeerState (peer : CLocalPeer) : Nat :=
  let unknown (value : QString) : Bool :=
    value = undefinedString || value = "loading".toList || value.isEmpty
  if peer.status = "running".toList then
    if unknown peer.ip then 3 else if unknown peer.fingerprint then 3 else 1
  else 2

/-- `update_peer_button` for a peer of the machine. -/
def updateLocalButton (peerId : QString) (peer : CLocalPeer) (window : PeerWindow) : PeerWindow :=
  let button := window.button peerId peer.name
  (window.setButton peerId
    { button with
      localPeer := some peer
      localPeerState := localPeerState peer
      peerName := if button.hubPeer = none then peer.name else button.peerName }).updatePeerIcon
        peerId

/-- `update_peer_button` for a peer of the hub. -/
def updateHubButton (peerId : QString) (peer : CMyPeerInfo) (window : PeerWindow) : PeerWindow :=
  (window.setButton peerId
    { window.button peerId peer.name with
      hubPeer := some peer
      hubPeerState := if peer.status = "ONLINE".toList then 1 else 2
      peerName := peer.name }).updatePeerIcon peerId

/-- `update_peer_button` for a peer of the network. -/
def updateNetworkButton (peerId : QString) (peer : QString × QString) (window : PeerWindow) :
    PeerWindow :=
  let button := window.button peerId peer.2
  (window.setButton peerId
    { button with
      networkPeer := some peer
      networkPeerState := 1
      peerName :=
        if button.hubPeerState = 0 ∧ button.localPeerState = 0 then peer.2
        else button.peerName }).updatePeerIcon peerId

def deletePeerButtonInfo (peerId : QString) (part : ButtonPart) (window : PeerWindow) :
    PeerWindow :=
  match window.myPeersButtonTable[peerId]? with
  | none => window
  | some button =>
      let after := (window.setButton peerId (button.without part)).updatePeerIcon peerId
      if part = .ofMachine then
        if button.backupNames.1 ≠ peerId ∧ window.hubPeersTable[peerId]? = none then
          after.setPeerFinger button.backupNames.2 []
        else after
      else after

/-- One turn of the loop of `machine_peers_upd_finished`. -/
def finishPeer (window : PeerWindow) (entry : QString × CLocalPeer) : PeerWindow :=
  if entry.2.update = .old then
    let window := window.deletePeerButtonInfo (window.peerFinger entry.2.name) .ofMachine
    window.deletePeerButtonInfo entry.2.name .ofMachine
  else
    { window with
      machinePeersTable :=
        window.machinePeersTable.insert entry.1 { entry.2 with update := .old } }

def machinePeersUpdFinished (window : PeerWindow) : PeerWindow :=
  let entries := window.machinePeersTable.toList
  let deleteMe := (entries.filter fun entry => entry.2.update = .old).map fun entry => entry.2.name
  let window := entries.foldl finishPeer window
  { window with
    machinePeersTable := deleteMe.foldl (fun table del => table.erase del) window.machinePeersTable }

/-- The new record of a peer, and what a fingerprint changes besides. -/
def updaterPeer (info : PeerInfo) (name dir output : QString) (window : PeerWindow) : CLocalPeer :=
  let peer := { (window.machinePeersTable[name]?).getD CLocalPeer.new with
    dir := dir, name := name, update := .new }
  match info with
  | .status => { peer with status := output }
  | .port => { peer with ip := output }
  | .finger => { peer with fingerprint := output }
  | .update => peer.setUpdateAvailable output
  | .provisionStep =>
      { peer with provisionStep := if output ≠ "finished".toList then toInt output else -1 }

def storeFinger (name output : QString) (window : PeerWindow) : PeerWindow :=
  if output ≠ undefinedString ∧ output ≠ [] ∧ window.peerFinger name ≠ output then
    (window.deletePeerButtonInfo (window.peerFinger name) .ofMachine).setPeerFinger name output
  else window

/-- `got_peer_info_sl` between the two tests of the counter. -/
def recordPeer (info : PeerInfo) (name dir output : QString) (window : PeerWindow) : PeerWindow :=
  let peer := window.updaterPeer info name dir output
  let window := if info = .finger then window.storeFinger name output else window
  let window := { window with machinePeersTable := window.machinePeersTable.insert name peer }
  if window.peerFinger name ≠ [] then
    let window := window.deletePeerButtonInfo name .ofMachine
    window.updateLocalButton (window.peerFinger name) peer
  else window.updateLocalButton name peer

def gotPeerInfo (info : PeerInfo) (name dir output : QString) (window : PeerWindow) : PeerWindow :=
  if info = .status ∧ name = "update".toList ∧ dir = "peer".toList ∧ output = "menu".toList then
    window.machinePeersUpdFinished
  else if window.numberThreads = 0 then window
  else
    let window := { window with numberThreads := window.numberThreads - 1 }
    let window := window.recordPeer info name dir output
    if window.numberThreads = 0 then window.machinePeersUpdFinished else window

/-- A reply to a question about a peer, the end of a round, and what the hub and the
network tell. `toUpper` is `QString::toUpper`. -/
inductive Event where
  | reply (info : PeerInfo) (name dir output : QString)
  | updFinished
  | hubUpdate (peer : CMyPeerInfo)
  | hubDelete (fingerprint : QString)
  | networkUpdate (peer : QString × QString)
  | networkDelete (fingerprint : QString)

/-- The event tells about the peers of the machine. -/
def Event.ofMachine : Event → Bool
  | .reply .. | .updFinished => true
  | .hubUpdate _ | .hubDelete _ | .networkUpdate _ | .networkDelete _ => false

/-- A reply that makes the counter zero is followed by the end of the round. The name of
a peer is never empty. -/
def step (toUpper : QString → QString) (window : PeerWindow) : Event → Option PeerWindow
  | .reply info name dir output =>
      if name = [] then none else some (window.recordPeer info name dir output)
  | .updFinished => some window.machinePeersUpdFinished
  | .hubUpdate peer =>
      some
        ({ window with hubPeersTable := window.hubPeersTable.insert peer.fingerprint peer }.updateHubButton
          (toUpper peer.fingerprint) peer)
  | .hubDelete fingerprint =>
      some
        ({ window with hubPeersTable := window.hubPeersTable.erase fingerprint }.deletePeerButtonInfo
          (toUpper fingerprint) .ofHub)
  | .networkUpdate peer => some (window.updateNetworkButton (toUpper peer.1) peer)
  | .networkDelete fingerprint =>
      some (window.deletePeerButtonInfo (toUpper fingerprint) .ofNetwork)

end PeerWindow

end SubutaiTray.Peer
