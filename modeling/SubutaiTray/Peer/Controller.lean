import Mathlib.Data.Finset.Basic
import SubutaiTray.Peer.Effects
import SubutaiTray.Peer.Logs

/-!
The rounds of `CPeerController`, with the tasks that are on their way.

A round asks vagrant for the folders of the peers, then for the status of each, and
asks on with each answer. `number_threads` counts the questions of the round; the answer
that makes it zero ends the round. The pool runs one task at a time, in order. Answers come in any
order, also after their round.
-/
namespace SubutaiTray.Peer

structure Question where
  info : PeerInfo
  name : QString
  dir : QString
  deriving DecidableEq

/-- What runs in the pool: `UpdateVMInformation` and `GetPeerInfo`. -/
inductive Task where
  | vmInformation
  | peerInfo (question : Question)
  deriving DecidableEq

/-- A `QFileInfo` of `search_local`. -/
structure Folder where
  absolutePath : QString
  isDir : Bool
  hasProvider : Bool
  deriving DecidableEq

def fileNameOf (path : QString) : QString := (path.reverse.takeWhile (· ≠ '/')).reverse

def Folder.fileName (folder : Folder) : QString := fileNameOf folder.absolutePath

/-- The folders that `get_peer_info` does not pass over for their names. -/
def Folder.isPeer (folder : Folder) : Bool :=
  folder.fileName ≠ ".".toList && folder.fileName ≠ "..".toList && folder.isDir &&
    parseName folder.fileName ≠ []

/-- What `get_peer_info` asks. -/
def Folder.question (folder : Folder) : Question where
  info := .status
  name := parseName folder.fileName
  dir := folder.absolutePath

/-- The end of a round, as `machine_peers_upd_finished` has changed the table. -/
structure Sweep where
  before : StdMap CLocalPeer
  after : StdMap CLocalPeer
  found : List QString

/-- `pool` begins with the task that runs. The results in `answered` have not been told.
`commands` are the directories of the commands that have registered themselves. The last
three fields only remember: what `search_local` has found, for which peers an answer was
recorded since the last sweep, and that sweep. -/
structure PeerController where
  window : PeerWindow
  checkingStatutes : Finset QString
  runningCommands : Finset QString
  pool : List Task
  answered : List Task
  requests : List Question
  commands : List QString
  found : List QString
  heard : List QString
  lastSweep : Option Sweep

namespace PeerController

def new (peerFingers : StdMap QString) : PeerController where
  window := PeerWindow.new peerFingers
  checkingStatutes := ∅
  runningCommands := ∅
  pool := []
  answered := []
  requests := []
  commands := []
  found := []
  heard := []
  lastSweep := none

def setNumberThreads (numberThreads : Nat) (run : PeerController) : PeerController :=
  { run with window := { run.window with numberThreads := numberThreads } }

/-- `refresh` and `force_refresh` -/
def refresh (run : PeerController) : PeerController :=
  if run.window.numberThreads ≠ 0 then run else { run with pool := run.pool ++ [.vmInformation] }

def finishCurrentUpdate (run : PeerController) : PeerController := run.setNumberThreads 0

def machinePeersUpdFinished (run : PeerController) : PeerController :=
  let window := run.window.machinePeersUpdFinished
  { run with
    window := window
    heard := []
    lastSweep := some ⟨run.window.machinePeersTable, window.machinePeersTable, run.found⟩ }

def recordPeer (info : PeerInfo) (name dir output : QString) (run : PeerController) :
    PeerController :=
  { run with
    window := run.window.recordPeer info name dir output
    heard := name :: run.heard }

/-- `got_peer_info_sl` for a peer -/
def gotPeerInfo (info : PeerInfo) (name dir output : QString) (run : PeerController) :
    PeerController :=
  if run.window.numberThreads = 0 then run
  else
    let run :=
      (run.setNumberThreads (run.window.numberThreads - 1)).recordPeer info name dir output
    if run.window.numberThreads = 0 then run.machinePeersUpdFinished else run

section
variable (toNativeSeparators : QString → QString)

/-- `GetPeerInfo::startWork` -/
def startWork (question : Question) (run : PeerController) : PeerController :=
  { run with
    checkingStatutes :=
      if question.info = .status then insert (toNativeSeparators question.dir) run.checkingStatutes
      else run.checkingStatutes
    pool := run.pool ++ [.peerInfo question] }

def getPeerInfo (run : PeerController) (folder : Folder) : PeerController :=
  if folder.isPeer then
    if toNativeSeparators folder.absolutePath ∈ run.runningCommands then run
    else
      (run.setNumberThreads (run.window.numberThreads + 1)).startWork toNativeSeparators
        folder.question
  else run

/-- The folders that `search_local` looks at: the global status, or the base directory of
the peers if that is empty. -/
def foldersOf (globalStatus peersDir : List Folder) : List Folder :=
  if globalStatus.isEmpty then peersDir.filter Folder.hasProvider else globalStatus

def foundIn (folders : List Folder) : List QString :=
  (folders.filter Folder.isPeer).map Folder.absolutePath

def searchLocal (globalStatus peersDir : List Folder) (run : PeerController) : PeerController :=
  let folders := foldersOf globalStatus peersDir
  let run := folders.foldl (getPeerInfo toNativeSeparators) { run with found := foundIn folders }
  if run.window.numberThreads = 0 then run.machinePeersUpdFinished else run

/-- What `parse_peer_info` asks next. -/
def askOn (question : Question) (output : QString) (run : PeerController) : PeerController :=
  match question.info with
  | .status =>
      if output ≠ "running".toList then run
      else
        (run.setNumberThreads (run.window.numberThreads + 1)).startWork toNativeSeparators
          { question with info := .port }
  | .port =>
      if output ≠ [] ∧ output ≠ undefinedString then
        { run.setNumberThreads (run.window.numberThreads + 2) with
          requests :=
            run.requests ++ [{ question with info := .finger }, { question with info := .update }] }
      else run
  | .finger | .update | .provisionStep => run

def parsePeerInfo (question : Question) (output : QString) (run : PeerController) : PeerController :=
  if run.window.numberThreads = 0 then run
  else
    (run.askOn toNativeSeparators question output).gotPeerInfo question.info question.name question.dir
      (if output = [] then undefinedString else output)

def removeCheckingStatus (question : Question) (run : PeerController) : PeerController :=
  if question.info = .status then
    { run with checkingStatutes := run.checkingStatutes.erase (toNativeSeparators question.dir) }
  else run

/-- `poolFinished` is the end of the task that runs, `vmInformation`, `peerInfo` and
`restReply` are the answers when they arrive. `check_logs` finishes the current update, and a command in a
terminal registers its directory and, after ten seconds, unregisters it. -/
inductive Event where
  | refresh
  | poolFinished
  | vmInformation (globalStatus peersDir : List Folder)
  | peerInfo (question : Question) (output : QString)
  | restReply (question : Question) (output : QString)
  | finishCurrentUpdate
  | commandRegistered (dir : QString)
  | commandUnregistered (dir : QString)

def step (run : PeerController) : Event → Option PeerController
  | .refresh => some run.refresh
  | .poolFinished =>
      match run.pool with
      | [] => none
      | task :: rest => some { run with pool := rest, answered := run.answered ++ [task] }
  | .vmInformation globalStatus peersDir =>
      if .vmInformation ∈ run.answered then
        some
          ({ run with answered := run.answered.erase .vmInformation }.searchLocal toNativeSeparators
            globalStatus peersDir)
      else none
  | .peerInfo question output =>
      if .peerInfo question ∈ run.answered then
        some
          (({ run with answered := run.answered.erase (.peerInfo question) }.removeCheckingStatus
            toNativeSeparators question).parsePeerInfo toNativeSeparators question output)
      else none
  | .restReply question output =>
      if question ∈ run.requests then
        some
          ({ run with requests := run.requests.erase question }.parsePeerInfo toNativeSeparators
            question output)
      else none
  | .finishCurrentUpdate => some run.finishCurrentUpdate
  | .commandRegistered dir =>
      some
        { run with
          runningCommands := insert dir run.runningCommands
          commands := run.commands ++ [dir] }
  | .commandUnregistered dir =>
      if dir ∈ run.commands then
        some
          { run with
            runningCommands := run.runningCommands.erase dir
            commands := run.commands.erase dir }
      else none

end

end PeerController

end SubutaiTray.Peer
