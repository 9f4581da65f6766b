import SubutaiTray.Library.Splitting
import SubutaiTray.Qt.PlaceMarkers

/-!
The logs of the commands that run in a terminal (`CPeerController::check_logs`,
`vagrant_command_terminal_internal<OS_LINUX>`).

The terminal leaves two files in the peer's directory: what the command wrote to
its error output, and a marker that it is over. `check_logs` finds the markers,
looks for the log that belongs to each, and tells the user its text
(`Notice.messages_suffix_text`). Directories are lists in the order of
`entryInfoList`. To which file the shell directs an output is a parameter, for the
names it is given are words of a script.
-/
namespace SubutaiTray.Peer

open Splitting

structure File where
  fileName : QString
  isDir : Bool
  content : QString
  /-- Whether `QFile::open` opens it for reading and writing. -/
  opens : Bool
  /-- Whether `QFile::remove` removes it. -/
  removes : Bool
  deriving DecidableEq

/-- An entry of `BasePeerDir`. -/
structure PeerDir where
  fileName : QString
  isDir : Bool
  files : List File
  /-- Whether `removeRecursively` removes all of it. -/
  removes : Bool
  deriving DecidableEq

/-! ## The terminal -/

inductive ShellCommand where
  | vagrant (args errorLog : QString) (append : Bool)
  | echoFinished (file : QString)
  deriving DecidableEq

/-- The script of `vagrant_command_terminal_internal<OS_LINUX>` as far as it writes
files: the commands between `cd` and the `echo` that begins to talk to the user. -/
def vagrantCommandTerminal (command name : QString) : Option (List ShellCommand) :=
  if command.isEmpty then none
  else
    let word := (split [' '] command).headD []
    let errorLog := name ++ '_' :: word
    some
      (.vagrant command errorLog false ::
        (if command = "reload".toList then
            [.vagrant "provision".toList (name ++ '_' :: command) true]
          else []) ++
        [.echoFinished (word ++ "_finished".toList)])

/-- `CommandPeerTerminal::execute_remote_command` puts the name in quotes. -/
def executeRemoteCommand (command name : QString) : Option (List ShellCommand) :=
  vagrantCommandTerminal command ('"' :: name ++ ['"'])

def plainWord (word : QString) : Bool := word.all fun c => c.isAlphanum || c = '_'

/-- What is special between quotes, and what no file name contains. -/
def special : List Char := ['"', '$', Char.ofNat 96, '\\', '!', '/', nul]

/-- To which file the shell directs an output: a word of letters, digits and underscores
names itself, and between quotes only a few characters are special. -/
structure Shell where
  target : QString → QString
  target_plain : ∀ word, plainWord word = true → target word = word
  target_quoted : ∀ name word, (∀ c ∈ name, c ∉ special) → plainWord word = true →
    target ('"' :: name ++ ['"'] ++ word) = name ++ word

def write (fileName : QString) (change : QString → QString) (files : List File) : List File :=
  if files.any (·.fileName = fileName) then
    files.map fun f =>
      if f.fileName = fileName ∧ f.isDir = false then { f with content := change f.content } else f
  else files ++ [⟨fileName, false, change [], true, true⟩]

/-- `errors args` is what `vagrant` writes to its error output when run with `args`. -/
def ShellCommand.run (shell : Shell) (errors : QString → QString)
    (files : List File) : ShellCommand → List File
  | .vagrant args errorLog append =>
      write (shell.target errorLog) (fun old => if append then old ++ errors args else errors args) files
  | .echoFinished file => write (shell.target file) (fun _ => "finished\n".toList) files

/-! ## The reader -/

def esc : Char := Char.ofNat 27

/-- A text without the escapes that begin with ESC and a text that `begins` accepts, and
end with the next `m`; the flag tells that such an escape is not over yet. -/
def dropEscapes (begins : QString → Bool) : Bool → QString → QString
  | _, [] => []
  | true, c :: s => dropEscapes begins (c ≠ 'm') s
  | false, c :: s =>
      if c = esc ∧ begins s then dropEscapes begins true s else c :: dropEscapes begins false s

/-- `remove(QRegExp("\x1b[^m]*m"))` -/
def removeEscapes (s : QString) : QString := dropEscapes (fun s => 'm' ∈ s) false s

def parseName (name : QString) : QString :=
  if "subutai-peer".toList <:+: name then loop [] name else name
where
  -- from the first underscore on everything belongs to the name
  loop (before : QString) : QString → QString
    | [] => []
    | c :: s =>
        if c = '_' then if before = "subutai-peer".toList then s else []
        else loop (before ++ [c]) s

/-- Whether the file is taken for the log of the command. -/
def File.isLogOf (command : QString) (f : File) : Bool :=
  !f.isDir &&
    match split ['_'] f.fileName with
    | [_, c] => c = command
    | _ => false

def File.remove (f : File) (files : List File) : List File :=
  if f.removes then files.filter (·.fileName ≠ f.fileName) else files

/-- `CPeerController::get_error_messages`, with the files that it leaves. -/
def getErrorMessages (files : List File) (command : QString) : QString × List File :=
  match files.find? (File.isLogOf command) with
  | none => (removeEscapes [], files)
  | some log => (removeEscapes (if log.opens then log.content else []), log.remove files)

/-- What is sent to `CNotificationObserver`. -/
inductive Notice where
  | finished (peer command : QString)
  | finishedWith (peer command messages : QString)
  | failedToClear
  deriving DecidableEq

def Notice.text : Notice → QString
  | .finished peer command =>
      multiArg "Peer %1 has finished to \"%2\" successfully.".toList [peer, command]
  | .finishedWith peer command messages =>
      multiArg "Peer %1 has finished to \"%2\" with following messages:\n %3".toList
        [peer, command, messages]
  | .failedToClear =>
      ("Failed to completely clear the peer's path while destroying the peer. " ++
        "You may manually delete the folder that contains the peer data.").toList

/-- The messages are told to the end. -/
theorem Notice.messages_suffix_text (peer command messages : QString) :
    messages <:+ (Notice.finishedWith peer command messages).text := by
  have htext : (Notice.finishedWith peer command messages).text =
      "Peer ".toList ++ (peer ++ (" has finished to \"".toList ++ (command ++
        ("\" with following messages:\n ".toList ++ (messages ++ []))))) := rfl
  rw [htext, List.append_nil]
  simp only [← List.append_assoc]
  exact List.suffix_append _ messages

structure Checked where
  files : List File
  deleted : Bool
  notices : List Notice
  deriving DecidableEq

/-- The loop body of `check_logs`. -/
def checkFile (peer : QString) (checked : Checked) (logs : File) : Checked :=
  if logs.isDir then checked
  else
    match split ['_'] logs.fileName with
    | [command, finished] =>
        if finished = "finished".toList then
          let (errorMessage, files) := getErrorMessages checked.files command
          { files := logs.remove files
            deleted := checked.deleted || (errorMessage.isEmpty && command = "destroy".toList)
            notices :=
              checked.notices ++
                if command = "ssh".toList then []
                else if errorMessage.isEmpty then [.finished peer command]
                else [.finishedWith peer command errorMessage] }
        else checked
    | _ => checked

def PeerDir.shown (dir : PeerDir) : Bool :=
  dir.isDir && dir.fileName ≠ ".".toList && dir.fileName ≠ "..".toList &&
    parseName dir.fileName ≠ []

/-- One round of the outer loop of `check_logs`; the loop runs over the files as they
were listed at its start. `deleted` tells that `removeRecursively` was called. -/
def checkDir (dir : PeerDir) : Checked :=
  if dir.shown then
    let checked := dir.files.foldl (checkFile (parseName dir.fileName)) ⟨dir.files, false, []⟩
    if checked.deleted then
      { checked with
        files := if dir.removes then [] else checked.files
        notices := checked.notices ++ if dir.removes then [] else [.failedToClear] }
    else checked
  else ⟨dir.files, false, []⟩

def checkLogs (peers : List PeerDir) : List Checked := peers.map checkDir

end SubutaiTray.Peer
