import SubutaiTray.Library.Splitting
import SubutaiTray.P2P.Swarms
import SubutaiTray.Qt.Numbers
import SubutaiTray.Qt.PlaceMarkers

/-!
The commands that the plugin of the browser sends (`CTrayServer::process_text_msg`).

A table of commands is searched for the first whose mark the message contains, wherever it stands;
its handler looks for the mark again and takes the message apart from there on.
-/
namespace SubutaiTray.WebSocket

variable {Client : Type}

/-- What the server does for the sender of a message. -/
inductive ServerAction (Client : Type) where
  | sendTextMessage (client : Client) (text : QString)
  | sshToContainerFromHub (envId contId : QString) (client : Client)
  | sshToContainerFromCc (envName contName : QString) (client : Client)
  | desktopToContainerFromHub (envId contId : QString) (client : Client)
  deriving DecidableEq

/-- The e-mail of the user, and what `get_rh_ip_via_libssh2` returns. -/
structure ServerWorld where
  currentEmail : QString
  err : SystemCallWrapperError
  rhIp : QString

/-- `CSystemCallWrapper::scwe_error_to_str` -/
def scweErrorToStr : SystemCallWrapperError → QString
  | .success => "SUCCESS".toList
  | .shellError => "Shell error".toList
  | .pipe => "Pipe error".toList
  | .setHandleInfo => "set_handle_info error".toList
  | .createProcess => "create process error".toList
  | .p2pIsNotRunnable => "p2p is not installed or hasn't execute rights".toList
  | .cantJoinSwarm => "can't join to swarm".toList
  | .containerIsNotReady => "container isn't ready".toList
  | .cantSendHandshake => "cannot handshake".toList
  | .sshLaunchFailed => "ssh launch failed".toList
  | .cantGetRhIp => "can't get rh ip address".toList
  | .cantGenerateSshKey => "can't generate ssh-key".toList
  | .timeout => "call timeout".toList
  | .whichCallFailed => "which call failed".toList
  | .processCrashed => "process crashed".toList
  | .last | .permissionDenied | .wrongFileName | .dirDoesntExist | .dirExists | .commandFailed
  | .wrongTempPath => "Unknown err".toList

/-! ## The handlers -/

def sdleLastErr : Int := 8

/-- The text of an answer, of which each handler has its own copy. -/
def replyFormat : QString := "code:%1%%%error==%2%%%success==%3".toList

def ssIpFormat : QString := "code:%1%%%error=%2%%%success==%3".toList

def errorReply (text msg : QString) : QString :=
  arg (arg (arg replyFormat (number (sdleLastErr + 1))) (arg text msg)) []

def handleCurrentUser (world : ServerWorld) (client : Client) : List (ServerAction Client) :=
  [.sendTextMessage client world.currentEmail]

def ssIpReply (world : ServerWorld) : QString :=
  if world.err = .success ∧ world.rhIp ≠ [] then
    arg (arg (arg ssIpFormat (number (SystemCallWrapperError.ctorIdx .success))) []) world.rhIp
  else arg (arg (arg ssIpFormat (number world.err.ctorIdx)) (scweErrorToStr world.err)) []

def handleSsIp (world : ServerWorld) (client : Client) : List (ServerAction Client) :=
  [.sendTextMessage client (ssIpReply world)]

/-- The message from `offset - 1` behind the begin of the mark on, taken apart. -/
def commandArgs (mark : QString) (offset : Nat) (msg : QString) : List QString :=
  let indexOf : Int := ((P2P.indexOf mark msg).map Int.ofNat).getD (-1)
  Splitting.split "%%%".toList (msg.drop (indexOf - 1 + offset).toNat)

/-- The three handlers of container commands. -/
def handleContainer (mark : QString) (offset : Nat)
    (action : QString → QString → Client → ServerAction Client) (msg : QString) (client : Client) :
    List (ServerAction Client) :=
  match commandArgs mark offset msg with
  | [_, env, cont] => [action env cont client]
  | _ => [.sendTextMessage client (errorReply "Wrong command \"%1\"".toList msg)]

def handleSsh (msg : QString) (client : Client) : List (ServerAction Client) :=
  handleContainer "cmd:ssh".toList 7 .sshToContainerFromHub msg client

def handleSshCc (msg : QString) (client : Client) : List (ServerAction Client) :=
  handleContainer "cmd:cc".toList 7 .sshToContainerFromCc msg client

def handleDesktop (msg : QString) (client : Client) : List (ServerAction Client) :=
  handleContainer "cmd:desktop".toList 11 .desktopToContainerFromHub msg client

def handleWrongCommand (msg : QString) (client : Client) : List (ServerAction Client) :=
  [.sendTextMessage client (errorReply "Unknown command \"%1\"".toList msg)]

inductive Handler where
  | currentUser
  | ssIp
  | ssh
  | desktop
  | sshCc
  | wrongCommand
  deriving DecidableEq

def Handler.run (world : ServerWorld) (msg : QString) (client : Client) :
    Handler → List (ServerAction Client)
  | .currentUser => handleCurrentUser world client
  | .ssIp => handleSsIp world client
  | .ssh => handleSsh msg client
  | .desktop => handleDesktop msg client
  | .sshCc => handleSshCc msg client
  | .wrongCommand => handleWrongCommand msg client

/-- The mark is in the field `start_with`. -/
def dctCommands : List (QString × Handler) :=
  [("cmd:current_user".toList, .currentUser),
    ("cmd:ss_ip".toList, .ssIp),
    ("cmd:ssh".toList, .ssh),
    ("cmd:desktop".toList, .desktop),
    ("cmd:cc".toList, .sshCc)]

def chosenHandler (msg : QString) : Handler :=
  (dctCommands.find? fun tc => (P2P.indexOf tc.1 msg).isSome).elim .wrongCommand Prod.snd

/-- Without a sender nothing is done. -/
def processTextMsg (world : ServerWorld) (sender : Option Client) (msg : QString) :
    List (ServerAction Client) :=
  sender.elim [] fun client => (chosenHandler msg).run world msg client

/-! ## The container commands -/

inductive ContainerCommand where
  | ssh
  | desktop
  | cc

namespace ContainerCommand

def mark : ContainerCommand → QString
  | .ssh => "cmd:ssh".toList
  | .desktop => "cmd:desktop".toList
  | .cc => "cmd:cc".toList

def handler : ContainerCommand → Handler
  | .ssh => .ssh
  | .desktop => .desktop
  | .cc => .sshCc

def action (command : ContainerCommand) (env cont : QString) (client : Client) : ServerAction Client :=
  match command with
  | .ssh => .sshToContainerFromHub env cont client
  | .desktop => .desktopToContainerFromHub env cont client
  | .cc => .sshToContainerFromCc env cont client

def message (command : ContainerCommand) (env cont : QString) : QString :=
  command.mark ++ ("%%%".toList ++ (env ++ ("%%%".toList ++ cont)))

/-- What the table has before the command. -/
def earlierCommands (command : ContainerCommand) : List (QString × Handler) :=
  dctCommands.takeWhile fun tc => tc.2 ≠ command.handler

def earlierMarks (command : ContainerCommand) : List QString := command.earlierCommands.map Prod.fst

end ContainerCommand

variable {world : ServerWorld} {client : Client} {command : ContainerCommand}
  {msg env cont : QString}

/-- A container handler answers, or it does its own action. -/
theorem handleContainer_cases (mark : QString) (offset : Nat)
    (action : QString → QString → Client → ServerAction Client) (msg : QString) (client : Client) :
    (∃ text, handleContainer mark offset action msg client = [.sendTextMessage client text]) ∨
      ∃ env cont, handleContainer mark offset action msg client = [action env cont client] := by
  rw [handleContainer]
  split
  · exact Or.inr ⟨_, _, rfl⟩
  · exact Or.inl ⟨_, rfl⟩

/-- What was done by a handler tells which it was. -/
theorem handler_of_run {handler : Handler}
    (h : handler.run world msg client = [command.action env cont client]) :
    handler = command.handler := by
  have hanswer (text : QString) : [.sendTextMessage client text] ≠ [command.action env cont client] := by
    cases command <;> simp [ContainerCommand.action]
  have hcontainer (mark : QString) (offset : Nat) (own : ContainerCommand)
      (hrun : handleContainer mark offset own.action msg client = [command.action env cont client]) :
      own = command := by
    rcases handleContainer_cases mark offset own.action msg client with ⟨text, htext⟩ | ⟨e, c, hown⟩
    · exact absurd (htext.symm.trans hrun) (hanswer text)
    · rw [hown] at hrun
      cases own <;> cases command <;> simp_all [ContainerCommand.action]
  cases handler with
  | currentUser => exact absurd h (hanswer _)
  | ssIp => exact absurd h (hanswer _)
  | wrongCommand => exact absurd h (hanswer _)
  | ssh => rw [← hcontainer _ _ .ssh h]; rfl
  | desktop => rw [← hcontainer _ _ .desktop h]; rfl
  | sshCc => rw [← hcontainer _ _ .cc h]; rfl

theorem commandArgs_append (mark rest : QString) (offset : Nat) :
    commandArgs mark offset (mark ++ rest) =
      Splitting.split "%%%".toList ((mark ++ rest).drop (offset - 1)) := by
  have hindex : ((((some 0).map Int.ofNat).getD (-1) : Int) - 1 + offset).toNat = offset - 1 := by
    rw [Option.map_some, Option.getD_some, Int.ofNat_eq_natCast]
    omega
  rw [commandArgs, P2P.indexOf_append_self, hindex]

/-- The handler of a command takes its message apart as it was put together. -/
theorem run_message (world : ServerWorld) (client : Client) (command : ContainerCommand)
    (henv : '%' ∉ env) (hcont : '%' ∉ cont) :
    command.handler.run world (command.message env cont) client =
      [command.action env cont client] := by
  have hargs {p : QString} (hp : '%' ∉ p) :
      Splitting.split "%%%".toList (p ++ ("%%%".toList ++ (env ++ ("%%%".toList ++ cont)))) =
        [p, env, cont] := by
    have hsep : "%%%".toList = '%' :: ['%', '%'] := rfl
    rw [hsep, Splitting.split_append_sep hp, Splitting.split_append_sep henv,
      Splitting.split_of_notMem hcont]
  have hrun (mark p : QString) (offset : Nat) (own : ContainerCommand) (hp : '%' ∉ p)
      (hmark : mark.drop (offset - 1) = p) (hoffset : offset - 1 ≤ mark.length) :
      handleContainer mark offset own.action
        (mark ++ ("%%%".toList ++ (env ++ ("%%%".toList ++ cont)))) client =
          [own.action env cont client] := by
    rw [handleContainer, commandArgs_append, List.drop_append_of_le_length hoffset, hmark, hargs hp]
  cases command with
  | ssh => exact hrun _ "h".toList 7 .ssh (by decide) rfl (by decide)
  | desktop => exact hrun _ "p".toList 11 .desktop (by decide) rfl (by decide)
  | cc => exact hrun _ [] 7 .cc (by decide) rfl (by decide)

/-- The marks have no percent sign, so they lie within the mark of the command or an id. -/
theorem infix_message_iff {mark : QString} (hmark : '%' ∉ mark) :
    mark <:+: command.message env cont ↔
      mark <:+: command.mark ∨ mark <:+: [] ∨ mark <:+: env ∨ mark <:+: cont := by
  have hsep (p s : QString) : mark <:+: p ++ ("%%%".toList ++ s) ↔
      mark <:+: p ∨ mark <:+: [] ∨ mark <:+: s := by
    have hcons : p ++ ("%%%".toList ++ s) = p ++ '%' :: ([] ++ '%' :: ([] ++ '%' :: s)) := rfl
    rw [hcons, Splitting.infix_append_cons_iff hmark, Splitting.infix_append_cons_iff hmark,
      Splitting.infix_append_cons_iff hmark]
    tauto
  rw [ContainerCommand.message, hsep, hsep]
  tauto

/-- The handler of a command is chosen if no command before it in the table has its mark in the
message. -/
theorem chosenHandler_eq_iff (hmark : command.mark <:+: msg) :
    chosenHandler msg = command.handler ↔ ∀ mark ∈ command.earlierMarks, ¬ mark <:+: msg := by
  obtain ⟨later, htable⟩ : ∃ later, dctCommands =
      command.earlierCommands ++ (command.mark, command.handler) :: later := by
    cases command <;> exact ⟨_, rfl⟩
  have hown := (P2P.indexOf_isSome_iff _ _).mpr hmark
  have hhere : ((command.mark, command.handler) :: later).find?
      (fun tc => (P2P.indexOf tc.1 msg).isSome) = some (command.mark, command.handler) :=
    List.find?_cons_of_pos hown
  rw [chosenHandler, htable, List.find?_append, hhere, ContainerCommand.earlierMarks, List.forall_mem_map]
  simp only [← P2P.indexOf_isSome_iff]
  cases hfound : command.earlierCommands.find? fun tc => (P2P.indexOf tc.1 msg).isSome with
  | none => exact iff_of_true rfl (List.find?_eq_none.mp hfound)
  | some tc =>
      have hmem := List.mem_of_find?_eq_some hfound
      have hfirst := List.find?_some hfound
      have hother := List.mem_takeWhile_imp hmem
      rw [decide_eq_true_eq] at hother
      exact iff_of_false hother fun hnot => hnot tc hmem hfirst

/-- A message does just what its command asks for, unless an id has the mark of a command that comes
first in the table. -/
theorem processTextMsg_message_iff (world : ServerWorld) (client : Client) (command : ContainerCommand)
    (env cont : QString) (henv : '%' ∉ env) (hcont : '%' ∉ cont) :
    processTextMsg world (some client) (command.message env cont) = [command.action env cont client] ↔
      ∀ mark ∈ command.earlierMarks, ¬ mark <:+: env ∧ ¬ mark <:+: cont := by
  have hchosen : processTextMsg world (some client) (command.message env cont) =
      [command.action env cont client] ↔
        chosenHandler (command.message env cont) = command.handler := by
    constructor
    · exact handler_of_run
    · intro hhandler
      rw [processTextMsg, Option.elim_some, hhandler]
      exact run_message world client command henv hcont
  have hfree : ∀ mark ∈ command.earlierMarks,
      '%' ∉ mark ∧ ¬ mark <:+: command.mark ∧ ¬ mark <:+: [] := by
    cases command <;> decide
  have hmark : command.mark <:+: command.message env cont := (List.prefix_append _ _).isInfix
  rw [hchosen, chosenHandler_eq_iff hmark]
  apply forall₂_congr
  intro mark hmem
  obtain ⟨hpercent, hown, hempty⟩ := hfree mark hmem
  rw [infix_message_iff hpercent, or_iff_right hown, or_iff_right hempty, not_or]

/-- An environment that is called like the mark of ssh cannot be shown on a desktop. -/
theorem not_processTextMsg_desktop :
    ¬ ∀ (world : ServerWorld) (client : Nat),
      processTextMsg world (some client)
          (ContainerCommand.desktop.message "cmd:ssh".toList "box".toList) =
        [ContainerCommand.desktop.action "cmd:ssh".toList "box".toList client] := by
  intro h
  exact absurd (h ⟨[], .success, []⟩ 0) (by decide)

theorem processTextMsg_message_box :
    processTextMsg ⟨[], .success, []⟩ (some 0) (ContainerCommand.cc.message "web".toList "box".toList) =
      [ContainerCommand.cc.action "web".toList "box".toList 0] :=
  (processTextMsg_message_iff ⟨[], .success, []⟩ 0 .cc "web".toList "box".toList (by decide)
    (by decide)).mpr (by decide)

end SubutaiTray.WebSocket
