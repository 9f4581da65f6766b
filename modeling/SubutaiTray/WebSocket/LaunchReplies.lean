import SubutaiTray.Hub.ContainerLaunch
import SubutaiTray.Hub.RefreshLoop
import SubutaiTray.WebSocket.Replies

/-!
The tray between the plugin of the browser, the hub and the daemon.

Messages of any clients come in between the refreshes of the hub, the rounds and jobs of the connector
and the checks of the keys, and each is handled with what these have left. The slot of a finished command
is called from within the command, so it is still the sender's answer.
-/
namespace SubutaiTray.WebSocket

open SubutaiTray.Hub SubutaiTray.P2P

variable {Client : Type}

/-- A text that was sent, with the result of the command that it tells about. -/
structure Answer (Client : Type) where
  client : Client
  text : QString
  result : Option SshDesktopLaunchError

/-- The parts of the program that a message looks at. `asked`, `answers` and `launches` remember the
senders of the messages, the texts that were sent and what it tried to open. -/
structure Tray (Client : Type) where
  hub : HubController
  connections : P2PRun
  locals : LocalTable
  sshKeys : SshKeyController
  asked : List Client
  answers : List (Answer Client)
  launches : List LaunchCall

/-- A round of the connector reads the environments of the hub, and so do the keys when the environments
were updated. -/
inductive TrayEvent (Client : Type) where
  | hub (event : HubEvent)
  | p2pRound (isDesktopPeer : Bool) (directory : Option LxcDirectory) (state : P2PState)
  | p2pJob (event : P2PEvent)
  | environmentsUpdated
  | keys (event : SshKeyController.Event)
  | message (world : ServerWorld) (machine : LaunchMachine) (sender : Option Client) (msg : QString)

namespace Tray

def new : Tray Client where
  hub := HubController.new
  connections := P2PRun.new
  locals := LocalTable.new
  sshKeys := SshKeyController.new
  asked := []
  answers := []
  launches := []

def view (tray : Tray Client) : LaunchView where
  lstEnvironments := tray.hub.lstEnvironments
  connector := tray.connections.connector
  locals := tray.locals
  sshKeys := tray.sshKeys

/-- The texts that the slot of a finished command sends. -/
def finishedAnswers (actions : Option (List (ServerAction Client))) (result : SshDesktopLaunchError) :
    List (Answer Client) :=
  (actions.getD []).filterMap fun
    | .sendTextMessage client text => some ⟨client, text, some result⟩
    | _ => none

/-- What becomes of an action: the texts, and what it tries to open. -/
def perform (view : LaunchView) (machine : LaunchMachine) :
    ServerAction Client → List (Answer Client) × List LaunchCall
  | .sendTextMessage client text => ([⟨client, text, none⟩], [])
  | .sshToContainerFromHub envId contId client =>
      let result := view.sshToContainerFromHub machine envId contId
      (finishedAnswers (sshToContainerFinished result.1.number (some client)) result.1, result.2)
  | .sshToContainerFromCc envName contName client =>
      let result := view.sshToContainerFromCc machine envName contName
      (finishedAnswers (sshToContainerFinished result.1.number (some client)) result.1, result.2)
  | .desktopToContainerFromHub envId contId client =>
      let result := view.desktopToContainerFromHub machine envId contId
      (finishedAnswers (desktopToContainerFinished result.1.number (some client)) result.1, result.2)

def processMessage (tray : Tray Client) (world : ServerWorld) (machine : LaunchMachine)
    (sender : Option Client) (msg : QString) : Tray Client :=
  let done := (processTextMsg world sender msg).map (perform tray.view machine)
  { tray with
    asked := tray.asked ++ sender.toList
    answers := tray.answers ++ done.flatMap Prod.fst
    launches := tray.launches ++ done.flatMap Prod.snd }

def step (tray : Tray Client) : TrayEvent Client → Option (Tray Client)
  | .hub event => (tray.hub.step event).map fun hub => { tray with hub := hub }
  | .p2pRound isDesktopPeer directory state =>
      let envs := tray.hub.lstEnvironments
      (tray.connections.step (.updateStatus envs state)).map fun connections =>
        { tray with
          connections := connections
          locals := tray.locals.updateStatus ⟨envs, isDesktopPeer, directory⟩ }
  | .p2pJob (.updateStatus _ _) => none
  | .p2pJob event =>
      (tray.connections.step event).map fun connections => { tray with connections := connections }
  | .environmentsUpdated =>
      let envs := tray.hub.lstHealthyEnvironments.map fun env => (env.id, env.name)
      (tray.sshKeys.step (.refreshHealthyEnvs envs)).map fun sshKeys => { tray with sshKeys := sshKeys }
  | .keys (.refreshHealthyEnvs _) => none
  | .keys event => (tray.sshKeys.step event).map fun sshKeys => { tray with sshKeys := sshKeys }
  | .message world machine sender msg => some (tray.processMessage world machine sender msg)

end Tray

/-- Whether the server tried to open something for the answer. -/
def Answer.launched (answer : Answer Client) : Bool :=
  answer.result = some .success ∨ answer.result = some .systemCallFailed

/-- The answer to a command is in form and tells its result. -/
def Answer.Formed (answer : Answer Client) : Prop :=
  ∀ result ∈ answer.result, ∃ error success, answer.text = replyText result.number error success

/-- Each message has its answer, to its sender and in turn; each launch has its own as well. -/
structure Tray.Accounted (tray : Tray Client) : Prop where
  answered : tray.answers.map Answer.client = tray.asked
  launched : tray.launches.length = tray.answers.countP Answer.launched
  formed : ∀ answer ∈ tray.answers, answer.Formed

def ServerAction.client : ServerAction Client → Client
  | .sendTextMessage client _ => client
  | .sshToContainerFromHub _ _ client => client
  | .sshToContainerFromCc _ _ client => client
  | .desktopToContainerFromHub _ _ client => client

/-! ## One message -/

theorem exists_handleContainer (mark : QString) (offset : Nat)
    {action : QString → QString → Client → ServerAction Client}
    (haction : ∀ env cont client, (action env cont client).client = client) (msg : QString)
    (client : Client) : ∃ done, handleContainer mark offset action msg client = [done] ∧ done.client = client := by
  rcases handleContainer_cases mark offset action msg client with ⟨text, htext⟩ | ⟨env, cont, hown⟩
  · exact ⟨_, htext, rfl⟩
  · exact ⟨_, hown, haction env cont client⟩

/-- Every handler does one thing for the sender. -/
theorem exists_run (handler : Handler) (world : ServerWorld) (msg : QString) (client : Client) :
    ∃ done, handler.run world msg client = [done] ∧ done.client = client := by
  cases handler with
  | currentUser | ssIp | wrongCommand => exact ⟨_, rfl, rfl⟩
  | ssh | desktop | sshCc => exact exists_handleContainer _ _ (fun _ _ _ => rfl) msg client

theorem exists_finishedReply (result : SshDesktopLaunchError) :
    ∃ error success, finishedReply result.number = some (replyText result.number error success) := by
  rcases finishedReply_cases result.number with ⟨-, hreply⟩ | ⟨hindex, -⟩
  · exact hreply
  · refine absurd ?_ hindex
    cases result <;> decide

/-- What is asked of an answer and of what the server tried to open for it. -/
structure Settled (client : Client) (done : List (Answer Client) × List LaunchCall)
    (answer : Answer Client) : Prop where
  answers : done.1 = [answer]
  client : answer.client = client
  launched : done.2.length = if answer.launched then 1 else 0
  formed : answer.Formed

theorem exists_settled_finished (client : Client) {result : SshDesktopLaunchError × List LaunchCall}
    (h : LaunchView.Accounted result) :
    ∃ answer, Settled client
      (Tray.finishedAnswers (containerFinished result.1.number (some client)) result.1, result.2) answer := by
  obtain ⟨error, success, hreply⟩ := exists_finishedReply result.1
  refine ⟨⟨client, replyText result.1.number error success, some result.1⟩, ?_⟩
  refine ⟨?_, rfl, ?_, ?_⟩
  · rw [containerFinished, hreply]
    rfl
  · rw [LaunchView.Accounted] at h
    simp [h, Answer.launched]
  · intro told htold
    rw [← Option.some.inj htold]
    exact ⟨error, success, rfl⟩

theorem exists_settled (view : LaunchView) (machine : LaunchMachine) (action : ServerAction Client) :
    ∃ answer, Settled action.client (Tray.perform view machine action) answer := by
  cases action with
  | sendTextMessage client text =>
      refine ⟨⟨client, text, none⟩, rfl, rfl, rfl, ?_⟩
      exact fun told htold => absurd htold.symm (Option.some_ne_none told)
  | sshToContainerFromHub envId contId client =>
      exact exists_settled_finished client
        (LaunchView.accounted_finished fun _ _ => LaunchView.accounted_sshToContainerInternal _)
  | sshToContainerFromCc envName contName client =>
      exact exists_settled_finished client
        (LaunchView.accounted_finished fun _ _ => LaunchView.accounted_sshToContainerInternal _)
  | desktopToContainerFromHub envId contId client =>
      exact exists_settled_finished client
        (LaunchView.accounted_finished fun _ _ => LaunchView.accounted_desktopToContainerInternal _)

/-! ## Runs -/

namespace Tray

variable {tray tray' : Tray Client}

theorem Accounted.processMessage (h : tray.Accounted) (world : ServerWorld) (machine : LaunchMachine)
    (sender : Option Client) (msg : QString) : (tray.processMessage world machine sender msg).Accounted := by
  cases sender with
  | none =>
      refine ⟨?_, ?_, ?_⟩
      · simpa [Tray.processMessage, processTextMsg] using h.answered
      · simpa [Tray.processMessage, processTextMsg] using h.launched
      · simpa [Tray.processMessage, processTextMsg] using h.formed
  | some client =>
      obtain ⟨action, hrun, hclient⟩ := exists_run (chosenHandler msg) world msg client
      obtain ⟨answer, hsettled⟩ := exists_settled tray.view machine action
      have hactions : processTextMsg world (some client) msg = [action] := hrun
      rw [Tray.processMessage, hactions, List.map_singleton, List.flatMap_singleton, List.flatMap_singleton,
        hsettled.answers]
      refine ⟨?_, ?_, ?_⟩
      · rw [List.map_append, h.answered, List.map_singleton, hsettled.client, hclient]
        rfl
      · rw [List.length_append, h.launched, hsettled.launched, List.countP_append, List.countP_singleton]
      · rw [List.forall_mem_append, List.forall_mem_singleton]
        exact ⟨h.formed, hsettled.formed⟩

/-- Nothing else answers a message or opens anything. -/
theorem Accounted.step (h : tray.Accounted) {event : TrayEvent Client}
    (hstep : tray.step event = some tray') : tray'.Accounted := by
  have hother {α : Type} {result : Option α} {f : α → Tray Client} (hsame : ∀ a, (f a).Accounted)
      (hmap : result.map f = some tray') : tray'.Accounted := by
    obtain ⟨a, -, ha⟩ := Option.map_eq_some_iff.mp hmap
    rw [← ha]
    exact hsame a
  have hkept : ∀ {hub connections locals sshKeys},
      Accounted { tray with hub := hub, connections := connections, locals := locals, sshKeys := sshKeys } :=
    ⟨h.answered, h.launched, h.formed⟩
  cases event with
  | hub event => exact hother (fun _ => hkept) hstep
  | p2pRound isDesktopPeer directory state => exact hother (fun _ => hkept) hstep
  | environmentsUpdated =>
      rw [Tray.step] at hstep
      exact hother (fun _ => hkept) hstep
  | p2pJob event =>
      cases event with
      | updateStatus envs state => exact absurd hstep.symm (Option.some_ne_none tray')
      | jobStarted | jobEnded _ | connectionFinished _ _ =>
          exact hother (fun _ => hkept) hstep
  | keys event =>
      cases event with
      | refreshHealthyEnvs envs => exact absurd hstep.symm (Option.some_ne_none tray')
      | refreshKeyFiles _ | checkEnvironmentKeys _ _ | removeKey _ _ _ | uploadKey _ | removed _
      | uploaded _ =>
          rw [Tray.step] at hstep
          · exact hother (fun _ => hkept) hstep
          · exact fun _ => SshKeyController.Event.noConfusion
  | message world machine sender msg =>
      rw [← Option.some.inj hstep]
      exact h.processMessage world machine sender msg

/-- In every run each message of a client is answered by one text, to that client and in the order of the
messages, and the answers that tell of a success or of a failed system call are as many as the terminals
and desktops that it tried to open. -/
theorem accounted_run (events : List (TrayEvent Client)) :
    Runs.AlwaysPartial step Accounted (new : Tray Client) events := by
  intro past tray _ hrun
  have hnew : (new : Tray Client).Accounted :=
    ⟨rfl, rfl, fun answer hanswer => absurd hanswer List.not_mem_nil⟩
  exact Runs.invariant_of_foldlM hnew (fun _ _ _ h hstep => h.step hstep) hrun

end Tray

end SubutaiTray.WebSocket
