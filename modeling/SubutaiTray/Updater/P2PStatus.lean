import SubutaiTray.Updater.InProgress

/-!
What the menu says about P2P (`P2PStatus_checker` and `update_p2p_status_sl`).

The checker takes a status when an installation or a removal is asked for, and another one when its end
is signalled. That what the menu says is so depends on the component: a request that it refuses has been
noted all the same, and an operation that ends without a signal leaves its status behind.
-/
namespace SubutaiTray.Updater

/-- `P2P_STATUS` -/
inductive P2PStatus where
  | ready
  | running
  | fail
  | loading
  | installing
  | uninstalling
  deriving DecidableEq

inductive P2PAction where
  | start
  | stop
  | install
  deriving DecidableEq

/-- `m_p2p_menu`, of which only one action can be shown at a time. -/
structure P2PMenu where
  title : QString
  icon : QString
  action : Option P2PAction
  deriving DecidableEq

/-- `status` is `m_status` of the checker, and `errors` what has been told so far. -/
structure P2PTray where
  status : P2PStatus
  p2pCurrentStatus : P2PStatus
  menu : P2PMenu
  errors : List QString

namespace P2PTray

def new : P2PTray where
  status := .loading
  p2pCurrentStatus := .loading
  menu := { title := "P2P is loading...".toList, icon := ":hub/loading.png".toList, action := none }
  errors := []

def beingInstalled : QString := "P2P is being installed".toList

def beingUninstalled : QString := "P2P is being uninstalled".toList

def notInstalledError : QString :=
  "P2P is not installed. You can't connect to the environments without P2P.".toList

def p2pLoading : QString := ":/hub/loading".toList

/-- The branches of the slot. -/
def showStatus (tray : P2PTray) : P2PStatus → P2PTray
  | .ready =>
      { tray with menu := ⟨"P2P is not running".toList, ":/hub/waiting".toList, some .start⟩ }
  | .running =>
      { tray with menu := ⟨"P2P is running".toList, ":/hub/running.png".toList, some .stop⟩ }
  | .fail =>
      { tray with
        errors :=
          if tray.p2pCurrentStatus = .loading then tray.errors ++ [notInstalledError] else tray.errors
        menu := ⟨"Cannot launch P2P".toList, ":/hub/stopped".toList, some .install⟩ }
  | .loading =>
      { tray with menu := { tray.menu with title := "P2P is loading...".toList, icon := p2pLoading } }
  | .installing =>
      { tray with menu := { tray.menu with title := "P2P is installing".toList, icon := p2pLoading } }
  | .uninstalling =>
      { tray with menu := { tray.menu with title := "P2P is uninstalling".toList, icon := p2pLoading } }

/-- The slot of the tray window for the signal `p2p_status`. -/
def updateP2pStatusSl (tray : P2PTray) (status : P2PStatus) : P2PTray :=
  let tray := { tray with p2pCurrentStatus := status }
  if tray.status = .installing then
    { tray with menu := { tray.menu with title := beingInstalled, icon := p2pLoading } }
  else if tray.status = .uninstalling then
    { tray with menu := { tray.menu with title := beingUninstalled, icon := p2pLoading } }
  else tray.showStatus status

/-- The checker takes a status and emits it. -/
def takeStatus (tray : P2PTray) (status : P2PStatus) : P2PTray :=
  { tray with status }.updateP2pStatusSl status

/-- `install_started` and `uninstall_started`; an update is not told to the checker. -/
def started (tray : P2PTray) : Kind → P2PTray
  | .update => tray
  | .install => tray.takeStatus .installing
  | .uninstall => tray.takeStatus .uninstalling

/-- `install_finished` and `uninstall_finished` -/
def finished (tray : P2PTray) : Notification → P2PTray
  | .updateFinished _ => tray
  | .installFinished _ _ => tray.takeStatus .ready
  | .uninstallFinished success _ => tray.takeStatus (if success then .fail else .ready)

/-- `update_status` -/
def updateStatus (launchable daemon : Bool) (tray : P2PTray) : P2PTray :=
  if !launchable then tray.updateP2pStatusSl .fail
  else if !daemon then tray.updateP2pStatusSl .ready
  else tray.updateP2pStatusSl .running

/-- The end of `launch_p2p`. -/
def launchP2p (tray : P2PTray) : P2PTray := tray.updateP2pStatusSl .loading

end P2PTray

/-- The component of P2P, the checker and the menu. -/
structure P2PSystem where
  component : IUpdaterComponent
  tray : P2PTray

/-- A request of an installation or a removal comes through `CHubComponentsUpdater`. -/
inductive P2PEvent where
  | component (event : IUpdaterComponent.Event)
  | updateStatus (launchable daemon : Bool)
  | launchP2p

namespace P2PSystem

open IUpdaterComponent

def new : P2PSystem where
  component := .new
  tray := .new

/-- What the operation at the index has signalled since. -/
def signalled (run run' : IUpdaterComponent) (index : Nat) : List Notification :=
  run'.operations[index]?.elim [] fun operation =>
    operation.notified.drop (run.operations[index]?.elim 0 fun before => before.notified.length)

/-- The signals of a step: a request starts the last operation. -/
def signals (run run' : IUpdaterComponent) : IUpdaterComponent.Event → List Notification
  | .request _ => signalled run run' run.operations.length
  | .answered index _ => signalled run run' index
  | .worked index _ _ => signalled run run' index
  | .downloadProgress .. => []

/-- `CHubComponentsUpdater::install` and `uninstall` tell the checker before they ask the component. -/
def announce (tray : P2PTray) : IUpdaterComponent.Event → P2PTray
  | .request kind => tray.started kind
  | _ => tray

def step (os : OS) (system : P2PSystem) : P2PEvent → Option P2PSystem
  | .component event =>
      (system.component.step (Updater.component os .p2p) event).map fun after =>
        { component := after
          tray := (signals system.component after event).foldl P2PTray.finished
            (announce system.tray event) }
  | .updateStatus launchable daemon =>
      some { system with tray := system.tray.updateStatus launchable daemon }
  | .launchP2p => some { system with tray := system.tray.launchP2p }

/-- An operation of the kind has been started and is not over. -/
def GoesOn (run : IUpdaterComponent) (kind : Kind) : Prop :=
  ∃ operation ∈ run.operations, operation.rest.waits = true ∧ operation.kind = kind

/-- The flag of the component is right, and the menu says that P2P is being installed while it is, and
that it is being uninstalled while it is. -/
structure Right (system : P2PSystem) : Prop where
  flag : system.component.InProgressRight
  installing : system.tray.menu.title = P2PTray.beingInstalled ↔ GoesOn system.component .install
  uninstalling : system.tray.menu.title = P2PTray.beingUninstalled ↔ GoesOn system.component .uninstall

/-- The step takes none of the exits without a signal, and asks for no installation and no removal while
an operation of another kind goes on. -/
def Harmless (os : OS) (system : P2PSystem) : P2PEvent → Prop
  | .component event =>
      IUpdaterComponent.Harmless os .p2p system.component event ∧
        ∀ kind ≠ .update, event = .request kind → system.component.inProgress = true →
          GoesOn system.component kind
  | _ => True

end P2PSystem

/-! ## The menu follows the checker -/

namespace P2PTray

structure MenuFollows (tray : P2PTray) : Prop where
  installing : tray.menu.title = beingInstalled ↔ tray.status = .installing
  uninstalling : tray.menu.title = beingUninstalled ↔ tray.status = .uninstalling

theorem title_showStatus (tray : P2PTray) (status : P2PStatus) :
    (tray.showStatus status).menu.title ∉ [beingInstalled, beingUninstalled] := by
  cases status <;> dsimp only [showStatus] <;> decide

theorem status_showStatus (tray : P2PTray) (status : P2PStatus) :
    (tray.showStatus status).status = tray.status := by
  cases status <;> rfl

theorem menuFollows_updateP2pStatusSl (tray : P2PTray) (status : P2PStatus) :
    (tray.updateP2pStatusSl status).MenuFollows := by
  have htitles : beingInstalled ≠ beingUninstalled := by decide
  rw [updateP2pStatusSl]
  dsimp only
  split
  · rename_i hstatus
    exact ⟨iff_of_true rfl hstatus, iff_of_false htitles (by dsimp only; rw [hstatus]; decide)⟩
  · rename_i hinstalling
    split
    · rename_i hstatus
      exact ⟨iff_of_false htitles.symm (by dsimp only; rw [hstatus]; decide), iff_of_true rfl hstatus⟩
    · rename_i huninstalling
      have htitle := title_showStatus { tray with p2pCurrentStatus := status } status
      have hstatus := status_showStatus { tray with p2pCurrentStatus := status } status
      rw [List.mem_cons, List.mem_singleton, not_or] at htitle
      refine ⟨iff_of_false htitle.1 ?_, iff_of_false htitle.2 ?_⟩
      · rw [hstatus]
        exact hinstalling
      · rw [hstatus]
        exact huninstalling

theorem status_updateP2pStatusSl (tray : P2PTray) (status : P2PStatus) :
    (tray.updateP2pStatusSl status).status = tray.status := by
  rw [updateP2pStatusSl]
  dsimp only
  split
  · rfl
  · split
    · rfl
    · exact status_showStatus _ status

/-- The status that is looked up comes through the slot. -/
theorem exists_updateStatus (launchable daemon : Bool) (tray : P2PTray) :
    ∃ status, tray.updateStatus launchable daemon = tray.updateP2pStatusSl status := by
  rw [updateStatus]
  split
  · exact ⟨_, rfl⟩
  · split
    · exact ⟨_, rfl⟩
    · exact ⟨_, rfl⟩

theorem status_takeStatus (tray : P2PTray) (status : P2PStatus) : (tray.takeStatus status).status = status :=
  status_updateP2pStatusSl _ status

theorem menuFollows_takeStatus (tray : P2PTray) (status : P2PStatus) :
    (tray.takeStatus status).MenuFollows :=
  menuFollows_updateP2pStatusSl _ status

theorem menuFollows_started {tray : P2PTray} (h : tray.MenuFollows) (kind : Kind) :
    (tray.started kind).MenuFollows := by
  cases kind with
  | update => exact h
  | install | uninstall => exact menuFollows_takeStatus tray _

theorem menuFollows_finished {tray : P2PTray} (h : tray.MenuFollows) (notification : Notification) :
    (tray.finished notification).MenuFollows := by
  cases notification with
  | updateFinished _ => exact h
  | installFinished _ _ | uninstallFinished _ _ => exact menuFollows_takeStatus tray _

/-- The checker has the status of an operation of the kind. -/
structure Shows (tray : P2PTray) (kind : Kind) : Prop where
  installing : tray.status = .installing ↔ kind = .install
  uninstalling : tray.status = .uninstalling ↔ kind = .uninstall

/-- The checker has the status of neither an installation nor a removal. -/
structure Idle (tray : P2PTray) : Prop where
  installing : tray.status ≠ .installing
  uninstalling : tray.status ≠ .uninstalling

theorem shows_started_of_ne {kind : Kind} (h : kind ≠ .update) (tray : P2PTray) :
    (tray.started kind).Shows kind := by
  cases kind with
  | update => exact absurd rfl h
  | install | uninstall =>
      rw [started]
      refine ⟨?_, ?_⟩
      · rw [status_takeStatus]
        decide
      · rw [status_takeStatus]
        decide

theorem shows_started {tray : P2PTray} (h : tray.Idle) (kind : Kind) : (tray.started kind).Shows kind := by
  by_cases hkind : kind = .update
  · rw [hkind]
    exact ⟨iff_of_false h.installing (by decide), iff_of_false h.uninstalling (by decide)⟩
  · exact shows_started_of_ne hkind tray

end P2PTray

def Notification.kind : Notification → Kind
  | .updateFinished _ => .update
  | .installFinished _ _ => .install
  | .uninstallFinished _ _ => .uninstall

theorem P2PTray.idle_finished {tray : P2PTray} {notification : Notification}
    (h : tray.Shows notification.kind) : (tray.finished notification).Idle := by
  cases notification with
  | updateFinished success =>
      have hnone (kind : Kind) (hkind : kind ≠ .update) : (Notification.updateFinished success).kind ≠ kind :=
        hkind.symm
      exact ⟨fun hstatus => hnone .install (by decide) (h.installing.mp hstatus),
        fun hstatus => hnone .uninstall (by decide) (h.uninstalling.mp hstatus)⟩
  | installFinished success version =>
      rw [finished]
      refine ⟨?_, ?_⟩
      · rw [status_takeStatus]
        decide
      · rw [status_takeStatus]
        decide
  | uninstallFinished success version =>
      rw [finished]
      refine ⟨?_, ?_⟩
      · rw [status_takeStatus]
        cases success <;> decide
      · rw [status_takeStatus]
        cases success <;> decide

/-! ## The signals of P2P -/

namespace Script

/-- All signals are those of operations of the kind. -/
def Sends (kind : Kind) : Script → Prop
  | .ends => True
  | .finish notification next => notification.kind = kind ∧ next.Sends kind
  | .clear next => next.Sends kind
  | .progress _ _ next => next.Sends kind
  | .returns _ next => next.Sends kind
  | .ask _ next => ∀ yes, (next yes).Sends kind
  | .download _ next => ∀ yes, (next yes).Sends kind
  | .work _ _ next => ∀ success version, (next success version).Sends kind

variable {kind : Kind}

theorem sends_ask (question : Question) {next : Bool → Script} (hno : (next false).Sends kind)
    (hyes : (next true).Sends kind) : (Script.ask question next).Sends kind := by
  intro yes
  cases yes with
  | false => exact hno
  | true => exact hyes

theorem sends_replaceExecutables (os : OS) (downloaded : Bool) {finished : Bool → Script}
    (h : ∀ replaced, (finished replaced).Sends kind) :
    (replaceExecutables os downloaded finished).Sends kind := by
  cases downloaded with
  | false => trivial
  | true =>
      have hset : (if os = .windows then finished true else Script.ask .permissionsSet finished).Sends kind := by
        split
        · exact h true
        · exact h
      refine sends_ask .srcExists (h true) (sends_ask .dstExists ?_ ?_)
      · exact sends_ask .srcCopied (h false) hset
      · refine sends_ask .tmpExists ?_ (sends_ask .tmpRemoved (h true) ?_)
        · exact sends_ask .dstRenamed (h false) (sends_ask .srcCopied (h false) hset)
        · exact sends_ask .dstRenamed (h false) (sends_ask .srcCopied (h false) hset)

theorem sends_downloadAndReplace (os : OS) : (downloadAndReplace os).Sends .update := by
  refine sends_ask .presented trivial (sends_ask .upToDate ?_ ?_)
  · intro success
    exact @sends_replaceExecutables .update os success
      (fun replaced => .finish (.updateFinished replaced) .ends) fun _ => ⟨rfl, trivial⟩
  · exact @sends_replaceExecutables .update os true
      (fun replaced => .finish (.updateFinished replaced) (.returns .success .ends)) fun _ => ⟨rfl, trivial⟩

theorem sends_withP2pPath {next : Script} (h : next.Sends kind) : (withP2pPath next).Sends kind :=
  sends_ask .pathFound trivial (sends_ask .pathUsable trivial h)

theorem sends_updateInternalLinux : updateInternalLinux.Sends .update := by
  refine sends_withP2pPath (sends_ask .presented trivial (sends_ask .upToDate ?_ ?_))
  · intro success
    cases success with
    | false => exact ⟨rfl, trivial⟩
    | true => exact fun _ _ => ⟨rfl, trivial⟩
  · exact fun _ _ => ⟨rfl, trivial⟩

theorem sends_p2p (os : OS) (kind : Kind) : ((component os .p2p).internal kind).Sends kind := by
  cases kind with
  | update =>
      change (if os = .linux then updateInternalLinux else updateInternalMacWin os).Sends .update
      split
      · exact sends_updateInternalLinux
      · exact sends_withP2pPath (sends_downloadAndReplace os)
  | install =>
      refine sends_ask .proceed ⟨rfl, trivial⟩ (sends_ask .presented trivial ?_)
      intro success
      cases success with
      | false => exact ⟨rfl, trivial⟩
      | true => exact fun _ _ => ⟨rfl, trivial⟩
  | uninstall => exact fun _ _ => ⟨rfl, trivial⟩

end Script

namespace P2PSystem

open IUpdaterComponent

variable {os : OS} {run run' : IUpdaterComponent} {index : Nat} {operation : Operation} {kind : Kind}

theorem advance_sends {script : Script} (run : IUpdaterComponent) (operation : Operation)
    (h : script.Sends kind) :
    ∃ said, (run.advance operation script).2.notified = operation.notified ++ said ∧
      (∀ notification ∈ said, notification.kind = kind) ∧
      (run.advance operation script).2.rest.Sends kind := by
  induction script generalizing run operation with
  | ends | ask _ _ | download _ _ | work _ _ _ =>
      exact ⟨[], (List.append_nil _).symm, fun _ hsaid => absurd hsaid List.not_mem_nil, h⟩
  | clear next ih | progress _ _ next ih | returns _ next ih => exact ih _ _ h
  | finish notification next ih =>
      obtain ⟨said, hnotified, hkinds, hrest⟩ := ih { run with inProgress := false }
        { operation with notified := operation.notified ++ [notification] } h.2
      refine ⟨notification :: said, ?_, List.forall_mem_cons.mpr ⟨h.1, hkinds⟩, hrest⟩
      rw [List.append_cons]
      exact hnotified

/-- The operations of P2P signal what they are. -/
def OwnSignals (run : IUpdaterComponent) : Prop :=
  ∀ operation ∈ run.operations, operation.rest.Sends operation.kind

/-- What a step of the component does: one operation is begun or goes on, and its signals are those of
the step; or nothing happens to the operations. -/
inductive Turn (run run' : IUpdaterComponent) (event : IUpdaterComponent.Event) : Prop
  | same (operations : run'.operations = run.operations) (silent : signals run run' event = [])
      (busy : ∀ kind, event = .request kind → run.inProgress = true)
  | turned (index : Nat) (operation : Operation) (turned : Turned run run' index operation)
      (own : operation.rest.Sends operation.kind)
      (signals : signals run run' event = operation.notified)
      (kinds : ∀ notification ∈ operation.notified, notification.kind = operation.kind)
      (begun : (event = .request operation.kind ∧ run.inProgress = false) ∨
        ((∀ kind, event ≠ .request kind) ∧ GoesOn run operation.kind))

theorem signalled_of_turned (h : Turned run run' index operation)
    (hbefore : ∀ before, run.operations[index]? = some before → before.notified = []) :
    signalled run run' index = operation.notified := by
  rw [signalled, h.here, Option.elim_some]
  cases hat : run.operations[index]? with
  | none => exact List.drop_zero
  | some before =>
      rw [Option.elim_some, hbefore before hat]
      exact List.drop_zero

theorem turn_resume (h : run.Tracked os .p2p)
    (hhere : run.operations[index]? = some operation) (hwaits : operation.rest.waits = true)
    {next : Script} (hnext : next.Sends operation.kind) {event : IUpdaterComponent.Event}
    (hevent : ∀ kind, event ≠ .request kind)
    (hsignals : signals run (run.resume index operation next) event =
      signalled run (run.resume index operation next) index) :
    Turn run (run.resume index operation next) event := by
  have hturned := turned_resume h hhere hwaits next
  have hunsaid := h.unsaid index operation hhere hwaits
  have hkind := kind_advance run operation next
  obtain ⟨said, hnotified, hkinds, hrest⟩ := advance_sends run operation hnext
  rw [hunsaid, List.nil_append] at hnotified
  refine .turned index _ hturned ?_ ?_ ?_ (Or.inr ⟨hevent, ?_⟩)
  · rw [hkind]
    exact hrest
  · rw [hsignals]
    apply signalled_of_turned hturned
    intro before hbefore
    rw [hhere] at hbefore
    rw [← Option.some.inj hbefore]
    exact hunsaid
  · rw [hnotified, hkind]
    exact hkinds
  · rw [hkind]
    exact ⟨operation, List.mem_of_getElem? hhere, hwaits, rfl⟩

theorem turn_request (h : run.Tracked os .p2p) (kind : Kind) :
    Turn run (run.request (Updater.component os .p2p) kind) (.request kind) := by
  cases hflag : run.inProgress with
  | true =>
      have hrefused : (run.request (Updater.component os .p2p) kind).operations = run.operations := by
        rw [request, if_pos hflag]
      refine .same hrefused ?_ fun _ _ => hflag
      rw [signals, signalled, hrefused, List.getElem?_eq_none (Nat.le_refl _)]
      rfl
  | false =>
      obtain ⟨start, -, hturned, -⟩ := turned_request h hflag (Updater.component os .p2p) kind
      have hkind := kind_advance start ⟨kind, .ends, []⟩ ((Updater.component os .p2p).internal kind)
      obtain ⟨said, hnotified, hkinds, hrest⟩ :=
        advance_sends start ⟨kind, .ends, []⟩ (Script.sends_p2p os kind)
      rw [List.nil_append] at hnotified
      refine .turned _ _ hturned ?_ ?_ ?_ (Or.inl ⟨?_, hflag⟩)
      · rw [hkind]
        exact hrest
      · apply signalled_of_turned hturned
        intro before hbefore
        rw [List.getElem?_eq_none (Nat.le_refl _)] at hbefore
        exact absurd hbefore.symm (Option.some_ne_none before)
      · rw [hnotified, hkind]
        exact hkinds
      · rw [hkind]

theorem turn_step {event : IUpdaterComponent.Event} (h : run.Tracked os .p2p) (hown : OwnSignals run)
    (hstep : run.step (Updater.component os .p2p) event = some run') : Turn run run' event := by
  cases event with
  | request kind =>
      rw [← Option.some.inj hstep]
      exact turn_request h kind
  | answered index yes =>
      rw [IUpdaterComponent.step] at hstep
      split at hstep
      · exact absurd hstep.symm (Option.some_ne_none run')
      · rename_i operation hhere
        have hsends := hown operation (List.mem_of_getElem? hhere)
        split at hstep
        · rename_i question next hrest
          rw [hrest] at hsends
          rw [← Option.some.inj hstep]
          exact turn_resume h hhere (by rw [hrest]; rfl) (hsends yes) (by simp) rfl
        · rename_i shown next hrest
          rw [hrest] at hsends
          rw [← Option.some.inj hstep]
          exact turn_resume h hhere (by rw [hrest]; rfl) (hsends yes) (by simp) rfl
        · exact absurd hstep.symm (Option.some_ne_none run')
  | worked index success version =>
      rw [IUpdaterComponent.step] at hstep
      split at hstep
      · exact absurd hstep.symm (Option.some_ne_none run')
      · rename_i operation hhere
        have hsends := hown operation (List.mem_of_getElem? hhere)
        split at hstep
        · rename_i silent cc next hrest
          rw [hrest] at hsends
          split at hstep
          · rw [← Option.some.inj hstep]
            exact turn_resume h hhere (by rw [hrest]; rfl) (hsends success version) (by simp) rfl
          · exact absurd hstep.symm (Option.some_ne_none run')
        · exact absurd hstep.symm (Option.some_ne_none run')
  | downloadProgress index rec total =>
      rw [IUpdaterComponent.step] at hstep
      split at hstep
      · exact absurd hstep.symm (Option.some_ne_none run')
      · split at hstep
        · rw [← Option.some.inj hstep]
          exact .same rfl rfl (by simp)
        · exact absurd hstep.symm (Option.some_ne_none run')

/-! ## What goes on -/

theorem goesOn_turned (h : Turned run run' index operation) (kind : Kind) :
    GoesOn run' kind ↔ operation.rest.waits = true ∧ operation.kind = kind := by
  constructor
  · rintro ⟨found, hmem, hwaits, hkind⟩
    obtain ⟨other, hother⟩ := List.mem_iff_getElem?.mp hmem
    obtain ⟨-, rfl⟩ := h.eq_of_waits hother hwaits
    exact ⟨hwaits, hkind⟩
  · exact fun hwaits => ⟨operation, List.mem_of_getElem? h.here, hwaits⟩

theorem goesOn_unique (h : run.Tracked os .p2p) {kind kind' : Kind} (hkind : GoesOn run kind) :
    GoesOn run kind' ↔ kind = kind' := by
  obtain ⟨found, hmem, hwaits, rfl⟩ := hkind
  constructor
  · rintro ⟨found', hmem', hwaits', rfl⟩
    obtain ⟨index, hat⟩ := List.mem_iff_getElem?.mp hmem
    obtain ⟨index', hat'⟩ := List.mem_iff_getElem?.mp hmem'
    rw [h.single index index' found found' hat hat' hwaits hwaits', hat'] at hat
    rw [Option.some.inj hat]
  · rintro rfl
    exact ⟨found, hmem, hwaits, rfl⟩

theorem not_goesOn (h : run.Tracked os .p2p) (hflag : run.inProgress = false) (kind : Kind) :
    ¬ GoesOn run kind := by
  rintro ⟨found, hmem, hwaits, -⟩
  obtain ⟨index, hat⟩ := List.mem_iff_getElem?.mp hmem
  exact Bool.false_ne_true (hflag.symm.trans (h.flag index found hat hwaits))

theorem ownSignals_turn {event : IUpdaterComponent.Event} (hown : OwnSignals run)
    (hturn : Turn run run' event) : OwnSignals run' := by
  intro found hmem
  cases hturn with
  | same operations _ _ =>
      rw [operations] at hmem
      exact hown found hmem
  | turned index operation turned own _ _ _ =>
      obtain ⟨other, hother⟩ := List.mem_iff_getElem?.mp hmem
      by_cases hindex : other = index
      · rw [hindex, turned.here] at hother
        rw [← Option.some.inj hother]
        exact own
      · exact hown found (List.mem_of_getElem? (turned.others other found hindex hother).1)

/-- The status of the checker is that of what goes on. -/
structure StatusRight (tray : P2PTray) (run : IUpdaterComponent) : Prop where
  installing : tray.status = .installing ↔ GoesOn run .install
  uninstalling : tray.status = .uninstalling ↔ GoesOn run .uninstall

variable {tray : P2PTray} {event : IUpdaterComponent.Event}

theorem idle_of_not_goesOn (hstatus : StatusRight tray run) (hnone : ∀ kind, ¬ GoesOn run kind) :
    tray.Idle :=
  ⟨fun h => hnone _ (hstatus.installing.mp h), fun h => hnone _ (hstatus.uninstalling.mp h)⟩

theorem shows_of_goesOn (h : run.Tracked os .p2p) (hstatus : StatusRight tray run)
    (hkind : GoesOn run kind) : tray.Shows kind :=
  ⟨hstatus.installing.trans (goesOn_unique h hkind), hstatus.uninstalling.trans (goesOn_unique h hkind)⟩

/-- The operation that the step is about waits again, or it has sent the signal that it is over. -/
theorem statusRight_turned (hturned : Turned run run' index operation) (hright : run'.InProgressRight)
    (hshows : tray.Shows operation.kind)
    (hkinds : ∀ notification ∈ operation.notified, notification.kind = operation.kind) :
    StatusRight (operation.notified.foldl P2PTray.finished tray) run' := by
  have honce := hright.once operation (List.mem_of_getElem? hturned.here)
  have hgoes := goesOn_turned hturned
  cases hwaits : operation.rest.waits with
  | true =>
      rw [hwaits, if_pos rfl, List.length_eq_zero_iff] at honce
      rw [honce]
      refine ⟨hshows.installing.trans ?_, hshows.uninstalling.trans ?_⟩
      · rw [hgoes, hwaits]
        exact (and_iff_right rfl).symm
      · rw [hgoes, hwaits]
        exact (and_iff_right rfl).symm
  | false =>
      rw [hwaits, if_neg Bool.false_ne_true, List.length_eq_one_iff] at honce
      obtain ⟨notification, hnotified⟩ := honce
      rw [hnotified, List.forall_mem_singleton] at hkinds
      have hidle := @P2PTray.idle_finished tray notification (by rw [hkinds]; exact hshows)
      have hnone (kind : Kind) : ¬ GoesOn run' kind := by
        rw [hgoes, hwaits]
        exact fun h => Bool.false_ne_true h.1
      rw [hnotified]
      exact ⟨iff_of_false hidle.installing (hnone _), iff_of_false hidle.uninstalling (hnone _)⟩

theorem statusRight_of_shows (h : run.Tracked os .p2p) (hshows : tray.Shows kind)
    (hkind : GoesOn run kind) : StatusRight tray run :=
  ⟨hshows.installing.trans (goesOn_unique h hkind).symm,
    hshows.uninstalling.trans (goesOn_unique h hkind).symm⟩

/-- A request that the component refuses has been told to the checker all the same. -/
theorem statusRight_refused_iff (h : run.Tracked os .p2p) (hstatus : StatusRight tray run) (kind : Kind) :
    StatusRight (tray.started kind) run ↔ (kind ≠ .update → GoesOn run kind) := by
  by_cases hkind : kind = .update
  · rw [hkind]
    exact iff_of_true hstatus fun hne => absurd rfl hne
  · have hshows := P2PTray.shows_started_of_ne hkind tray
    constructor
    · intro hafter _
      cases kind with
      | update => exact absurd rfl hkind
      | install => exact hafter.installing.mp (hshows.installing.mpr rfl)
      | uninstall => exact hafter.uninstalling.mp (hshows.uninstalling.mpr rfl)
    · exact fun hgoes => statusRight_of_shows h hshows (hgoes hkind)

theorem menuFollows_signals (h : tray.MenuFollows) (notifications : List Notification) :
    (notifications.foldl P2PTray.finished tray).MenuFollows :=
  Runs.invariant h (fun _ notification h => P2PTray.menuFollows_finished h notification) notifications

theorem menuFollows_announce (h : tray.MenuFollows) (event : IUpdaterComponent.Event) :
    (announce tray event).MenuFollows := by
  cases event with
  | request kind => exact P2PTray.menuFollows_started h kind
  | answered _ _ | worked _ _ _ | downloadProgress _ _ _ => exact h

/-! ## Runs -/

variable {system after : P2PSystem}

/-- What holds of every run, right or not. -/
structure Inv (os : OS) (system : P2PSystem) : Prop where
  tracked : system.component.Tracked os .p2p
  own : OwnSignals system.component
  follows : system.tray.MenuFollows

theorem right_iff (h : system.tray.MenuFollows) :
    system.Right ↔ system.component.InProgressRight ∧ StatusRight system.tray system.component := by
  constructor
  · intro hright
    exact ⟨hright.flag, h.installing.symm.trans hright.installing,
      h.uninstalling.symm.trans hright.uninstalling⟩
  · rintro ⟨hflag, hstatus⟩
    exact ⟨hflag, h.installing.trans hstatus.installing, h.uninstalling.trans hstatus.uninstalling⟩

theorem inv_step {event : P2PEvent} (h : Inv os system) (hstep : step os system event = some after) :
    Inv os after := by
  cases event with
  | component event =>
      obtain ⟨run', hcomponent, rfl⟩ := Option.map_eq_some_iff.mp hstep
      exact ⟨(kept_step h.tracked hcomponent).1, ownSignals_turn h.own (turn_step h.tracked h.own hcomponent),
        menuFollows_signals (menuFollows_announce h.follows event) _⟩
  | updateStatus launchable daemon =>
      rw [← Option.some.inj hstep]
      obtain ⟨status, hlooked⟩ := P2PTray.exists_updateStatus launchable daemon system.tray
      rw [hlooked]
      exact ⟨h.tracked, h.own, P2PTray.menuFollows_updateP2pStatusSl _ status⟩
  | launchP2p =>
      rw [← Option.some.inj hstep]
      exact ⟨h.tracked, h.own, P2PTray.menuFollows_updateP2pStatusSl _ _⟩

/-- A step of the component after which its flag is right. -/
theorem statusRight_component_iff (h : Inv os system) (hright : system.Right)
    (hturn : Turn system.component run' event) (hflag : run'.InProgressRight) :
    StatusRight ((signals system.component run' event).foldl P2PTray.finished (announce system.tray event))
        run' ↔
      ∀ kind ≠ .update, event = .request kind → system.component.inProgress = true →
        GoesOn system.component kind := by
  obtain ⟨-, hstatus⟩ := (right_iff h.follows).mp hright
  cases hturn with
  | same operations silent busy =>
      have hgoes (kind : Kind) : GoesOn run' kind ↔ GoesOn system.component kind := by
        rw [GoesOn, GoesOn, operations]
      have hsame (tray : P2PTray) : StatusRight tray run' ↔ StatusRight tray system.component :=
        ⟨fun h => ⟨h.installing.trans (hgoes _), h.uninstalling.trans (hgoes _)⟩,
          fun h => ⟨h.installing.trans (hgoes _).symm, h.uninstalling.trans (hgoes _).symm⟩⟩
      rw [silent, List.foldl_nil, hsame]
      cases event with
      | request kind =>
          rw [announce, statusRight_refused_iff h.tracked hstatus]
          constructor
          · intro hkind other hother hrequest _
            obtain rfl := IUpdaterComponent.Event.request.inj hrequest
            exact hkind hother
          · exact fun hall hkind => hall kind hkind rfl (busy kind rfl)
      | answered _ _ | worked _ _ _ | downloadProgress _ _ _ => exact iff_of_true hstatus fun _ _ => nofun
  | turned index operation turned own signals kinds begun =>
      have hshows : (announce system.tray event).Shows operation.kind := by
        rcases begun with ⟨rfl, hfree⟩ | ⟨hother, hgoes⟩
        · exact P2PTray.shows_started (idle_of_not_goesOn hstatus (not_goesOn h.tracked hfree)) _
        · have hannounce : announce system.tray event = system.tray := by
            cases event with
            | request kind => exact absurd rfl (hother kind)
            | answered _ _ | worked _ _ _ | downloadProgress _ _ _ => rfl
          rw [hannounce]
          exact shows_of_goesOn h.tracked hstatus hgoes
      rw [signals]
      refine iff_of_true (statusRight_turned turned hflag hshows kinds) ?_
      rintro kind - rfl hbusy
      rcases begun with ⟨-, hfree⟩ | ⟨hother, -⟩
      · exact absurd (hfree.symm.trans hbusy) Bool.false_ne_true
      · exact absurd rfl (hother kind)

theorem right_step_iff {event : P2PEvent} (h : Inv os system) (hright : system.Right)
    (hstep : step os system event = some after) : after.Right ↔ system.Harmless os event := by
  have hafter := inv_step h hstep
  have hbefore := (right_iff h.follows).mp hright
  have hslot (status : P2PStatus) :
      StatusRight (system.tray.updateP2pStatusSl status) system.component := by
    have hsame := P2PTray.status_updateP2pStatusSl system.tray status
    exact ⟨hsame ▸ hbefore.2.installing, hsame ▸ hbefore.2.uninstalling⟩
  rw [right_iff hafter.follows]
  cases event with
  | component event =>
      obtain ⟨run', hcomponent, rfl⟩ := Option.map_eq_some_iff.mp hstep
      have hkept := (kept_step h.tracked hcomponent).2 hright.flag
      rw [hkept, Harmless]
      refine and_congr_right fun hharmless => ?_
      exact statusRight_component_iff h hright (turn_step h.tracked h.own hcomponent)
        (hkept.mpr hharmless)
  | updateStatus launchable daemon =>
      rw [← Option.some.inj hstep]
      obtain ⟨status, hlooked⟩ := P2PTray.exists_updateStatus launchable daemon system.tray
      rw [hlooked]
      exact iff_of_true ⟨hbefore.1, hslot status⟩ trivial
  | launchP2p =>
      rw [← Option.some.inj hstep]
      exact iff_of_true ⟨hbefore.1, hslot .loading⟩ trivial

theorem inv_new (os : OS) : Inv os new :=
  ⟨tracked_new os .p2p, fun _ hmem => absurd hmem List.not_mem_nil,
    ⟨iff_of_false (by decide) (by decide), iff_of_false (by decide) (by decide)⟩⟩

theorem right_new : new.Right := by
  have hnone (kind : Kind) : ¬ GoesOn new.component kind := fun ⟨_, hmem, _⟩ => List.not_mem_nil hmem
  exact ⟨inProgressRight_new, iff_of_false (by decide) (hnone _), iff_of_false (by decide) (hnone _)⟩

/-- The menu tells of an installation and a removal of P2P just while it goes on, all along a run, if and
only if no operation ends without a signal and no other operation is asked for meanwhile. -/
theorem menuRight_iff_harmless (os : OS) (events : List P2PEvent) :
    Runs.AlwaysPartial (step os) Right new events ↔ Runs.EachStepPartial (step os) (Harmless os) new events :=
  Runs.alwaysPartial_iff_eachStepPartial (inv_new os) (fun _ _ _ => inv_step) right_new
    (fun _ _ _ => right_step_iff) events

/-- A removal is asked for during an update, and stays in the menu when the update is over. -/
example :
    ([.component (.request .update), .component (.answered 0 true), .component (.answered 0 true),
      .component (.answered 0 true), .component (.answered 0 true), .component (.request .uninstall),
      .component (.worked 0 true [])].foldlM (step .linux) new).map
        (fun system => (system.component.inProgress, system.tray.menu.title)) =
      some (false, P2PTray.beingUninstalled) := by
  decide

end P2PSystem

end SubutaiTray.Updater
