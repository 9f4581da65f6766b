import Mathlib.Data.Finset.Insert
import SubutaiTray.Library.Runs
import SubutaiTray.P2P.Interfaces

/-!
The connector of swarms and containers (`P2PConnector`, `P2PController::is_ready`).

A round compares the environments of the hub with the swarms that are joined and
starts joins, container checks and leaves. The pool has one thread, which takes them in
the order they were started, and the slots are told of their ends at any time after that,
also after later rounds.
-/
namespace SubutaiTray.P2P

open SubutaiTray.Hub

inductive P2PConnectionStatus where
  | connectionSuccess
  | cantJoinSwarm
  | cantConnectCont
  | p2pNotInstalled
  deriving DecidableEq

/-- A job of the pool. -/
inductive StatusChecker where
  | swarmConnector (env : CEnvironment)
  | rhStatusChecker (env : CEnvironment) (cont : CHubContainer)
  | swarmLeaver (hash : QString)
  deriving DecidableEq

/-- The two sets of the connector, the jobs that wait for the thread, the one that runs, and
those that have ended without their slot having been called. -/
structure P2PConnector where
  connectedConts : Finset (QString × QString)
  connectedEnvs : Finset QString
  pool : List StatusChecker
  running : Option StatusChecker
  finished : List (StatusChecker × Bool)

/-- What a round finds on the machine. -/
inductive P2PState where
  | notOperational
  | operational (joinedSwarms : List QString) (swarmInterfaces : List (QString × QString))

namespace P2PConnector

def new : P2PConnector :=
  { connectedConts := ∅, connectedEnvs := ∅, pool := [], running := none, finished := [] }

/-- `startWork` -/
def startWork (connector : P2PConnector) (job : StatusChecker) : P2PConnector :=
  { connector with pool := connector.pool ++ [job] }

def joinSwarm (connector : P2PConnector) (env : CEnvironment) : P2PConnector :=
  connector.startWork (.swarmConnector env)

def leaveSwarm (connector : P2PConnector) (hash : QString) : P2PConnector :=
  connector.startWork (.swarmLeaver hash)

def checkRh (env : CEnvironment) (connector : P2PConnector) (cont : CHubContainer) : P2PConnector :=
  connector.startWork (.rhStatusChecker env cont)

def checkStatus (connector : P2PConnector) (env : CEnvironment) : P2PConnector :=
  env.lstContainers.foldl (checkRh env) connector

/-- The critical section of `update_status`. -/
def updateConnected (joinedSwarms : List QString) (connectedEnvs : Finset QString)
    (env : CEnvironment) : Finset QString :=
  if env.hash ∈ joinedSwarms then insert env.hash connectedEnvs else connectedEnvs.erase env.hash

def updateStatus (hubEnvironments : List CEnvironment) (connector : P2PConnector) :
    P2PState → P2PConnector
  | .notOperational => { connector with connectedConts := ∅, connectedEnvs := ∅ }
  | .operational joinedSwarms swarmInterfaces =>
      let hubEnvironments := setInterfaces swarmInterfaces hubEnvironments
      let connector :=
        { connector with
          connectedEnvs :=
            hubEnvironments.foldl (updateConnected joinedSwarms) connector.connectedEnvs }
      let connector :=
        (hubEnvironments.filter fun env => env.hash ∉ joinedSwarms ∧ env.healthy).foldl
          joinSwarm connector
      let connector :=
        (hubEnvironments.filter fun env => env.hash ∈ joinedSwarms).foldl checkStatus connector
      (joinedSwarms.filter fun hash => hubEnvironments.all fun env => env.hash ≠ hash).foldl
        leaveSwarm connector

/-- The thread takes the job that has waited longest. -/
def jobStarted (connector : P2PConnector) : Option P2PConnector :=
  match connector.running, connector.pool with
  | none, job :: jobs => some { connector with pool := jobs, running := some job }
  | _, _ => none

def jobEnded (job : StatusChecker) (success : Bool) (connector : P2PConnector) : P2PConnector :=
  { connector with running := none, finished := connector.finished ++ [(job, success)] }

/-- The slots of `connection_finished`. The result of a leave does not matter. -/
def connectionFinished (success : Bool) (connector : P2PConnector) : StatusChecker → P2PConnector
  | .swarmConnector env =>
      { connector with
        connectedEnvs :=
          if success then insert env.hash connector.connectedEnvs
          else connector.connectedEnvs.erase env.hash
        finished := connector.finished.erase (.swarmConnector env, success) }
  | .rhStatusChecker env cont =>
      { connector with
        connectedConts :=
          if success then insert (env.hash, cont.id) connector.connectedConts
          else connector.connectedConts.erase (env.hash, cont.id)
        finished := connector.finished.erase (.rhStatusChecker env cont, success) }
  | .swarmLeaver hash =>
      { connector with
        connectedEnvs := connector.connectedEnvs.erase hash
        finished := connector.finished.erase (.swarmLeaver hash, success) }

def envConnected (connector : P2PConnector) (envHash : QString) : Bool :=
  envHash ∈ connector.connectedEnvs

def contConnected (connector : P2PConnector) (envHash contId : QString) : Bool :=
  (envHash, contId) ∈ connector.connectedConts

/-- `P2PController::is_ready` -/
def isReady (connector : P2PConnector) (env : CEnvironment) (cont : CHubContainer) :
    P2PConnectionStatus :=
  if !connector.envConnected env.hash then .cantJoinSwarm
  else if !connector.contConnected env.hash cont.id then .cantConnectCont
  else .connectionSuccess

end P2PConnector

/-- The swarm whose container is checked. -/
def StatusChecker.checkedSwarm : StatusChecker → Option QString
  | .rhStatusChecker env _ => some env.hash
  | _ => none

inductive P2PEvent where
  | updateStatus (hubEnvironments : List CEnvironment) (state : P2PState)
  | jobStarted
  | jobEnded (success : Bool)
  | connectionFinished (job : StatusChecker) (success : Bool)

/-- The connector with what happened so far: whether the daemon was up in the latest round
and whether that round has just ended, the latest report, the swarms that are joined as far
as the reports and the jobs since then tell, the containers of which a check that was started
after the latest join of their swarm has succeeded, and whether the swarm of the running
check was joined after the check was started. -/
structure P2PRun where
  connector : P2PConnector
  daemonUp : Bool
  updated : Bool
  joinedSwarms : List QString
  joined : Finset QString
  checked : Finset (QString × QString)
  outdated : Bool

namespace P2PRun

def new : P2PRun :=
  { connector := P2PConnector.new, daemonUp := false, updated := false, joinedSwarms := [],
    joined := ∅, checked := ∅, outdated := false }

/-- The swarms are joined now, so the checks that were started before are out of date. -/
def join (run : P2PRun) (hashes : List QString) : P2PRun :=
  { run with
    joined := run.joined ∪ hashes.toFinset
    checked := run.checked.filter fun pair => pair.1 ∉ hashes
    outdated :=
      run.outdated ||
        hashes.any fun hash => run.connector.running.bind StatusChecker.checkedSwarm = some hash }

/-- What a job that has ended tells. -/
def learn (run : P2PRun) (success : Bool) : StatusChecker → P2PRun
  | .swarmConnector env => if success then run.join [env.hash] else run
  | .rhStatusChecker env cont =>
      if success && !run.outdated then
        { run with checked := insert (env.hash, cont.id) run.checked }
      else run
  | .swarmLeaver hash => if success then { run with joined := run.joined.erase hash } else run

/-- A swarm that is reported though it was not joined before has been joined again. -/
def step (run : P2PRun) : P2PEvent → Option P2PRun
  | .updateStatus hubEnvironments .notOperational =>
      some
        { run with
          connector := run.connector.updateStatus hubEnvironments .notOperational
          daemonUp := false
          updated := false
          joined := ∅ }
  | .updateStatus hubEnvironments (.operational joinedSwarms swarmInterfaces) =>
      some
        { run.join (joinedSwarms.filter fun hash => hash ∉ run.joined) with
          connector :=
            run.connector.updateStatus hubEnvironments (.operational joinedSwarms swarmInterfaces)
          daemonUp := true
          updated := true
          joinedSwarms := joinedSwarms
          joined := joinedSwarms.toFinset }
  | .jobStarted =>
      run.connector.jobStarted.map fun connector =>
        { run with connector := connector, updated := false, outdated := false }
  | .jobEnded success =>
      run.connector.running.map fun job =>
        { run.learn success job with
          connector := run.connector.jobEnded job success
          updated := false }
  | .connectionFinished job success =>
      if (job, success) ∈ run.connector.finished then
        some { run with connector := run.connector.connectionFinished success job, updated := false }
      else none

structure Sound (run : P2PRun) : Prop where
  ready : ∀ env cont, run.connector.isReady env cont = .connectionSuccess →
    run.daemonUp = true ∧ env.hash ∈ run.joinedSwarms ∧ (env.hash, cont.id) ∈ run.checked
  joined : run.updated = true → ∀ hash ∈ run.connector.connectedEnvs, hash ∈ run.joinedSwarms

/-- What may happen without making the connector unsound. -/
def Harmless (run : P2PRun) : P2PEvent → Prop
  | .updateStatus hubEnvironments (.operational joinedSwarms _) =>
      (∀ hash ∈ run.connector.connectedEnvs, hash ∉ hubEnvironments.map CEnvironment.hash →
        hash ∈ joinedSwarms) ∧
      ∀ hash ∈ joinedSwarms,
        hash ∈ hubEnvironments.map CEnvironment.hash ∨ hash ∈ run.connector.connectedEnvs →
          ∀ contId, (hash, contId) ∈ run.connector.connectedConts →
            hash ∈ run.joined ∧
              (hash ∈ run.connector.connectedEnvs ∨ (hash, contId) ∈ run.checked)
  | .jobEnded true =>
      ∀ env, run.connector.running = some (.swarmConnector env) →
        env.hash ∈ run.connector.connectedEnvs →
          ∀ contId, (env.hash, contId) ∉ run.connector.connectedConts
  | .connectionFinished (.swarmConnector env) true =>
      ∀ contId, (env.hash, contId) ∈ run.connector.connectedConts →
        run.daemonUp = true ∧ env.hash ∈ run.joinedSwarms ∧ (env.hash, contId) ∈ run.checked
  | .connectionFinished (.rhStatusChecker env cont) true =>
      env.hash ∈ run.connector.connectedEnvs →
        run.daemonUp = true ∧ env.hash ∈ run.joinedSwarms ∧ (env.hash, cont.id) ∈ run.checked
  | _ => True

end P2PRun

namespace P2PConnector

theorem isReady_iff (connector : P2PConnector) (env : CEnvironment) (cont : CHubContainer) :
    connector.isReady env cont = .connectionSuccess ↔
      env.hash ∈ connector.connectedEnvs ∧ (env.hash, cont.id) ∈ connector.connectedConts := by
  rw [isReady, envConnected, contConnected]
  by_cases henv : env.hash ∈ connector.connectedEnvs
  · rw [decide_eq_true henv, Bool.not_true, if_neg Bool.false_ne_true, and_iff_right henv]
    by_cases hcont : (env.hash, cont.id) ∈ connector.connectedConts
    · rw [decide_eq_true hcont]
      exact iff_of_true rfl hcont
    · rw [decide_eq_false hcont]
      exact iff_of_false P2PConnectionStatus.noConfusion hcont
  · rw [decide_eq_false henv]
    exact iff_of_false P2PConnectionStatus.noConfusion fun h => henv h.1

/-- Starting work does not touch the sets. -/
structure SameSets (connector connector' : P2PConnector) : Prop where
  connectedEnvs : connector'.connectedEnvs = connector.connectedEnvs
  connectedConts : connector'.connectedConts = connector.connectedConts

theorem SameSets.trans {a b c : P2PConnector} (h : SameSets a b) (h' : SameSets b c) :
    SameSets a c :=
  ⟨h'.connectedEnvs.trans h.connectedEnvs, h'.connectedConts.trans h.connectedConts⟩

theorem sameSets_foldl {α : Type} {f : P2PConnector → α → P2PConnector}
    (hf : ∀ connector a, SameSets connector (f connector a)) (connector : P2PConnector)
    (as : List α) : SameSets connector (as.foldl f connector) := by
  induction as generalizing connector with
  | nil => exact ⟨rfl, rfl⟩
  | cons a as ih => exact (hf connector a).trans (ih (f connector a))

theorem sameSets_startWork (connector : P2PConnector) (job : StatusChecker) :
    SameSets connector (connector.startWork job) :=
  ⟨rfl, rfl⟩

theorem sameSets_checkStatus (connector : P2PConnector) (env : CEnvironment) :
    SameSets connector (connector.checkStatus env) :=
  sameSets_foldl (fun connector cont => connector.sameSets_startWork (.rhStatusChecker env cont))
    connector env.lstContainers

theorem sameSets_updateStatus (connector : P2PConnector) (hubEnvironments : List CEnvironment)
    (joinedSwarms : List QString) (swarmInterfaces : List (QString × QString)) :
    SameSets
      { connector with
        connectedEnvs := (setInterfaces swarmInterfaces hubEnvironments).foldl
          (updateConnected joinedSwarms) connector.connectedEnvs }
      (connector.updateStatus hubEnvironments (.operational joinedSwarms swarmInterfaces)) := by
  rw [updateStatus]
  refine SameSets.trans ?_
    (sameSets_foldl (fun connector hash => connector.sameSets_startWork (.swarmLeaver hash)) _ _)
  refine SameSets.trans ?_ (sameSets_foldl sameSets_checkStatus _ _)
  exact sameSets_foldl (fun connector env => connector.sameSets_startWork (.swarmConnector env)) _ _

theorem sameSets_of_jobStarted {connector connector' : P2PConnector}
    (h : connector.jobStarted = some connector') : SameSets connector connector' := by
  rw [jobStarted] at h
  split at h
  · rw [← Option.some.inj h]
    exact ⟨rfl, rfl⟩
  · exact absurd h.symm (Option.some_ne_none _)

theorem mem_foldl_updateConnected (joinedSwarms : List QString) (envs : List CEnvironment)
    (connectedEnvs : Finset QString) (hash : QString) :
    hash ∈ envs.foldl (updateConnected joinedSwarms) connectedEnvs ↔
      if hash ∈ envs.map CEnvironment.hash then hash ∈ joinedSwarms
      else hash ∈ connectedEnvs := by
  induction envs generalizing connectedEnvs with
  | nil => rfl
  | cons env envs ih =>
      rw [List.foldl_cons, ih, List.map_cons]
      by_cases hlater : hash ∈ envs.map CEnvironment.hash
      · rw [if_pos hlater, if_pos (List.mem_cons_of_mem env.hash hlater)]
      · rw [if_neg hlater, updateConnected]
        by_cases hhead : hash = env.hash
        · rw [hhead, if_pos List.mem_cons_self]
          split
          · exact iff_of_true (Finset.mem_insert_self _ _) ‹_›
          · exact iff_of_false (Finset.notMem_erase _ _) ‹_›
        · rw [if_neg fun hmem => hlater (List.mem_of_ne_of_mem hhead hmem)]
          split
          · rw [Finset.mem_insert, or_iff_right hhead]
          · rw [Finset.mem_erase, and_iff_right hhead]

theorem mem_connectedEnvs_updateStatus (connector : P2PConnector)
    (hubEnvironments : List CEnvironment) (joinedSwarms : List QString)
    (swarmInterfaces : List (QString × QString)) (hash : QString) :
    hash ∈ (connector.updateStatus hubEnvironments
        (.operational joinedSwarms swarmInterfaces)).connectedEnvs ↔
      if hash ∈ hubEnvironments.map CEnvironment.hash then hash ∈ joinedSwarms
      else hash ∈ connector.connectedEnvs := by
  rw [← map_hash_setInterfaces swarmInterfaces hubEnvironments, ← mem_foldl_updateConnected,
    (connector.sameSets_updateStatus hubEnvironments joinedSwarms swarmInterfaces).connectedEnvs]

end P2PConnector

namespace P2PRun

/-- The container of the swarm counts as connected. -/
def Ready (run : P2PRun) (hash contId : QString) : Prop :=
  hash ∈ run.connector.connectedEnvs ∧ (hash, contId) ∈ run.connector.connectedConts

def Justified (run : P2PRun) (hash contId : QString) : Prop :=
  run.daemonUp = true ∧ hash ∈ run.joinedSwarms ∧ (hash, contId) ∈ run.checked

variable {run run' : P2PRun}

theorem mem_checked_join {hashes : List QString} {hash contId : QString} :
    (hash, contId) ∈ (run.join hashes).checked ↔ (hash, contId) ∈ run.checked ∧ hash ∉ hashes := by
  rw [join, Finset.mem_filter]

theorem sound_iff : run.Sound ↔
    (∀ hash contId, run.Ready hash contId → run.Justified hash contId) ∧
      (run.updated = true → ∀ hash ∈ run.connector.connectedEnvs, hash ∈ run.joinedSwarms) := by
  constructor
  · intro h
    refine ⟨fun hash contId hready => ?_, h.joined⟩
    exact h.ready ⟨[], hash, [], [], [], 0, [], [], -1, []⟩ ⟨[], [], contId, [], false, [], [], [], []⟩
      ((P2PConnector.isReady_iff _ _ _).mpr hready)
  · intro h
    refine ⟨fun env cont hready => ?_, h.2⟩
    exact h.1 env.hash cont.id ((P2PConnector.isReady_iff _ _ _).mp hready)

/-- Between the rounds only readiness counts. -/
theorem sound_iff_of_not_updated (hupdated : run'.updated = false) :
    run'.Sound ↔ ∀ hash contId, run'.Ready hash contId → run'.Justified hash contId := by
  rw [sound_iff, and_iff_left]
  intro h
  exact absurd (hupdated.symm.trans h) Bool.false_ne_true

theorem sound_updateStatus_iff (h : run.Sound) {hubEnvironments : List CEnvironment}
    {joinedSwarms : List QString} {swarmInterfaces : List (QString × QString)}
    (hstep : run.step (.updateStatus hubEnvironments (.operational joinedSwarms swarmInterfaces)) =
      some run') :
    run'.Sound ↔ run.Harmless
      (.updateStatus hubEnvironments (.operational joinedSwarms swarmInterfaces)) := by
  have hold := (sound_iff.mp h).1
  have henvs := run.connector.mem_connectedEnvs_updateStatus hubEnvironments joinedSwarms
    swarmInterfaces
  have hconts := (run.connector.sameSets_updateStatus hubEnvironments joinedSwarms
    swarmInterfaces).connectedConts
  have hknown {hash : QString} (hmem : hash ∈ joinedSwarms) :
      hash ∉ joinedSwarms.filter (fun hash => hash ∉ run.joined) ↔ hash ∈ run.joined := by
    rw [List.mem_filter, and_iff_right hmem, decide_eq_true_iff, not_not]
  rw [← Option.some.inj hstep, sound_iff]
  constructor
  · intro hsound
    constructor
    · intro hash hbefore hgone
      apply hsound.2 rfl hash
      rw [henvs, if_neg hgone]
      exact hbefore
    · intro hash hjoined hlisted contId hcont
      have hmem : hash ∈ (run.connector.updateStatus hubEnvironments
          (.operational joinedSwarms swarmInterfaces)).connectedEnvs := by
        rw [henvs]
        split
        · exact hjoined
        · exact hlisted.resolve_left ‹_›
      have hchecked := mem_checked_join.mp (hsound.1 hash contId ⟨hmem, hconts ▸ hcont⟩).2.2
      exact ⟨(hknown hjoined).mp hchecked.2, Or.inr hchecked.1⟩
  · intro hsafe
    have hjoined : ∀ hash ∈ (run.connector.updateStatus hubEnvironments
        (.operational joinedSwarms swarmInterfaces)).connectedEnvs, hash ∈ joinedSwarms := by
      intro hash hmem
      rw [henvs] at hmem
      split at hmem
      · exact hmem
      · exact hsafe.1 hash hmem ‹_›
    refine ⟨fun hash contId hready => ⟨rfl, hjoined hash hready.1, ?_⟩, fun _ => hjoined⟩
    have hcont : (hash, contId) ∈ run.connector.connectedConts := hconts ▸ hready.2
    have hlisted : hash ∈ hubEnvironments.map CEnvironment.hash ∨
        hash ∈ run.connector.connectedEnvs := by
      have hmem := (henvs hash).mp hready.1
      split at hmem
      · exact Or.inl ‹_›
      · exact Or.inr hmem
    obtain ⟨hbefore, hchecked⟩ := hsafe.2 hash (hjoined hash hready.1) hlisted contId hcont
    refine mem_checked_join.mpr ⟨?_, (hknown (hjoined hash hready.1)).mpr hbefore⟩
    cases hchecked with
    | inl henv => exact (hold hash contId ⟨henv, hcont⟩).2.2
    | inr hmem => exact hmem

theorem sound_jobEnded_iff (h : run.Sound) {success : Bool}
    (hstep : run.step (.jobEnded success) = some run') :
    run'.Sound ↔ run.Harmless (.jobEnded success) := by
  have hold := (sound_iff.mp h).1
  obtain ⟨job, hrunning, hrun'⟩ := Option.map_eq_some_iff.mp hstep
  have hkept (hsame : ∀ hash contId, run.Ready hash contId → run.Justified hash contId →
      (run.learn success job).Justified hash contId) : run'.Sound := by
    rw [← hrun', sound_iff_of_not_updated rfl]
    intro hash contId hready
    exact hsame hash contId hready (hold hash contId hready)
  cases success with
  | false =>
      refine iff_of_true (hkept ?_) trivial
      intro hash contId _ hjustified
      cases job with
      | swarmConnector env => exact hjustified
      | rhStatusChecker env cont => exact hjustified
      | swarmLeaver hash => exact hjustified
  | true =>
      rw [Harmless, hrunning]
      cases job with
      | swarmConnector env =>
          constructor
          · intro hsound other hother henv contId hcont
            rw [← StatusChecker.swarmConnector.inj (Option.some.inj hother)] at henv hcont
            rw [← hrun', sound_iff_of_not_updated rfl] at hsound
            have hchecked := mem_checked_join.mp (hsound env.hash contId ⟨henv, hcont⟩).2.2
            exact hchecked.2 List.mem_cons_self
          · intro hsafe
            refine hkept fun hash contId hready hjustified => ?_
            refine ⟨hjustified.1, hjustified.2.1, mem_checked_join.mpr ⟨hjustified.2.2, ?_⟩⟩
            intro hmem
            rw [List.mem_singleton.mp hmem] at hready
            exact hsafe env rfl hready.1 contId hready.2
      | rhStatusChecker env cont =>
          refine iff_of_true (hkept ?_) fun env hother => StatusChecker.noConfusion (Option.some.inj hother)
          intro hash contId _ hjustified
          rw [learn]
          split
          · exact ⟨hjustified.1, hjustified.2.1, Finset.mem_insert_of_mem hjustified.2.2⟩
          · exact hjustified
      | swarmLeaver hash =>
          refine iff_of_true (hkept ?_) fun env hother => StatusChecker.noConfusion (Option.some.inj hother)
          intro hash contId _ hjustified
          exact hjustified

theorem sound_connectionFinished_iff (h : run.Sound) {job : StatusChecker} {success : Bool}
    (hstep : run.step (.connectionFinished job success) = some run') :
    run'.Sound ↔ run.Harmless (.connectionFinished job success) := by
  have hold := (sound_iff.mp h).1
  rw [step] at hstep
  split at hstep
  · rw [← Option.some.inj hstep, sound_iff_of_not_updated rfl]
    cases job with
    | swarmConnector env =>
        cases success with
        | false =>
            refine iff_of_true ?_ trivial
            intro hash contId hready
            exact hold hash contId ⟨Finset.mem_of_mem_erase hready.1, hready.2⟩
        | true =>
            constructor
            · intro hsound contId hcont
              exact hsound env.hash contId ⟨Finset.mem_insert_self _ _, hcont⟩
            · intro hsafe hash contId hready
              by_cases hhash : hash = env.hash
              · rw [hhash] at hready ⊢
                exact hsafe contId hready.2
              · exact hold hash contId ⟨Finset.mem_of_mem_insert_of_ne hready.1 hhash, hready.2⟩
    | rhStatusChecker env cont =>
        cases success with
        | false =>
            refine iff_of_true ?_ trivial
            intro hash contId hready
            exact hold hash contId ⟨hready.1, Finset.mem_of_mem_erase hready.2⟩
        | true =>
            constructor
            · intro hsound henv
              exact hsound env.hash cont.id ⟨henv, Finset.mem_insert_self _ _⟩
            · intro hsafe hash contId hready
              cases Finset.mem_insert.mp hready.2 with
              | inl heq =>
                  rw [(Prod.mk.inj heq).1] at hready ⊢
                  rw [(Prod.mk.inj heq).2]
                  exact hsafe hready.1
              | inr hbefore => exact hold hash contId ⟨hready.1, hbefore⟩
    | swarmLeaver left =>
        refine iff_of_true ?_ trivial
        intro hash contId hready
        exact hold hash contId ⟨Finset.mem_of_mem_erase hready.1, hready.2⟩
  · exact absurd hstep.symm (Option.some_ne_none _)

theorem sound_step_iff {event : P2PEvent} (h : run.Sound) (hstep : run.step event = some run') :
    run'.Sound ↔ run.Harmless event := by
  cases event with
  | updateStatus hubEnvironments state =>
      cases state with
      | notOperational =>
          rw [← Option.some.inj hstep]
          refine iff_of_true ?_ trivial
          rw [sound_iff_of_not_updated rfl]
          intro hash contId hready
          exact absurd hready.1 (Finset.notMem_empty hash)
      | operational joinedSwarms swarmInterfaces => exact sound_updateStatus_iff h hstep
  | jobStarted =>
      obtain ⟨connector, hstarted, hrun'⟩ := Option.map_eq_some_iff.mp hstep
      have hsame := P2PConnector.sameSets_of_jobStarted hstarted
      rw [← hrun']
      refine iff_of_true ?_ trivial
      rw [sound_iff_of_not_updated rfl]
      intro hash contId hready
      exact (sound_iff.mp h).1 hash contId ⟨hsame.connectedEnvs ▸ hready.1, hsame.connectedConts ▸ hready.2⟩
  | jobEnded success => exact sound_jobEnded_iff h hstep
  | connectionFinished job success => exact sound_connectionFinished_iff h hstep

theorem sound_new : new.Sound := by
  rw [sound_iff_of_not_updated rfl]
  intro hash contId hready
  exact absurd hready.1 (Finset.notMem_empty hash)

/-- The connector is sound exactly in the runs whose steps are harmless. -/
theorem sound_iff_harmless (events : List P2PEvent) :
    Runs.AlwaysPartial step Sound new events ↔ Runs.EachStepPartial step Harmless new events := by
  apply Runs.alwaysPartial_iff_eachStepPartial_of_turn sound_new
  intro run event run' h hstep
  exact sound_step_iff h hstep

def rejoinedCont : CHubContainer :=
  { name := "cont".toList, ip := [], id := ['7'], port := [], isDesktop := false, rhIp := [],
    rhId := [], peerId := [], deskEnv := [] }

def rejoinedEnv : CEnvironment :=
  { newcomer.toCEnvironment with lstContainers := [rejoinedCont] }

/-- A swarm was gone and is joined again while its own join still waits. The container
counts as connected, and the check that said so is older than the join. -/
theorem not_sound_rejoined :
    ¬ Runs.AlwaysPartial step Sound new
      [.updateStatus [rejoinedEnv] (.operational [rejoinedEnv.hash] []),
        .jobStarted,
        .jobEnded true,
        .connectionFinished
          (.rhStatusChecker { rejoinedEnv with baseInterfaceId := 0 } rejoinedCont) true,
        .updateStatus [rejoinedEnv] (.operational [] []),
        .updateStatus [rejoinedEnv] (.operational [rejoinedEnv.hash] [])] := by
  intro always
  have hsound := always _ _ (List.prefix_refl _) rfl
  have hready := hsound.ready rejoinedEnv rejoinedCont rfl
  exact absurd hready.2.2 (by decide)

end P2PRun

end SubutaiTray.P2P
