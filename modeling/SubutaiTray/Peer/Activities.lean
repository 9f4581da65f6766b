import SubutaiTray.Library.Runs
import SubutaiTray.Peer.Rounds

/-!
One activity of vagrant for each peer.

Both registries are sets of directories. An activity that ends removes its directory
also when another activity of that directory goes on, and a status check that waited in
the pool runs without a look at the commands.
-/
namespace SubutaiTray.Peer

namespace PeerController

variable (toNativeSeparators : QString → QString)

/-- A status check that is in flight, from the pool to the arrival of its answer. -/
def InFlight (run : PeerController) (check : Question) : Prop :=
  check.info = .status ∧ (.peerInfo check ∈ run.pool ∨ .peerInfo check ∈ run.answered)

/-- The status check that the pool runs. -/
def Executes (run : PeerController) (check : Question) : Prop :=
  check.info = .status ∧ run.pool.head? = some (.peerInfo check)

structure OneActivity (run : PeerController) : Prop where
  commands : ∀ dir ∈ run.commands, dir ∈ run.runningCommands
  checks : ∀ check, run.InFlight check → toNativeSeparators check.dir ∈ run.checkingStatutes
  apart : ∀ check, run.Executes check → toNativeSeparators check.dir ∉ run.runningCommands

/-- The steps after which there is still one activity for each peer. -/
def Exclusive (run : PeerController) : Event → Prop
  | .poolFinished =>
      ∀ check : Question, check.info = .status → run.pool.tail.head? = some (.peerInfo check) →
        toNativeSeparators check.dir ∉ run.runningCommands
  | .peerInfo question _ =>
      question.info = .status → ∀ check,
        { run with answered := run.answered.erase (.peerInfo question) }.InFlight check →
          toNativeSeparators check.dir ≠ toNativeSeparators question.dir
  | .commandRegistered dir => ∀ check, run.Executes check → toNativeSeparators check.dir ≠ dir
  | .commandUnregistered dir => dir ∉ run.commands.erase dir
  | .refresh | .vmInformation .. | .restReply .. | .finishCurrentUpdate => True

variable {toNativeSeparators} {run run' : PeerController}

/-- What an answer leaves alone, but for questions at the end of the pool. -/
structure SameActivities (more : List Task) (run run' : PeerController) : Prop where
  pool : run'.pool = run.pool ++ more
  answered : run'.answered = run.answered
  checkingStatutes : run'.checkingStatutes = run.checkingStatutes
  runningCommands : run'.runningCommands = run.runningCommands
  commands : run'.commands = run.commands

/-- The tasks begin no status check. -/
def NoChecks (tasks : List Task) : Prop :=
  ∀ check : Question, .peerInfo check ∈ tasks → check.info ≠ .status

theorem sameActivities_gotPeerInfo (info : PeerInfo) (name dir output : QString) (run : PeerController) :
    SameActivities [] run (run.gotPeerInfo info name dir output) := by
  rw [gotPeerInfo]
  split
  · exact ⟨(List.append_nil _).symm, rfl, rfl, rfl, rfl⟩
  · dsimp only
    split
    · exact ⟨(List.append_nil _).symm, rfl, rfl, rfl, rfl⟩
    · exact ⟨(List.append_nil _).symm, rfl, rfl, rfl, rfl⟩

theorem sameActivities_askOn (question : Question) (output : QString) (run : PeerController) :
    ∃ more, NoChecks more ∧
      SameActivities more run (run.askOn toNativeSeparators question output) := by
  obtain hself | hport | hrest := @askOn_cases toNativeSeparators question output run
  · rw [hself.2]
    exact ⟨[], fun _ hmem => absurd hmem List.not_mem_nil, (List.append_nil _).symm, rfl, rfl, rfl, rfl⟩
  · rw [hport.2]
    refine ⟨[.peerInfo { question with info := .port }], ?_, rfl, rfl, rfl, rfl, rfl⟩
    intro check hcheck hstatus
    rw [List.mem_singleton, Task.peerInfo.injEq] at hcheck
    rw [hcheck] at hstatus
    exact PeerInfo.noConfusion hstatus
  · rw [hrest.2]
    exact ⟨[], fun _ hmem => absurd hmem List.not_mem_nil, (List.append_nil _).symm, rfl, rfl, rfl, rfl⟩

theorem sameActivities_parsePeerInfo (question : Question) (output : QString) (run : PeerController) :
    ∃ more, NoChecks more ∧
      SameActivities more run (run.parsePeerInfo toNativeSeparators question output) := by
  rw [parsePeerInfo]
  split
  · exact ⟨[], fun _ hmem => absurd hmem List.not_mem_nil, (List.append_nil _).symm, rfl, rfl, rfl, rfl⟩
  · obtain ⟨more, hnone, hask⟩ := @sameActivities_askOn toNativeSeparators question output run
    have hgot := sameActivities_gotPeerInfo question.info question.name question.dir
      (if output = [] then undefinedString else output) (run.askOn toNativeSeparators question output)
    refine ⟨more, hnone, ?_, hgot.answered.trans hask.answered,
      hgot.checkingStatutes.trans hask.checkingStatutes,
      hgot.runningCommands.trans hask.runningCommands, hgot.commands.trans hask.commands⟩
    rw [hgot.pool, hask.pool, List.append_nil]

/-- Questions that are no checks, at the end of the pool, do not matter. -/
theorem SameActivities.oneActivity_iff {more : List Task} (h : SameActivities more run run')
    (hnone : NoChecks more) :
    run'.OneActivity toNativeSeparators ↔ run.OneActivity toNativeSeparators := by
  have hflight (check : Question) : run'.InFlight check ↔ run.InFlight check := by
    rw [InFlight, InFlight, h.pool, h.answered]
    apply and_congr_right
    intro hstatus
    apply or_congr_left
    rw [List.mem_append]
    exact or_iff_left fun hmem => hnone check hmem hstatus
  have hruns (check : Question) : run'.Executes check ↔ run.Executes check := by
    rw [Executes, Executes, h.pool]
    apply and_congr_right
    intro hstatus
    cases run.pool with
    | nil =>
        refine iff_of_false ?_ (Option.some_ne_none _).symm
        intro hhead
        exact hnone check (List.mem_of_mem_head? hhead) hstatus
    | cons task rest => exact Iff.rfl
  constructor
  · intro hone
    refine ⟨?_, ?_, ?_⟩
    · rw [← h.commands, ← h.runningCommands]
      exact hone.commands
    · intro check hcheck
      rw [← h.checkingStatutes]
      exact hone.checks check ((hflight check).mpr hcheck)
    · intro check hcheck
      rw [← h.runningCommands]
      exact hone.apart check ((hruns check).mpr hcheck)
  · intro hone
    refine ⟨?_, ?_, ?_⟩
    · rw [h.commands, h.runningCommands]
      exact hone.commands
    · intro check hcheck
      rw [h.checkingStatutes]
      exact hone.checks check ((hflight check).mp hcheck)
    · intro check hcheck
      rw [h.runningCommands]
      exact hone.apart check ((hruns check).mp hcheck)

/-! ### The search -/

theorem oneActivity_getPeerInfo (h : run.OneActivity toNativeSeparators) (folder : Folder) :
    (run.getPeerInfo toNativeSeparators folder).OneActivity toNativeSeparators := by
  obtain hskip | hask := @getPeerInfo_cases toNativeSeparators run folder
  · rw [hskip.2]
    exact h
  · have hfree : toNativeSeparators folder.absolutePath ∉ run.runningCommands :=
      fun hrunning => hask.1 fun _ => hrunning
    rw [hask.2.2]
    refine ⟨h.commands, ?_, ?_⟩
    · intro check hcheck
      obtain ⟨hstatus, hwhere⟩ := hcheck
      have hold : toNativeSeparators check.dir ∈ run.checkingStatutes ∨ check = folder.question := by
        rw [startWork] at hwhere
        dsimp only at hwhere
        rw [List.mem_append, List.mem_singleton, Task.peerInfo.injEq] at hwhere
        obtain (hpool | hnew) | hanswered := hwhere
        · exact Or.inl (h.checks check ⟨hstatus, Or.inl hpool⟩)
        · exact Or.inr hnew
        · exact Or.inl (h.checks check ⟨hstatus, Or.inr hanswered⟩)
      have hcheckFolder : folder.question.info = .status := rfl
      rw [startWork]
      dsimp only
      rw [if_pos hcheckFolder, Finset.mem_insert]
      cases hold with
      | inl hchecking => exact Or.inr hchecking
      | inr hnew =>
          rw [hnew]
          exact Or.inl rfl
    · intro check hcheck
      obtain ⟨hstatus, hhead⟩ := hcheck
      have hpool : (run.pool ++ [Task.peerInfo folder.question]).head? = some (.peerInfo check) := hhead
      cases hold : run.pool with
      | nil =>
          rw [hold, List.nil_append, List.head?_cons, Option.some.injEq, Task.peerInfo.injEq] at hpool
          rw [← hpool]
          exact hfree
      | cons task rest =>
          rw [hold, List.cons_append, List.head?_cons] at hpool
          have hbefore : run.pool.head? = some (.peerInfo check) := by
            rw [hold]
            exact hpool
          exact h.apart check ⟨hstatus, hbefore⟩

theorem oneActivity_searchLocal (h : run.OneActivity toNativeSeparators)
    (globalStatus peersDir : List Folder) :
    (run.searchLocal toNativeSeparators globalStatus peersDir).OneActivity toNativeSeparators := by
  have hfold (folders : List Folder) (searched : PeerController)
      (hsearched : searched.OneActivity toNativeSeparators) :
      (folders.foldl (getPeerInfo toNativeSeparators) searched).OneActivity toNativeSeparators := by
    induction folders generalizing searched with
    | nil => exact hsearched
    | cons folder folders ih => exact ih _ (oneActivity_getPeerInfo hsearched folder)
  have hafter := hfold (foldersOf globalStatus peersDir)
    { run with found := foundIn (foldersOf globalStatus peersDir) } ⟨h.commands, h.checks, h.apart⟩
  rw [searchLocal]
  split
  · exact ⟨hafter.commands, hafter.checks, hafter.apart⟩
  · exact hafter

/-! ### Steps -/

theorem oneActivity_poolFinished_iff (h : run.OneActivity toNativeSeparators) {task : Task}
    {rest : List Task} (hpool : run.pool = task :: rest) :
    { run with pool := rest, answered := run.answered ++ [task] }.OneActivity toNativeSeparators ↔
      run.Exclusive toNativeSeparators .poolFinished := by
  rw [Exclusive, hpool, List.tail_cons]
  constructor
  · intro hone check hstatus hhead
    exact hone.apart check ⟨hstatus, hhead⟩
  · intro hfree
    refine ⟨h.commands, ?_, fun check hcheck => hfree check hcheck.1 hcheck.2⟩
    intro check hcheck
    refine h.checks check ⟨hcheck.1, ?_⟩
    have hwhere := hcheck.2
    dsimp only at hwhere
    rw [List.mem_append, List.mem_singleton] at hwhere
    rw [hpool, List.mem_cons]
    obtain hrest | hanswered | hself := hwhere
    · exact Or.inl (Or.inr hrest)
    · exact Or.inr hanswered
    · exact Or.inl (Or.inl hself)

theorem oneActivity_taken_iff (h : run.OneActivity toNativeSeparators) (question : Question)
    (output : QString) :
    (({ run with answered := run.answered.erase (.peerInfo question) }.removeCheckingStatus
        toNativeSeparators question).parsePeerInfo toNativeSeparators question
          output).OneActivity toNativeSeparators ↔
      run.Exclusive toNativeSeparators (.peerInfo question output) := by
  obtain ⟨more, hnone, hparse⟩ := @sameActivities_parsePeerInfo toNativeSeparators question output
    ({ run with answered := run.answered.erase (.peerInfo question) }.removeCheckingStatus
      toNativeSeparators question)
  rw [hparse.oneActivity_iff hnone, Exclusive]
  have hchecks (check : Question)
      (hcheck : { run with answered := run.answered.erase (.peerInfo question) }.InFlight check) :
      toNativeSeparators check.dir ∈ run.checkingStatutes :=
    h.checks check ⟨hcheck.1, hcheck.2.imp_right List.mem_of_mem_erase⟩
  rw [removeCheckingStatus]
  split
  · rename_i hstatus
    constructor
    · intro hone _ check hcheck
      have hstill := hone.checks check hcheck
      exact (Finset.mem_erase.mp hstill).1
    · intro hfree
      refine ⟨h.commands, ?_, h.apart⟩
      intro check hcheck
      exact Finset.mem_erase.mpr ⟨hfree hstatus check hcheck, hchecks check hcheck⟩
  · rename_i hother
    exact iff_of_true ⟨h.commands, hchecks, h.apart⟩ fun hstatus => absurd hstatus hother

theorem oneActivity_commandRegistered_iff (h : run.OneActivity toNativeSeparators) (dir : QString) :
    { run with
      runningCommands := insert dir run.runningCommands
      commands := run.commands ++ [dir] }.OneActivity toNativeSeparators ↔
      run.Exclusive toNativeSeparators (.commandRegistered dir) := by
  rw [Exclusive]
  constructor
  · intro hone check hcheck heq
    exact hone.apart check hcheck (Finset.mem_insert.mpr (Or.inl heq))
  · intro hfree
    refine ⟨?_, h.checks, ?_⟩
    · intro other hother
      dsimp only at hother
      rw [List.mem_append, List.mem_singleton] at hother
      exact Finset.mem_insert.mpr (hother.symm.imp_right (h.commands other))
    · intro check hcheck hrunning
      cases Finset.mem_insert.mp hrunning with
      | inl heq => exact hfree check hcheck heq
      | inr hbefore => exact h.apart check hcheck hbefore

theorem oneActivity_commandUnregistered_iff (h : run.OneActivity toNativeSeparators) (dir : QString) :
    { run with
      runningCommands := run.runningCommands.erase dir
      commands := run.commands.erase dir }.OneActivity toNativeSeparators ↔
      run.Exclusive toNativeSeparators (.commandUnregistered dir) := by
  rw [Exclusive]
  constructor
  · intro hone hmem
    exact (Finset.mem_erase.mp (hone.commands dir hmem)).1 rfl
  · intro hlast
    refine ⟨?_, h.checks, ?_⟩
    · intro other hother
      refine Finset.mem_erase.mpr ⟨?_, h.commands other (List.mem_of_mem_erase hother)⟩
      intro heq
      rw [heq] at hother
      exact hlast hother
    · intro check hcheck hrunning
      exact h.apart check hcheck (Finset.mem_of_mem_erase hrunning)

theorem oneActivity_step_iff (event : Event) (h : run.OneActivity toNativeSeparators)
    (hstep : step toNativeSeparators run event = some run') :
    run'.OneActivity toNativeSeparators ↔ run.Exclusive toNativeSeparators event := by
  cases event with
  | refresh =>
      rw [← Option.some.inj hstep, refresh]
      refine iff_of_true ?_ trivial
      split
      · exact h
      · have hmore : SameActivities [.vmInformation] run
            { run with pool := run.pool ++ [.vmInformation] } := ⟨rfl, rfl, rfl, rfl, rfl⟩
        refine (hmore.oneActivity_iff ?_).mpr h
        intro check hcheck
        exact absurd (List.mem_singleton.mp hcheck) Task.noConfusion
  | poolFinished =>
      rw [step] at hstep
      split at hstep
      · exact absurd hstep.symm (Option.some_ne_none run')
      · rename_i task rest hpool
        rw [← Option.some.inj hstep]
        exact oneActivity_poolFinished_iff h hpool
  | vmInformation globalStatus peersDir =>
      rw [step] at hstep
      split at hstep
      · have hbefore : { run with
            answered := run.answered.erase .vmInformation }.OneActivity toNativeSeparators := by
          refine ⟨h.commands, ?_, h.apart⟩
          intro check hcheck
          exact h.checks check ⟨hcheck.1, hcheck.2.imp_right List.mem_of_mem_erase⟩
        rw [← Option.some.inj hstep]
        exact iff_of_true (oneActivity_searchLocal hbefore globalStatus peersDir) trivial
      · exact absurd hstep.symm (Option.some_ne_none run')
  | peerInfo question output =>
      rw [step] at hstep
      split at hstep
      · rw [← Option.some.inj hstep]
        exact oneActivity_taken_iff h question output
      · exact absurd hstep.symm (Option.some_ne_none run')
  | restReply question output =>
      rw [step] at hstep
      split at hstep
      · rw [← Option.some.inj hstep]
        obtain ⟨more, hnone, hparse⟩ := @sameActivities_parsePeerInfo toNativeSeparators question output
          { run with requests := run.requests.erase question }
        rw [hparse.oneActivity_iff hnone]
        exact iff_of_true ⟨h.commands, h.checks, h.apart⟩ trivial
      · exact absurd hstep.symm (Option.some_ne_none run')
  | finishCurrentUpdate =>
      rw [← Option.some.inj hstep]
      exact iff_of_true ⟨h.commands, h.checks, h.apart⟩ trivial
  | commandRegistered dir =>
      rw [← Option.some.inj hstep]
      exact oneActivity_commandRegistered_iff h dir
  | commandUnregistered dir =>
      rw [step] at hstep
      split at hstep
      · rw [← Option.some.inj hstep]
        exact oneActivity_commandUnregistered_iff h dir
      · exact absurd hstep.symm (Option.some_ne_none run')

theorem oneActivity_new (peerFingers : StdMap QString) :
    (new peerFingers).OneActivity toNativeSeparators := by
  refine ⟨?_, ?_, ?_⟩
  · intro dir hdir
    exact absurd hdir List.not_mem_nil
  · intro check hcheck
    exact absurd hcheck.2 (not_or_intro List.not_mem_nil List.not_mem_nil)
  · intro check hcheck
    exact absurd hcheck.2.symm (Option.some_ne_none _)

variable (toNativeSeparators)

/-- There is one activity for each peer all along a run exactly when no step ends or begins
an activity while another of the same directory goes on. -/
theorem oneActivity_iff_exclusive (peerFingers : StdMap QString) (events : List Event) :
    Runs.AlwaysPartial (step toNativeSeparators) (OneActivity toNativeSeparators) (new peerFingers)
        events ↔
      Runs.EachStepPartial (step toNativeSeparators) (Exclusive toNativeSeparators) (new peerFingers)
        events :=
  Runs.alwaysPartial_iff_eachStepPartial_of_turn (oneActivity_new peerFingers)
    (fun _ event _ h hstep => oneActivity_step_iff event h hstep) events

/-- The first command to end takes the directory out of the registry. -/
theorem not_oneActivity_twoCommands :
    ¬ Runs.AlwaysPartial (step id) (OneActivity id) (new ∅)
      [.commandRegistered "/peers/a".toList, .commandRegistered "/peers/a".toList,
        .commandUnregistered "/peers/a".toList] := by
  intro always
  have hone := always _ _ (List.prefix_refl _) rfl
  exact absurd (hone.commands "/peers/a".toList (by decide)) (by decide)

end PeerController

end SubutaiTray.Peer
