import SubutaiTray.Library.Runs
import SubutaiTray.Peer.Controller

/-!
Which peers the end of a round removes.

A sweep removes the peers of which no answer was recorded since the last sweep. These
are the peers whose folder was not found as long as the questions that are on their way
belong to the last search, and every folder of that search is asked.
-/
namespace SubutaiTray.Peer

def Task.question? : Task → Option Question
  | .vmInformation => none
  | .peerInfo question => some question

/-- Exactly the peers whose directory was not found are removed. -/
def Sweep.Right (sweep : Sweep) : Prop :=
  ∀ (name : QString) (peer : CLocalPeer), sweep.before[name]? = some peer →
    (name ∉ sweep.after ↔ peer.dir ∉ sweep.found)

namespace PeerController

/-- The questions that are on their way. -/
def asked (run : PeerController) : List Question :=
  (run.pool ++ run.answered).filterMap Task.question? ++ run.requests

def SweepsRight (run : PeerController) : Prop :=
  ∀ sweep, run.lastSweep = some sweep → sweep.Right

/-- What every step keeps: the peers with an answer are the ones marked as new. -/
structure Inv (run : PeerController) : Prop where
  window : run.window.Inv
  named : ∀ question ∈ run.asked, question.name ≠ []
  marked : ∀ name, run.window.markOf name = some .new ↔
    name ∈ run.window.machinePeersTable ∧ name ∈ run.heard

/-- The peers of which an answer was recorded are those that were found. -/
def Agrees (found : List QString) (run : PeerController) : Prop :=
  ∀ (name : QString) (peer : CLocalPeer), run.window.machinePeersTable[name]? = some peer →
    (name ∈ run.heard ↔ peer.dir ∈ found)

/-- The answer leads to another question. -/
def AsksOn (question : Question) (output : QString) : Prop :=
  (question.info = .status ∧ output = "running".toList) ∨
    (question.info = .port ∧ output ≠ [] ∧ output ≠ undefinedString)

/-- If the answer ends the round, it and the answers before it are about what was found. -/
def ReplyHarmless (question : Question) (output : QString) (run : PeerController) : Prop :=
  run.window.numberThreads = 1 → ¬ AsksOn question output →
    question.dir ∈ run.found ∧
      ∀ (name : QString) (peer : CLocalPeer), name ≠ question.name →
        run.window.machinePeersTable[name]? = some peer → (name ∈ run.heard ↔ peer.dir ∈ run.found)

section
variable (toNativeSeparators : QString → QString)

/-- The steps whose sweep, if they make one, is right. -/
def Harmless (run : PeerController) : Event → Prop
  | .vmInformation globalStatus peersDir =>
      run.window.numberThreads = 0 →
        (∀ folder ∈ foldersOf globalStatus peersDir, folder.isPeer →
          toNativeSeparators folder.absolutePath ∈ run.runningCommands) →
        run.Agrees (foundIn (foldersOf globalStatus peersDir))
  | .peerInfo question output | .restReply question output => run.ReplyHarmless question output
  | .refresh | .poolFinished | .finishCurrentUpdate | .commandRegistered _
  | .commandUnregistered _ => True

variable {toNativeSeparators} {run run' : PeerController}

/-! ### Sweeps -/

theorem inv_machinePeersUpdFinished (h : run.Inv) : run.machinePeersUpdFinished.Inv := by
  refine ⟨PeerWindow.inv_machinePeersUpdFinished h.window, h.named, ?_⟩
  intro name
  refine iff_of_false ?_ fun hheard => List.not_mem_nil hheard.2
  rw [machinePeersUpdFinished, PeerWindow.markOf]
  dsimp only
  rw [PeerWindow.getElem?_machinePeersUpdFinished h.window, Option.map_map]
  intro hmark
  obtain ⟨peer, -, hold⟩ := Option.map_eq_some_iff.mp hmark
  exact PeerUpdate.noConfusion hold

/-- A sweep is right exactly when the answers agree with what was found. -/
theorem right_machinePeersUpdFinished_iff (h : run.Inv) :
    run.machinePeersUpdFinished.SweepsRight ↔ run.Agrees run.found := by
  have hmem (name : QString) (peer : CLocalPeer)
      (hpeer : run.window.machinePeersTable[name]? = some peer) :
      name ∈ run.window.machinePeersUpdFinished.machinePeersTable ↔ name ∈ run.heard := by
    rw [PeerWindow.mem_machinePeersUpdFinished h.window, h.marked]
    exact and_iff_right ((Lookups.mem_iff_exists _ name).mpr ⟨peer, hpeer⟩)
  constructor
  · intro hright name peer hpeer
    have hremoved := hright _ rfl name peer hpeer
    rw [← hmem name peer hpeer]
    exact not_iff_not.mp hremoved
  · intro hagrees sweep hsweep name peer
    rw [← Option.some.inj hsweep]
    intro hpeer
    exact not_congr ((hmem name peer hpeer).trans (hagrees name peer hpeer))

/-! ### Replies -/

theorem inv_recordPeer (h : run.Inv) (info : PeerInfo) {name : QString} (hname : name ≠ [])
    (dir output : QString) : (run.recordPeer info name dir output).Inv := by
  have hrecorded := PeerWindow.recorded_recordPeer h.window.statesMatch info hname dir output
  refine ⟨PeerWindow.inv_recordPeer h.window info hname dir output, h.named, ?_⟩
  intro other
  rw [recordPeer]
  dsimp only
  rw [hrecorded.mem, List.mem_cons, PeerWindow.markOf, hrecorded.machinePeersTable,
    Lookups.getElem?_insert]
  by_cases hother : other = name
  · rw [if_pos hother, Option.map_some,
      (PeerWindow.identity_updaterPeer info name dir output run.window).2.2]
    exact iff_of_true rfl ⟨Or.inl hother, Or.inl hother⟩
  · rw [if_neg hother, or_iff_right hother, or_iff_right hother]
    exact h.marked other

theorem agrees_recordPeer_iff (h : run.Inv) (info : PeerInfo) {name : QString} (hname : name ≠ [])
    (dir output : QString) (found : List QString) :
    (run.recordPeer info name dir output).Agrees found ↔
      dir ∈ found ∧
        ∀ (other : QString) (peer : CLocalPeer), other ≠ name →
          run.window.machinePeersTable[other]? = some peer →
            (other ∈ run.heard ↔ peer.dir ∈ found) := by
  have hrecorded := PeerWindow.recorded_recordPeer h.window.statesMatch info hname dir output
  have htable : (run.recordPeer info name dir output).window.machinePeersTable =
      run.window.machinePeersTable.insert name (run.window.updaterPeer info name dir output) :=
    hrecorded.machinePeersTable
  have hdir := (PeerWindow.identity_updaterPeer info name dir output run.window).2.1
  have hheard (other : QString) (hother : other ≠ name) :
      other ∈ (run.recordPeer info name dir output).heard ↔ other ∈ run.heard :=
    List.mem_cons.trans (or_iff_right hother)
  rw [Agrees, htable]
  constructor
  · intro hagrees
    refine ⟨?_, ?_⟩
    · have hself := hagrees name _ (Lookups.getElem?_insert_self _ name _)
      rw [hdir] at hself
      exact hself.mp List.mem_cons_self
    · intro other peer hother hpeer
      rw [← hheard other hother]
      exact hagrees other peer ((Lookups.getElem?_insert_of_ne _ hother _).trans hpeer)
  · intro hgood other peer hpeer
    rw [Lookups.getElem?_insert] at hpeer
    split at hpeer
    · rename_i hself
      rw [← Option.some.inj hpeer, hself, hdir]
      exact iff_of_true List.mem_cons_self hgood.1
    · rename_i hother
      exact (hheard other hother).trans (hgood.2 other peer hother hpeer)

/-- The second run has the records of the first. -/
structure SameRecords (run run' : PeerController) : Prop where
  window : run'.window = { run.window with numberThreads := run'.window.numberThreads }
  heard : run'.heard = run.heard
  found : run'.found = run.found
  lastSweep : run'.lastSweep = run.lastSweep

theorem SameRecords.refl (run : PeerController) : SameRecords run run :=
  ⟨rfl, rfl, rfl, rfl⟩

theorem SameRecords.trans {run'' : PeerController} (h : SameRecords run run')
    (h' : SameRecords run' run'') : SameRecords run run'' := by
  refine ⟨?_, h'.heard.trans h.heard, h'.found.trans h.found, h'.lastSweep.trans h.lastSweep⟩
  rw [h'.window, h.window]

theorem SameRecords.machinePeersTable (h : SameRecords run run') :
    run'.window.machinePeersTable = run.window.machinePeersTable := by
  rw [h.window]

theorem SameRecords.inv (h : SameRecords run run') (hinv : run.Inv)
    (hnamed : ∀ question ∈ run'.asked, question.name ≠ []) : run'.Inv := by
  refine ⟨?_, hnamed, ?_⟩
  · rw [h.window]
    exact ⟨hinv.window.statesMatch, hinv.window.named⟩
  · intro name
    rw [h.heard, h.window]
    exact hinv.marked name

theorem SameRecords.sweepsRight_iff (h : SameRecords run run') :
    run'.SweepsRight ↔ run.SweepsRight := by
  rw [SweepsRight, SweepsRight, h.lastSweep]

theorem SameRecords.agrees_iff (h : SameRecords run run') (found : List QString) :
    run'.Agrees found ↔ run.Agrees found := by
  rw [Agrees, Agrees, h.machinePeersTable, h.heard]

theorem sameRecords_setNumberThreads (numberThreads : Nat) (run : PeerController) :
    SameRecords run (run.setNumberThreads numberThreads) :=
  ⟨rfl, rfl, rfl, rfl⟩

theorem inv_gotPeerInfo (h : run.Inv) (info : PeerInfo) {name : QString} (hname : name ≠ [])
    (dir output : QString) : (run.gotPeerInfo info name dir output).Inv := by
  rw [gotPeerInfo]
  split
  · exact h
  · have hbefore := (sameRecords_setNumberThreads (run.window.numberThreads - 1) run).inv h h.named
    have hafter := inv_recordPeer hbefore info hname dir output
    dsimp only
    split
    · exact inv_machinePeersUpdFinished hafter
    · exact hafter

theorem right_gotPeerInfo_iff (h : run.Inv) (hright : run.SweepsRight) (info : PeerInfo)
    {name : QString} (hname : name ≠ []) (dir output : QString) :
    (run.gotPeerInfo info name dir output).SweepsRight ↔
      (run.window.numberThreads = 1 →
        dir ∈ run.found ∧
          ∀ (other : QString) (peer : CLocalPeer), other ≠ name →
            run.window.machinePeersTable[other]? = some peer →
              (other ∈ run.heard ↔ peer.dir ∈ run.found)) := by
  rw [gotPeerInfo]
  split
  · rename_i hzero
    refine iff_of_true hright fun hone => ?_
    rw [hzero] at hone
    exact absurd hone Nat.zero_ne_one
  · rename_i hzero
    have hbefore := (sameRecords_setNumberThreads (run.window.numberThreads - 1) run).inv h h.named
    have hcount : ((run.setNumberThreads (run.window.numberThreads - 1)).recordPeer info name dir
        output).window.numberThreads = run.window.numberThreads - 1 :=
      PeerWindow.numberThreads_recordPeer info name dir output _
    dsimp only
    rw [hcount]
    by_cases hone : run.window.numberThreads = 1
    · have hend : run.window.numberThreads - 1 = 0 := by omega
      rw [if_pos hend, right_machinePeersUpdFinished_iff (inv_recordPeer hbefore info hname dir output)]
      refine (agrees_recordPeer_iff hbefore info hname dir output _).trans ?_
      constructor
      · intro hgood _
        exact hgood
      · intro hgood
        exact hgood hone
    · have hnot : run.window.numberThreads - 1 ≠ 0 := by omega
      rw [if_neg hnot]
      exact iff_of_true hright fun hc => absurd hc hone

/-! ### Questions -/

theorem mem_asked {question : Question} :
    question ∈ run.asked ↔
      .peerInfo question ∈ run.pool ∨ .peerInfo question ∈ run.answered ∨ question ∈ run.requests := by
  have htask (task : Task) : task.question? = some question ↔ task = .peerInfo question := by
    cases task with
    | vmInformation => exact iff_of_false (Option.some_ne_none _).symm Task.noConfusion
    | peerInfo other => rw [Task.question?, Option.some.injEq, Task.peerInfo.injEq]
  rw [asked, List.mem_append, List.mem_filterMap, or_assoc.symm]
  apply or_congr_left
  rw [← List.mem_append]
  constructor
  · intro h
    obtain ⟨task, hmem, hquestion⟩ := h
    rw [← (htask task).mp hquestion]
    exact hmem
  · intro hmem
    exact ⟨_, hmem, rfl⟩

theorem mem_asked_startWork {question other : Question} :
    other ∈ (run.startWork toNativeSeparators question).asked ↔ other = question ∨ other ∈ run.asked := by
  rw [mem_asked, mem_asked, startWork]
  dsimp only
  rw [List.mem_append, List.mem_singleton, Task.peerInfo.injEq, or_assoc, or_left_comm]

instance (question : Question) (output : QString) : Decidable (AsksOn question output) :=
  inferInstanceAs (Decidable (_ ∨ _))

theorem askOn_cases (question : Question) (output : QString) (run : PeerController) :
    (¬ AsksOn question output ∧ run.askOn toNativeSeparators question output = run) ∨
      (AsksOn question output ∧
        run.askOn toNativeSeparators question output =
          (run.setNumberThreads (run.window.numberThreads + 1)).startWork toNativeSeparators
            { question with info := .port }) ∨
      (AsksOn question output ∧
        run.askOn toNativeSeparators question output =
          { run.setNumberThreads (run.window.numberThreads + 2) with
            requests :=
              run.requests ++
                [{ question with info := .finger }, { question with info := .update }] }) := by
  have hother (hstatus : question.info ≠ .status) (hport : question.info ≠ .port) :
      ¬ AsksOn question output := by
    intro hasks
    cases hasks with
    | inl h => exact hstatus h.1
    | inr h => exact hport h.1
  rw [askOn]
  cases hinfo : question.info with
  | status =>
      dsimp only
      split
      · rename_i hnot
        refine Or.inl ⟨?_, rfl⟩
        intro hasks
        cases hasks with
        | inl h => exact hnot h.2
        | inr h => exact PeerInfo.noConfusion (hinfo.symm.trans h.1)
      · rename_i hrunning
        exact Or.inr (Or.inl ⟨Or.inl ⟨hinfo, not_not.mp hrunning⟩, rfl⟩)
  | port =>
      dsimp only
      split
      · rename_i hknown
        exact Or.inr (Or.inr ⟨Or.inr ⟨hinfo, hknown⟩, rfl⟩)
      · rename_i hnot
        refine Or.inl ⟨?_, rfl⟩
        intro hasks
        cases hasks with
        | inl h => exact PeerInfo.noConfusion (hinfo.symm.trans h.1)
        | inr h => exact hnot h.2
  | _ =>
      refine Or.inl ⟨hother ?_ ?_, rfl⟩
      · rw [hinfo]
        exact PeerInfo.noConfusion
      · rw [hinfo]
        exact PeerInfo.noConfusion

theorem sameRecords_askOn (question : Question) (output : QString) (run : PeerController) :
    SameRecords run (run.askOn toNativeSeparators question output) := by
  obtain hself | hport | hrest := @askOn_cases toNativeSeparators question output run
  · rw [hself.2]
    exact SameRecords.refl run
  · rw [hport.2]
    exact ⟨rfl, rfl, rfl, rfl⟩
  · rw [hrest.2]
    exact ⟨rfl, rfl, rfl, rfl⟩

/-- The new questions are about the same peer. -/
theorem mem_asked_askOn {question other : Question} {output : QString}
    (h : other ∈ (run.askOn toNativeSeparators question output).asked) :
    other ∈ run.asked ∨ other.name = question.name ∧ other.dir = question.dir := by
  obtain hself | hport | hrest := @askOn_cases toNativeSeparators question output run
  · rw [hself.2] at h
    exact Or.inl h
  · rw [hport.2] at h
    cases mem_asked_startWork.mp h with
    | inl hnew =>
        rw [hnew]
        exact Or.inr ⟨rfl, rfl⟩
    | inr hold => exact Or.inl hold
  · rw [hrest.2, asked] at h
    dsimp only at h
    rw [← List.append_assoc, List.mem_append, List.mem_pair] at h
    obtain hold | hfinger | hupdate := h
    · exact Or.inl hold
    · rw [hfinger]
      exact Or.inr ⟨rfl, rfl⟩
    · rw [hupdate]
      exact Or.inr ⟨rfl, rfl⟩

/-- A round that has one question left ends with its answer unless that asks on. -/
theorem numberThreads_askOn_eq_one {question : Question} {output : QString}
    (hpos : run.window.numberThreads ≠ 0) :
    (run.askOn toNativeSeparators question output).window.numberThreads = 1 ↔
      run.window.numberThreads = 1 ∧ ¬ AsksOn question output := by
  obtain hself | hport | hrest := @askOn_cases toNativeSeparators question output run
  · rw [hself.2]
    exact (and_iff_left hself.1).symm
  · rw [hport.2]
    refine iff_of_false ?_ fun hc => hc.2 hport.1
    exact fun hone => hpos (Nat.succ.inj hone)
  · rw [hrest.2]
    refine iff_of_false ?_ fun hc => hc.2 hrest.1
    intro hone
    have htwo : run.window.numberThreads + 2 = 1 := hone
    omega

theorem inv_askOn (h : run.Inv) {question : Question} (hname : question.name ≠ [])
    (output : QString) : (run.askOn toNativeSeparators question output).Inv := by
  refine (sameRecords_askOn question output run).inv h ?_
  intro other hother
  cases mem_asked_askOn hother with
  | inl hold => exact h.named other hold
  | inr hsame =>
      rw [hsame.1]
      exact hname

theorem inv_parsePeerInfo (h : run.Inv) {question : Question} (hname : question.name ≠ [])
    (output : QString) : (run.parsePeerInfo toNativeSeparators question output).Inv := by
  rw [parsePeerInfo]
  split
  · exact h
  · exact inv_gotPeerInfo (inv_askOn h hname output) _ hname _ _

theorem right_parsePeerInfo_iff (h : run.Inv) (hright : run.SweepsRight) {question : Question}
    (hname : question.name ≠ []) (output : QString) :
    (run.parsePeerInfo toNativeSeparators question output).SweepsRight ↔
      run.ReplyHarmless question output := by
  have hsame := @sameRecords_askOn toNativeSeparators question output run
  rw [parsePeerInfo]
  split
  · rename_i hzero
    refine iff_of_true hright fun hone => ?_
    rw [hzero] at hone
    exact absurd hone Nat.zero_ne_one
  · rename_i hpos
    rw [right_gotPeerInfo_iff (inv_askOn h hname output) (hsame.sweepsRight_iff.mpr hright) _ hname,
      numberThreads_askOn_eq_one hpos, hsame.found, hsame.heard, hsame.machinePeersTable, and_imp]
    exact Iff.rfl

/-! ### The search -/

/-- The folder is not asked, for a command runs in it or it is no peer. -/
def Skipped (toNativeSeparators : QString → QString) (run : PeerController) (folder : Folder) : Prop :=
  folder.isPeer → toNativeSeparators folder.absolutePath ∈ run.runningCommands

theorem getPeerInfo_cases (run : PeerController) (folder : Folder) :
    (Skipped toNativeSeparators run folder ∧ run.getPeerInfo toNativeSeparators folder = run) ∨
      (¬ Skipped toNativeSeparators run folder ∧ folder.isPeer ∧
        run.getPeerInfo toNativeSeparators folder =
          (run.setNumberThreads (run.window.numberThreads + 1)).startWork toNativeSeparators
            folder.question) := by
  rw [getPeerInfo, Skipped]
  split
  · rename_i hpeer
    split
    · rename_i hrunning
      exact Or.inl ⟨fun _ => hrunning, rfl⟩
    · rename_i hrunning
      exact Or.inr ⟨fun hc => hrunning (hc hpeer), hpeer, rfl⟩
  · rename_i hpeer
    exact Or.inl ⟨fun hc => absurd hc hpeer, rfl⟩

theorem sameRecords_getPeerInfo (run : PeerController) (folder : Folder) :
    SameRecords run (run.getPeerInfo toNativeSeparators folder) := by
  obtain hskip | hask := @getPeerInfo_cases toNativeSeparators run folder
  · rw [hskip.2]
    exact SameRecords.refl run
  · rw [hask.2.2]
    exact ⟨rfl, rfl, rfl, rfl⟩

theorem runningCommands_getPeerInfo (run : PeerController) (folder : Folder) :
    (run.getPeerInfo toNativeSeparators folder).runningCommands = run.runningCommands := by
  obtain hskip | hask := @getPeerInfo_cases toNativeSeparators run folder
  · rw [hskip.2]
  · rw [hask.2.2]
    rfl

theorem sameRecords_foldl_getPeerInfo (folders : List Folder) (run : PeerController) :
    SameRecords run (folders.foldl (getPeerInfo toNativeSeparators) run) := by
  induction folders generalizing run with
  | nil => exact SameRecords.refl run
  | cons folder folders ih => exact (sameRecords_getPeerInfo run folder).trans (ih _)

theorem mem_asked_foldl_getPeerInfo {folders : List Folder} {question : Question}
    (h : question ∈ (folders.foldl (getPeerInfo toNativeSeparators) run).asked) :
    question ∈ run.asked ∨ ∃ folder ∈ folders, folder.isPeer ∧ question = folder.question := by
  induction folders generalizing run with
  | nil => exact Or.inl h
  | cons folder folders ih =>
      cases ih h with
      | inl hfirst =>
          obtain hskip | hask := @getPeerInfo_cases toNativeSeparators run folder
          · rw [hskip.2] at hfirst
            exact Or.inl hfirst
          · rw [hask.2.2] at hfirst
            cases mem_asked_startWork.mp hfirst with
            | inl hnew => exact Or.inr ⟨folder, List.mem_cons_self, hask.2.1, hnew⟩
            | inr hold => exact Or.inl hold
      | inr hlater =>
          obtain ⟨other, hmem, hother⟩ := hlater
          exact Or.inr ⟨other, List.mem_cons_of_mem _ hmem, hother⟩

theorem numberThreads_foldl_getPeerInfo (folders : List Folder) (run : PeerController) :
    (folders.foldl (getPeerInfo toNativeSeparators) run).window.numberThreads = 0 ↔
      run.window.numberThreads = 0 ∧ ∀ folder ∈ folders, Skipped toNativeSeparators run folder := by
  induction folders generalizing run with
  | nil => exact (and_iff_left fun _ hmem => absurd hmem List.not_mem_nil).symm
  | cons folder folders ih =>
      rw [List.foldl_cons, ih, List.forall_mem_cons]
      have hskipped (other : Folder) :
          Skipped toNativeSeparators (run.getPeerInfo toNativeSeparators folder) other ↔
            Skipped toNativeSeparators run other := by
        rw [Skipped, Skipped, runningCommands_getPeerInfo]
      obtain hskip | hask := @getPeerInfo_cases toNativeSeparators run folder
      · rw [hskip.2, and_iff_right hskip.1]
      · rw [hask.2.2]
        refine iff_of_false ?_ fun hc => hask.1 hc.2.1
        exact fun hc => Nat.succ_ne_zero _ hc.1

theorem name_question {folder : Folder} (h : folder.isPeer) : folder.question.name ≠ [] := by
  have hname := (Bool.and_eq_true_iff.mp h).2
  exact of_decide_eq_true hname

theorem inv_foldl_getPeerInfo (h : run.Inv) (folders : List Folder) :
    (folders.foldl (getPeerInfo toNativeSeparators) run).Inv := by
  refine (sameRecords_foldl_getPeerInfo folders run).inv h ?_
  intro question hquestion
  cases mem_asked_foldl_getPeerInfo hquestion with
  | inl hold => exact h.named question hold
  | inr hnew =>
      obtain ⟨folder, -, hpeer, hsame⟩ := hnew
      rw [hsame]
      exact name_question hpeer

theorem inv_searchLocal (h : run.Inv) (globalStatus peersDir : List Folder) :
    (run.searchLocal toNativeSeparators globalStatus peersDir).Inv := by
  have hfound : { run with found := foundIn (foldersOf globalStatus peersDir) }.Inv :=
    ⟨h.window, h.named, h.marked⟩
  have hfold := @inv_foldl_getPeerInfo toNativeSeparators _ hfound (foldersOf globalStatus peersDir)
  rw [searchLocal]
  split
  · exact inv_machinePeersUpdFinished hfold
  · exact hfold

theorem right_searchLocal_iff (h : run.Inv) (hright : run.SweepsRight)
    (globalStatus peersDir : List Folder) :
    (run.searchLocal toNativeSeparators globalStatus peersDir).SweepsRight ↔
      Harmless toNativeSeparators run (.vmInformation globalStatus peersDir) := by
  have hfound : { run with found := foundIn (foldersOf globalStatus peersDir) }.Inv :=
    ⟨h.window, h.named, h.marked⟩
  have hfold := @inv_foldl_getPeerInfo toNativeSeparators _ hfound (foldersOf globalStatus peersDir)
  have hsame := @sameRecords_foldl_getPeerInfo toNativeSeparators (foldersOf globalStatus peersDir)
    { run with found := foundIn (foldersOf globalStatus peersDir) }
  have hzero := @numberThreads_foldl_getPeerInfo toNativeSeparators (foldersOf globalStatus peersDir)
    { run with found := foundIn (foldersOf globalStatus peersDir) }
  rw [searchLocal, Harmless]
  split
  · rename_i hend
    obtain ⟨hcount, hskipped⟩ := hzero.mp hend
    rw [right_machinePeersUpdFinished_iff hfold, hsame.found, hsame.agrees_iff]
    constructor
    · intro hagrees _ _
      exact hagrees
    · intro hgood
      exact hgood hcount hskipped
  · rename_i hgoes
    refine iff_of_true (hsame.sweepsRight_iff.mpr hright) fun hcount hskipped => ?_
    exact absurd (hzero.mpr ⟨hcount, hskipped⟩) hgoes

/-! ### Runs -/

/-- The second run has taken an answer from where it waited, or nothing. -/
structure Taken (run before : PeerController) : Prop where
  records : SameRecords run before
  numberThreads : before.window.numberThreads = run.window.numberThreads
  runningCommands : before.runningCommands = run.runningCommands

theorem Taken.trans {before before' : PeerController} (h : Taken run before)
    (h' : Taken before before') : Taken run before' :=
  ⟨h.records.trans h'.records, h'.numberThreads.trans h.numberThreads,
    h'.runningCommands.trans h.runningCommands⟩

theorem taken_removeCheckingStatus (question : Question) (run : PeerController) :
    Taken run (run.removeCheckingStatus toNativeSeparators question) := by
  rw [removeCheckingStatus]
  split
  · exact ⟨⟨rfl, rfl, rfl, rfl⟩, rfl, rfl⟩
  · exact ⟨SameRecords.refl run, rfl, rfl⟩

theorem asked_removeCheckingStatus (question : Question) (run : PeerController) :
    (run.removeCheckingStatus toNativeSeparators question).asked = run.asked := by
  rw [removeCheckingStatus]
  split
  · rfl
  · rfl

theorem Taken.replyHarmless_iff {before : PeerController} (h : Taken run before) (question : Question)
    (output : QString) : before.ReplyHarmless question output ↔ run.ReplyHarmless question output := by
  rw [ReplyHarmless, ReplyHarmless, h.numberThreads, h.records.found, h.records.heard,
    h.records.machinePeersTable]

theorem perm_asked_poolFinished {task : Task} {rest : List Task} (hpool : run.pool = task :: rest) :
    { run with pool := rest, answered := run.answered ++ [task] }.asked.Perm run.asked := by
  rw [asked, asked, hpool]
  dsimp only
  apply List.Perm.append_right
  apply List.Perm.filterMap
  rw [← List.append_assoc]
  exact List.perm_append_comm

theorem perm_filterMap_erase {task : Task} (h : task ∈ run.answered) :
    ((run.pool ++ run.answered).filterMap Task.question?).Perm
      ((task :: (run.pool ++ run.answered.erase task)).filterMap Task.question?) := by
  have hanswered := (List.perm_cons_erase h).append_left run.pool
  exact (hanswered.trans List.perm_middle).filterMap Task.question?

/-- An event that tells no answer. -/
def Event.silent : Event → Bool
  | .vmInformation .. | .peerInfo .. | .restReply .. => false
  | .refresh | .poolFinished | .finishCurrentUpdate | .commandRegistered _
  | .commandUnregistered _ => true

theorem step_cases {event : Event} (hstep : step toNativeSeparators run event = some run') :
    (event.silent ∧ SameRecords run run' ∧ run'.asked.Perm run.asked ∧
        (run'.window.numberThreads = run.window.numberThreads ∨
          event = .finishCurrentUpdate ∧ run'.window.numberThreads = 0)) ∨
      (∃ globalStatus peersDir before, event = .vmInformation globalStatus peersDir ∧
        Taken run before ∧ before.asked.Perm run.asked ∧
          run' = before.searchLocal toNativeSeparators globalStatus peersDir) ∨
      (∃ question output before, (event = .peerInfo question output ∨ event = .restReply question output) ∧
        Taken run before ∧ run.asked.Perm (question :: before.asked) ∧
          run' = before.parsePeerInfo toNativeSeparators question output) := by
  cases event with
  | refresh =>
      refine Or.inl ⟨rfl, ?_⟩
      rw [← Option.some.inj hstep, refresh]
      split
      · exact ⟨SameRecords.refl run, List.Perm.refl _, Or.inl rfl⟩
      · refine ⟨⟨rfl, rfl, rfl, rfl⟩, ?_, Or.inl rfl⟩
        rw [asked, asked]
        dsimp only
        rw [List.append_assoc]
        apply List.Perm.append_right
        exact (List.perm_append_comm_assoc [.vmInformation] run.pool run.answered).symm.filterMap
          Task.question?
  | poolFinished =>
      refine Or.inl ⟨rfl, ?_⟩
      rw [step] at hstep
      split at hstep
      · exact absurd hstep.symm (Option.some_ne_none run')
      · rename_i task rest hpool
        rw [← Option.some.inj hstep]
        exact ⟨⟨rfl, rfl, rfl, rfl⟩, perm_asked_poolFinished hpool, Or.inl rfl⟩
  | vmInformation globalStatus peersDir =>
      rw [step] at hstep
      split at hstep
      · rename_i hanswered
        refine Or.inr (Or.inl ⟨globalStatus, peersDir,
          { run with answered := run.answered.erase .vmInformation }, rfl,
          ⟨⟨rfl, rfl, rfl, rfl⟩, rfl, rfl⟩, ?_, (Option.some.inj hstep).symm⟩)
        exact ((perm_filterMap_erase hanswered).append_right run.requests).symm
      · exact absurd hstep.symm (Option.some_ne_none run')
  | peerInfo question output =>
      rw [step] at hstep
      split at hstep
      · rename_i hanswered
        have htaken : Taken run { run with answered := run.answered.erase (.peerInfo question) } :=
          ⟨⟨rfl, rfl, rfl, rfl⟩, rfl, rfl⟩
        refine Or.inr (Or.inr ⟨question, output, _, Or.inl rfl,
          htaken.trans (taken_removeCheckingStatus question _), ?_, (Option.some.inj hstep).symm⟩)
        rw [asked_removeCheckingStatus]
        exact (perm_filterMap_erase hanswered).append_right run.requests
      · exact absurd hstep.symm (Option.some_ne_none run')
  | restReply question output =>
      rw [step] at hstep
      split at hstep
      · rename_i hrequest
        refine Or.inr (Or.inr ⟨question, output,
          { run with requests := run.requests.erase question }, Or.inr rfl,
          ⟨⟨rfl, rfl, rfl, rfl⟩, rfl, rfl⟩, ?_, (Option.some.inj hstep).symm⟩)
        exact ((List.perm_cons_erase hrequest).append_left _).trans List.perm_middle
      · exact absurd hstep.symm (Option.some_ne_none run')
  | finishCurrentUpdate =>
      refine Or.inl ⟨rfl, ?_⟩
      rw [← Option.some.inj hstep]
      exact ⟨sameRecords_setNumberThreads 0 run, List.Perm.refl _, Or.inr ⟨rfl, rfl⟩⟩
  | commandRegistered dir =>
      refine Or.inl ⟨rfl, ?_⟩
      rw [← Option.some.inj hstep]
      exact ⟨⟨rfl, rfl, rfl, rfl⟩, List.Perm.refl _, Or.inl rfl⟩
  | commandUnregistered dir =>
      refine Or.inl ⟨rfl, ?_⟩
      rw [step] at hstep
      split at hstep
      · rw [← Option.some.inj hstep]
        exact ⟨⟨rfl, rfl, rfl, rfl⟩, List.Perm.refl _, Or.inl rfl⟩
      · exact absurd hstep.symm (Option.some_ne_none run')

theorem Taken.inv {before : PeerController} (h : Taken run before) (hinv : run.Inv)
    (hasked : before.asked ⊆ run.asked) : before.Inv :=
  h.records.inv hinv fun question hquestion => hinv.named question (hasked hquestion)

theorem inv_step (event : Event) (h : run.Inv)
    (hstep : step toNativeSeparators run event = some run') : run'.Inv := by
  obtain hsilent | hsearch | hreply := step_cases hstep
  · exact hsilent.2.1.inv h fun question hquestion =>
      h.named question (hsilent.2.2.1.subset hquestion)
  · obtain ⟨globalStatus, peersDir, before, -, htaken, hperm, hrun'⟩ := hsearch
    rw [hrun']
    exact inv_searchLocal (htaken.inv h hperm.subset) globalStatus peersDir
  · obtain ⟨question, output, before, -, htaken, hperm, hrun'⟩ := hreply
    rw [hrun']
    have hbefore := htaken.inv h fun other hother => hperm.symm.subset (List.mem_cons_of_mem _ hother)
    exact inv_parsePeerInfo hbefore (h.named question (hperm.symm.subset List.mem_cons_self)) output

theorem right_step_iff (event : Event) (h : run.Inv) (hright : run.SweepsRight)
    (hstep : step toNativeSeparators run event = some run') :
    run'.SweepsRight ↔ Harmless toNativeSeparators run event := by
  obtain hsilent | hsearch | hreply := step_cases hstep
  · refine iff_of_true (hsilent.2.1.sweepsRight_iff.mpr hright) ?_
    cases event with
    | vmInformation _ _ | peerInfo _ _ | restReply _ _ => exact absurd hsilent.1 Bool.false_ne_true
    | _ => trivial
  · obtain ⟨globalStatus, peersDir, before, hevent, htaken, hperm, hrun'⟩ := hsearch
    rw [hrun', hevent, right_searchLocal_iff (htaken.inv h hperm.subset)
      (htaken.records.sweepsRight_iff.mpr hright), Harmless, Harmless, htaken.numberThreads,
      htaken.runningCommands, htaken.records.agrees_iff]
  · obtain ⟨question, output, before, hevent, htaken, hperm, hrun'⟩ := hreply
    have hbefore := htaken.inv h fun other hother => hperm.symm.subset (List.mem_cons_of_mem _ hother)
    rw [hrun', right_parsePeerInfo_iff hbefore (htaken.records.sweepsRight_iff.mpr hright)
      (h.named question (hperm.symm.subset List.mem_cons_self)), htaken.replyHarmless_iff]
    cases hevent with
    | inl hpeer => rw [hpeer, Harmless]
    | inr hrest => rw [hrest, Harmless]

theorem inv_new (peerFingers : StdMap QString) : (new peerFingers).Inv := by
  refine ⟨PeerWindow.inv_new peerFingers, ?_, ?_⟩
  · intro question hquestion
    exact absurd hquestion List.not_mem_nil
  · intro name
    refine iff_of_false ?_ fun hheard => List.not_mem_nil hheard.2
    intro hmark
    exact Std.ExtTreeMap.not_mem_empty (PeerWindow.mem_of_markOf hmark)

theorem right_new (peerFingers : StdMap QString) : (new peerFingers).SweepsRight := by
  intro sweep hsweep
  exact absurd hsweep.symm (Option.some_ne_none sweep)

variable (toNativeSeparators)

/-- Every sweep of a run removes exactly the peers that were not found, exactly when at each
sweep the peers of which an answer was recorded are those that were found. -/
theorem sweepsRight_iff_harmless (peerFingers : StdMap QString) (events : List Event) :
    Runs.AlwaysPartial (step toNativeSeparators) SweepsRight (new peerFingers) events ↔
      Runs.EachStepPartial (step toNativeSeparators) (Harmless toNativeSeparators) (new peerFingers)
        events :=
  Runs.alwaysPartial_iff_eachStepPartial (inv_new peerFingers) (fun _ event _ => inv_step event)
    (right_new peerFingers) (fun _ event _ => right_step_iff event) events

end

def destroyedFolder : Folder := ⟨"/peers/c".toList, true, true⟩

def otherFolder : Folder := ⟨"/peers/a".toList, true, true⟩

/-- A round is broken off after `c` has answered, for `c` is destroyed. -/
def brokenOff : List Event :=
  [.refresh, .poolFinished, .vmInformation [destroyedFolder, otherFolder] [], .poolFinished,
    .peerInfo destroyedFolder.question "poweroff".toList, .finishCurrentUpdate, .refresh,
    .poolFinished, .peerInfo otherFolder.question "poweroff".toList, .poolFinished,
    .vmInformation [otherFolder] [], .poolFinished,
    .peerInfo otherFolder.question "poweroff".toList]

/-- The next round does not find `c`, and keeps it for the answer of the round before. -/
theorem not_sweepsRight_brokenOff :
    ¬ Runs.AlwaysPartial (step id) SweepsRight (new ∅) brokenOff := by
  intro always
  have hright := always _ _ (List.prefix_refl _) rfl _ rfl "c".toList _ rfl
  exact absurd hright (by decide)

end PeerController

end SubutaiTray.Peer
