import SubutaiTray.Peer.Rounds

/-!
Rounds that do not overlap.

As long as no question is on its way when a search begins or an update is finished, and
no command runs in a folder that is found, the counter is the number of the questions
that are on their way, and every sweep is right.
-/
namespace SubutaiTray.Peer

namespace PeerController

variable (toNativeSeparators : QString → QString)

/-- The step begins no round inside a round, and breaks none off. -/
def Calm (run : PeerController) : Event → Prop
  | .vmInformation globalStatus peersDir =>
      run.asked = [] ∧
        ∀ folder ∈ foldersOf globalStatus peersDir, folder.isPeer →
          toNativeSeparators folder.absolutePath ∉ run.runningCommands
  | .finishCurrentUpdate => run.asked = []
  | .refresh | .poolFinished | .peerInfo .. | .restReply .. | .commandRegistered _
  | .commandUnregistered _ => True

def nameOf (dir : QString) : QString := parseName (fileNameOf dir)

/-- A round that is alone. -/
structure Alone (run : PeerController) : Prop where
  counted : run.window.numberThreads = run.asked.length
  known : ∀ question ∈ run.asked, question.dir ∈ run.found ∧ question.name = nameOf question.dir
  recorded : ∀ (name : QString) (peer : CLocalPeer),
    run.window.machinePeersTable[name]? = some peer →
      name = nameOf peer.dir ∧ (name ∈ run.heard → peer.dir ∈ run.found)
  pending : run.asked ≠ [] → ∀ dir ∈ run.found,
    nameOf dir ∈ run.heard ∨ ∃ question ∈ run.asked, question.dir = dir
  quiet : run.asked = [] → run.heard = []

variable {toNativeSeparators} {run run' before : PeerController}

theorem Alone.of_perm (h : run.Alone) (hsame : SameRecords run run')
    (hperm : run'.asked.Perm run.asked)
    (hcount : run'.window.numberThreads = run.window.numberThreads) : run'.Alone := by
  refine ⟨?_, ?_, ?_, ?_, ?_⟩
  · rw [hcount, h.counted, hperm.length_eq]
  · intro question hquestion
    rw [hsame.found]
    exact h.known question (hperm.subset hquestion)
  · rw [hsame.machinePeersTable, hsame.found, hsame.heard]
    exact h.recorded
  · intro hnonempty dir hdir
    rw [hsame.found] at hdir
    rw [hsame.heard]
    have hbefore : run.asked ≠ [] := by
      intro hempty
      rw [hempty] at hperm
      exact hnonempty hperm.eq_nil
    exact (h.pending hbefore dir hdir).imp_right fun hex =>
      hex.imp fun question hquestion => ⟨hperm.symm.subset hquestion.1, hquestion.2⟩
  · intro hempty
    rw [hempty] at hperm
    rw [hsame.heard]
    exact h.quiet hperm.nil_eq.symm

/-! ### Sweeps -/

/-- The records of a sweep are those of before, and no answer counts for the next round. -/
theorem alone_machinePeersUpdFinished (h : run.Inv)
    (hrecorded : ∀ (name : QString) (peer : CLocalPeer),
      run.window.machinePeersTable[name]? = some peer → name = nameOf peer.dir)
    (hcount : run.window.numberThreads = 0) (hasked : run.asked = []) :
    run.machinePeersUpdFinished.Alone := by
  have hempty : run.machinePeersUpdFinished.asked = [] := hasked
  refine ⟨?_, ?_, ?_, fun hnonempty => absurd hempty hnonempty, fun _ => rfl⟩
  · rw [hempty]
    exact (PeerWindow.numberThreads_machinePeersUpdFinished run.window).trans hcount
  · intro question hquestion
    rw [hempty] at hquestion
    exact absurd hquestion List.not_mem_nil
  · intro name peer hpeer
    refine ⟨?_, fun hheard => absurd hheard List.not_mem_nil⟩
    have hafter : run.window.machinePeersUpdFinished.machinePeersTable[name]? = some peer := hpeer
    rw [PeerWindow.getElem?_machinePeersUpdFinished h.window] at hafter
    obtain ⟨before, hbefore, hold⟩ := Option.map_eq_some_iff.mp hafter
    rw [← hold]
    exact hrecorded name before (Option.filter_eq_some_iff.mp hbefore).1

/-! ### Answers -/

theorem asked_length_startWork (question : Question) (run : PeerController) :
    (run.startWork toNativeSeparators question).asked.length = run.asked.length + 1 := by
  rw [startWork, asked, asked]
  dsimp only
  rw [List.length_append, List.length_append, List.filterMap_append, List.filterMap_append,
    List.filterMap_append, List.length_append, List.length_append, List.length_append]
  have hone : (List.filterMap Task.question? [Task.peerInfo question]).length = 1 := rfl
  omega

/-- Asking on counts what it asks. -/
theorem counted_askOn (question : Question) (output : QString) (run : PeerController) :
    (run.askOn toNativeSeparators question output).window.numberThreads + run.asked.length =
      run.window.numberThreads + (run.askOn toNativeSeparators question output).asked.length := by
  obtain hself | hport | hrest := @askOn_cases toNativeSeparators question output run
  · rw [hself.2]
  · rw [hport.2, asked_length_startWork]
    have hcount : ((run.setNumberThreads (run.window.numberThreads + 1)).startWork toNativeSeparators
      { question with info := .port }).window.numberThreads = run.window.numberThreads + 1 := rfl
    have hasked : (run.setNumberThreads (run.window.numberThreads + 1)).asked = run.asked := rfl
    rw [hcount, hasked]
    omega
  · rw [hrest.2, asked, asked]
    dsimp only
    rw [List.length_append, List.length_append, List.length_append]
    have hcount : (run.setNumberThreads (run.window.numberThreads + 2)).window.numberThreads =
      run.window.numberThreads + 2 := rfl
    have htasks : (run.setNumberThreads (run.window.numberThreads + 2)).pool ++
      (run.setNumberThreads (run.window.numberThreads + 2)).answered = run.pool ++ run.answered := rfl
    have htwo : [{ question with info := PeerInfo.finger },
      { question with info := PeerInfo.update }].length = 2 := rfl
    rw [hcount, htasks, htwo]
    omega

theorem subset_asked_askOn (question : Question) (output : QString) (run : PeerController) :
    run.asked ⊆ (run.askOn toNativeSeparators question output).asked := by
  obtain hself | hport | hrest := @askOn_cases toNativeSeparators question output run
  · rw [hself.2]
    exact List.Subset.refl _
  · rw [hport.2]
    exact fun other hother => mem_asked_startWork.mpr (Or.inr hother)
  · rw [hrest.2]
    intro other hother
    rw [mem_asked] at hother ⊢
    exact hother.imp_right fun h => h.imp_right fun hrequest => List.mem_append_left _ hrequest

/-- What a round knows just before the answer to `question` is recorded. -/
structure AloneWith (question : Question) (run : PeerController) : Prop where
  counted : run.window.numberThreads = run.asked.length + 1
  known : ∀ other ∈ run.asked, other.dir ∈ run.found ∧ other.name = nameOf other.dir
  self : question.dir ∈ run.found ∧ question.name = nameOf question.dir
  recorded : ∀ (name : QString) (peer : CLocalPeer),
    run.window.machinePeersTable[name]? = some peer →
      name = nameOf peer.dir ∧ (name ∈ run.heard → peer.dir ∈ run.found)
  pending : ∀ dir ∈ run.found,
    nameOf dir ∈ question.name :: run.heard ∨ ∃ other ∈ run.asked, other.dir = dir

theorem aloneWith_askOn {question : Question} (h : AloneWith question run) (output : QString) :
    AloneWith question (run.askOn toNativeSeparators question output) := by
  have hsame := @sameRecords_askOn toNativeSeparators question output run
  refine ⟨?_, ?_, ?_, ?_, ?_⟩
  · have hcount := @counted_askOn toNativeSeparators question output run
    have hbefore := h.counted
    omega
  · intro other hother
    rw [hsame.found]
    cases mem_asked_askOn hother with
    | inl hold => exact h.known other hold
    | inr hnew =>
        rw [hnew.1, hnew.2]
        exact h.self
  · rw [hsame.found]
    exact h.self
  · rw [hsame.machinePeersTable, hsame.found, hsame.heard]
    exact h.recorded
  · intro dir hdir
    rw [hsame.found] at hdir
    rw [hsame.heard]
    exact (h.pending dir hdir).imp_right fun hex =>
      hex.imp fun other hother => ⟨subset_asked_askOn question output run hother.1, hother.2⟩

/-- The new record is found in the directory that was asked. -/
theorem AloneWith.recordPeer {question : Question} (h : AloneWith question run)
    (hmatch : run.window.StatesMatch) (hname : question.name ≠ []) (output : QString)
    {threads : Nat} {name : QString} {peer : CLocalPeer}
    (hpeer : ((run.setNumberThreads threads).recordPeer question.info question.name question.dir
      output).window.machinePeersTable[name]? = some peer) :
    name = nameOf peer.dir ∧ (name ∈ question.name :: run.heard → peer.dir ∈ run.found) := by
  have htable := (@PeerWindow.recorded_recordPeer (run.setNumberThreads threads).window hmatch
    question.info question.name hname question.dir output).machinePeersTable
  rw [PeerController.recordPeer] at hpeer
  dsimp only at hpeer
  rw [htable, Lookups.getElem?_insert] at hpeer
  split at hpeer
  · rename_i hself
    rw [← Option.some.inj hpeer, (PeerWindow.identity_updaterPeer _ _ _ _ _).2.1, hself]
    exact ⟨h.self.2, fun _ => h.self.1⟩
  · rename_i hother
    obtain ⟨hdir, hheard⟩ := h.recorded name peer hpeer
    exact ⟨hdir, fun hmem => hheard ((List.mem_cons.mp hmem).resolve_left hother)⟩

theorem alone_gotPeerInfo (hinv : run.Inv) {question : Question} (h : AloneWith question run)
    (hname : question.name ≠ []) (output : QString) :
    (run.gotPeerInfo question.info question.name question.dir output).Alone := by
  have hpos : run.window.numberThreads ≠ 0 := by
    rw [h.counted]
    exact Nat.succ_ne_zero _
  rw [gotPeerInfo, if_neg hpos]
  have hbefore := (sameRecords_setNumberThreads (run.window.numberThreads - 1) run).inv hinv hinv.named
  have hafter := inv_recordPeer hbefore question.info hname question.dir output
  have hcount : ((run.setNumberThreads (run.window.numberThreads - 1)).recordPeer question.info
      question.name question.dir output).window.numberThreads = run.asked.length := by
    refine (PeerWindow.numberThreads_recordPeer _ _ _ _ _).trans ?_
    have hless : run.window.numberThreads - 1 = run.asked.length := by
      rw [h.counted]
      rfl
    exact hless
  have hcounting : ∀ name peer, ((run.setNumberThreads (run.window.numberThreads - 1)).recordPeer
      question.info question.name question.dir output).window.machinePeersTable[name]? = some peer →
      name = nameOf peer.dir ∧ (name ∈ question.name :: run.heard → peer.dir ∈ run.found) :=
    fun name peer => h.recordPeer hinv.window.statesMatch hname output
  generalize hrun : (run.setNumberThreads (run.window.numberThreads - 1)).recordPeer question.info
    question.name question.dir output = recorded at hcount hcounting hafter ⊢
  have hasked : recorded.asked = run.asked := by rw [← hrun]; rfl
  have hfound : recorded.found = run.found := by rw [← hrun]; rfl
  have hheard : recorded.heard = question.name :: run.heard := by rw [← hrun]; rfl
  dsimp only
  split
  · rename_i hend
    apply alone_machinePeersUpdFinished hafter (fun name peer hpeer => (hcounting name peer hpeer).1) hend
    rw [hasked]
    exact List.eq_nil_of_length_eq_zero (hcount.symm.trans hend)
  · rename_i hgoes
    refine ⟨?_, ?_, ?_, ?_, ?_⟩
    · rw [hcount, hasked]
    · rw [hasked, hfound]
      exact h.known
    · rw [hfound, hheard]
      exact hcounting
    · intro _
      rw [hfound, hheard, hasked]
      exact h.pending
    · intro hempty
      rw [hasked] at hempty
      rw [hcount, hempty] at hgoes
      exact absurd rfl hgoes

/-! ### The search -/

theorem counted_foldl_getPeerInfo (folders : List Folder) (run : PeerController) :
    (folders.foldl (getPeerInfo toNativeSeparators) run).window.numberThreads + run.asked.length =
      run.window.numberThreads + (folders.foldl (getPeerInfo toNativeSeparators) run).asked.length := by
  induction folders generalizing run with
  | nil => rfl
  | cons folder folders ih =>
      have hrest := ih (run.getPeerInfo toNativeSeparators folder)
      have hfirst : (run.getPeerInfo toNativeSeparators folder).window.numberThreads + run.asked.length =
          run.window.numberThreads + (run.getPeerInfo toNativeSeparators folder).asked.length := by
        obtain hskip | hask := @getPeerInfo_cases toNativeSeparators run folder
        · rw [hskip.2]
        · rw [hask.2.2, asked_length_startWork]
          have hcount : ((run.setNumberThreads (run.window.numberThreads + 1)).startWork
            toNativeSeparators folder.question).window.numberThreads =
              run.window.numberThreads + 1 := rfl
          have hasked : (run.setNumberThreads (run.window.numberThreads + 1)).asked = run.asked := rfl
          rw [hcount, hasked]
          omega
      rw [List.foldl_cons]
      omega

/-- What is asked stays asked, and each folder that is not skipped is asked. -/
theorem asked_foldl_getPeerInfo (folders : List Folder) (run : PeerController) :
    run.asked ⊆ (folders.foldl (getPeerInfo toNativeSeparators) run).asked ∧
      ∀ folder ∈ folders, ¬ Skipped toNativeSeparators run folder →
        folder.question ∈ (folders.foldl (getPeerInfo toNativeSeparators) run).asked := by
  induction folders generalizing run with
  | nil => exact ⟨List.Subset.refl _, fun _ hmem => absurd hmem List.not_mem_nil⟩
  | cons folder folders ih =>
      obtain ⟨hrest, hasked⟩ := ih (run.getPeerInfo toNativeSeparators folder)
      rw [List.foldl_cons]
      have hfirst : run.asked ⊆ (run.getPeerInfo toNativeSeparators folder).asked ∧
          (¬ Skipped toNativeSeparators run folder →
            folder.question ∈ (run.getPeerInfo toNativeSeparators folder).asked) := by
        obtain hskip | hask := @getPeerInfo_cases toNativeSeparators run folder
        · rw [hskip.2]
          exact ⟨List.Subset.refl _, fun hnot => absurd hskip.1 hnot⟩
        · rw [hask.2.2]
          exact ⟨fun other hother => mem_asked_startWork.mpr (Or.inr hother),
            fun _ => mem_asked_startWork.mpr (Or.inl rfl)⟩
      refine ⟨fun other hother => hrest (hfirst.1 hother), ?_⟩
      intro other hother hnot
      cases List.mem_cons.mp hother with
      | inl hself =>
          rw [hself] at hnot ⊢
          exact hrest (hfirst.2 hnot)
      | inr hlater =>
          apply hasked other hlater
          rw [Skipped, runningCommands_getPeerInfo]
          exact hnot

/-- A search that begins when nothing is asked asks every folder that it finds. -/
theorem alone_foldl_getPeerInfo (h : run.Alone) (hasked : run.asked = []) {folders : List Folder}
    (hcalm : ∀ folder ∈ folders, folder.isPeer →
      toNativeSeparators folder.absolutePath ∉ run.runningCommands) :
    (folders.foldl (getPeerInfo toNativeSeparators) { run with found := foundIn folders }).Alone := by
  have hsame := @sameRecords_foldl_getPeerInfo toNativeSeparators folders
    { run with found := foundIn folders }
  have hcount := @counted_foldl_getPeerInfo toNativeSeparators folders
    { run with found := foundIn folders }
  have hasks := (@asked_foldl_getPeerInfo toNativeSeparators folders
    { run with found := foundIn folders }).2
  have hnew (question : Question) := @mem_asked_foldl_getPeerInfo toNativeSeparators
    { run with found := foundIn folders } folders question
  generalize folders.foldl (getPeerInfo toNativeSeparators) { run with found := foundIn folders } =
    after at hsame hcount hasks hnew ⊢
  have hheard : after.heard = [] := hsame.heard.trans (h.quiet hasked)
  refine ⟨?_, ?_, ?_, ?_, fun _ => hheard⟩
  · have hnone : run.asked.length = 0 := by rw [hasked]; rfl
    have hbefore := h.counted
    have hsum : after.window.numberThreads + run.asked.length =
      run.window.numberThreads + after.asked.length := hcount
    omega
  · intro question hquestion
    cases hnew question hquestion with
    | inl hold =>
        have hbefore : question ∈ run.asked := hold
        rw [hasked] at hbefore
        exact absurd hbefore List.not_mem_nil
    | inr hfolder =>
        obtain ⟨folder, hmem, hpeer, hself⟩ := hfolder
        rw [hself, hsame.found]
        exact ⟨List.mem_map.mpr ⟨folder, List.mem_filter.mpr ⟨hmem, hpeer⟩, rfl⟩, rfl⟩
  · intro name peer hpeer
    rw [hsame.machinePeersTable] at hpeer
    refine ⟨(h.recorded name peer hpeer).1, fun hmem => ?_⟩
    rw [hheard] at hmem
    exact absurd hmem List.not_mem_nil
  · intro _ dir hdir
    rw [hsame.found] at hdir
    obtain ⟨folder, hfolder, hself⟩ := List.mem_map.mp hdir
    obtain ⟨hmem, hpeer⟩ := List.mem_filter.mp hfolder
    exact Or.inr ⟨folder.question, hasks folder hmem fun hskip => hcalm folder hmem hpeer (hskip hpeer),
      hself⟩

theorem alone_searchLocal (hinv : run.Inv) (h : run.Alone) (hasked : run.asked = [])
    {globalStatus peersDir : List Folder}
    (hcalm : ∀ folder ∈ foldersOf globalStatus peersDir, folder.isPeer →
      toNativeSeparators folder.absolutePath ∉ run.runningCommands) :
    (run.searchLocal toNativeSeparators globalStatus peersDir).Alone := by
  have hsearched : { run with found := foundIn (foldersOf globalStatus peersDir) }.Inv :=
    ⟨hinv.window, hinv.named, hinv.marked⟩
  have hall := alone_foldl_getPeerInfo h hasked hcalm
  rw [searchLocal]
  split
  · rename_i hend
    refine alone_machinePeersUpdFinished (inv_foldl_getPeerInfo hsearched _) ?_ hend ?_
    · exact fun name peer hpeer => (hall.recorded name peer hpeer).1
    · exact List.eq_nil_of_length_eq_zero (hall.counted.symm.trans hend)
  · exact hall

/-! ### Runs -/

theorem aloneWith_taken (h : run.Alone) (htaken : Taken run before) {question : Question}
    (hperm : run.asked.Perm (question :: before.asked)) : AloneWith question before := by
  have hmem : question ∈ run.asked := hperm.symm.subset List.mem_cons_self
  refine ⟨?_, ?_, ?_, ?_, ?_⟩
  · rw [htaken.numberThreads, h.counted, hperm.length_eq, List.length_cons]
  · intro other hother
    rw [htaken.records.found]
    exact h.known other (hperm.symm.subset (List.mem_cons_of_mem _ hother))
  · rw [htaken.records.found]
    exact h.known question hmem
  · rw [htaken.records.machinePeersTable, htaken.records.found, htaken.records.heard]
    exact h.recorded
  · intro dir hdir
    rw [htaken.records.found] at hdir
    rw [htaken.records.heard]
    cases h.pending (List.ne_nil_of_mem hmem) dir hdir with
    | inl hheard => exact Or.inl (List.mem_cons_of_mem _ hheard)
    | inr hex =>
        obtain ⟨other, hother, hdirOther⟩ := hex
        cases List.mem_cons.mp (hperm.subset hother) with
        | inl hself =>
            left
            rw [← hdirOther, hself, ← (h.known question hmem).2]
            exact List.mem_cons_self
        | inr hrest => exact Or.inr ⟨other, hrest, hdirOther⟩

theorem alone_step (event : Event) (hinv : run.Inv) (h : run.Alone)
    (hcalm : Calm toNativeSeparators run event)
    (hstep : step toNativeSeparators run event = some run') : run'.Alone := by
  obtain hsilent | hsearch | hreply := step_cases hstep
  · obtain ⟨-, hsame, hperm, hcount⟩ := hsilent
    refine h.of_perm hsame hperm ?_
    cases hcount with
    | inl hunchanged => exact hunchanged
    | inr hfinished =>
        rw [hfinished.1, Calm] at hcalm
        rw [hfinished.2, h.counted, hcalm]
        rfl
  · obtain ⟨globalStatus, peersDir, before, hevent, htaken, hperm, hrun'⟩ := hsearch
    rw [hevent, Calm, ← htaken.runningCommands] at hcalm
    have hasked : before.asked = [] := by
      rw [hcalm.1] at hperm
      exact hperm.eq_nil
    rw [hrun']
    exact alone_searchLocal (htaken.inv hinv hperm.subset)
      (h.of_perm htaken.records hperm htaken.numberThreads) hasked hcalm.2
  · obtain ⟨question, output, before, -, htaken, hperm, hrun'⟩ := hreply
    have hwith := aloneWith_taken h htaken hperm
    have hbefore := htaken.inv hinv fun other hother =>
      hperm.symm.subset (List.mem_cons_of_mem _ hother)
    have hname := hinv.named question (hperm.symm.subset List.mem_cons_self)
    have hpos : before.window.numberThreads ≠ 0 := by
      rw [hwith.counted]
      exact Nat.succ_ne_zero _
    rw [hrun', parsePeerInfo, if_neg hpos]
    exact alone_gotPeerInfo (inv_askOn hbefore hname output) (aloneWith_askOn hwith output) hname _

theorem harmless_of_calm (event : Event) (h : run.Alone)
    (hcalm : Calm toNativeSeparators run event)
    (hstep : step toNativeSeparators run event = some run') :
    Harmless toNativeSeparators run event := by
  obtain hsilent | hsearch | hreply := step_cases hstep
  · cases event with
    | vmInformation _ _ | peerInfo _ _ | restReply _ _ => exact absurd hsilent.1 Bool.false_ne_true
    | _ => trivial
  · obtain ⟨globalStatus, peersDir, before, hevent, -, -, -⟩ := hsearch
    rw [hevent, Calm] at hcalm
    rw [hevent, Harmless]
    intro _ hskipped name peer _
    rw [h.quiet hcalm.1]
    refine iff_of_false List.not_mem_nil ?_
    intro hdir
    obtain ⟨folder, hfolder, -⟩ := List.mem_map.mp hdir
    obtain ⟨hmem, hpeer⟩ := List.mem_filter.mp hfolder
    exact hcalm.2 folder hmem hpeer (hskipped folder hmem hpeer)
  · obtain ⟨question, output, before, hevent, htaken, hperm, -⟩ := hreply
    have hmem : question ∈ run.asked := hperm.symm.subset List.mem_cons_self
    have hreply : run.ReplyHarmless question output := by
      intro hone _
      refine ⟨(h.known question hmem).1, ?_⟩
      intro name peer hname hpeer
      obtain ⟨hself, hfound⟩ := h.recorded name peer hpeer
      refine ⟨hfound, fun hdir => ?_⟩
      rw [hself]
      refine (h.pending (List.ne_nil_of_mem hmem) peer.dir hdir).resolve_right ?_
      intro hex
      obtain ⟨other, hother, hdirOther⟩ := hex
      have hlength := h.counted
      rw [hone, hperm.length_eq, List.length_cons] at hlength
      rw [List.eq_nil_of_length_eq_zero (Nat.succ.inj hlength).symm] at hperm
      rw [List.mem_singleton.mp (hperm.subset hother)] at hdirOther
      rw [hself, ← hdirOther, ← (h.known question hmem).2] at hname
      exact hname rfl
    cases hevent with
    | inl hpeer =>
        rw [hpeer]
        exact hreply
    | inr hrest =>
        rw [hrest]
        exact hreply

theorem alone_new (peerFingers : StdMap QString) : (new peerFingers).Alone := by
  refine ⟨rfl, ?_, ?_, fun hnonempty => absurd rfl hnonempty, fun _ => rfl⟩
  · intro question hquestion
    exact absurd hquestion List.not_mem_nil
  · intro name peer hpeer
    exact absurd ((Lookups.mem_iff_exists _ name).mpr ⟨peer, hpeer⟩) Std.ExtTreeMap.not_mem_empty

/-- In a run whose rounds do not overlap, every sweep removes exactly the peers whose
directory was not found. -/
theorem right_of_calm (peerFingers : StdMap QString) {events : List Event}
    (hcalm : Runs.EachStepPartial (step toNativeSeparators) (Calm toNativeSeparators)
      (new peerFingers) events) :
    Runs.AlwaysPartial (step toNativeSeparators)
      (fun run => run.Alone ∧ run.SweepsRight) (new peerFingers) events := by
  have hall := @Runs.alwaysPartial_of_eachStepPartial _ _ _ (step toNativeSeparators)
    (fun run => run.Inv ∧ run.Alone ∧ run.SweepsRight) (Calm toNativeSeparators)
    ⟨inv_new peerFingers, alone_new peerFingers, right_new peerFingers⟩
    (fun run event run' h hgood hstep =>
      ⟨inv_step event h.1 hstep, alone_step event h.1 h.2.1 hgood hstep,
        (right_step_iff event h.1 h.2.2 hstep).mpr (harmless_of_calm event h.2.1 hgood hstep)⟩)
    events hcalm
  exact fun past run hpast hrun => (hall past run hpast hrun).2

end PeerController

end SubutaiTray.Peer
