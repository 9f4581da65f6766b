import SubutaiTray.Library.Runs
import SubutaiTray.Peer.Effects

/-!
Updates of PeerOS. A request is tested against the record on the button, and the jobs
mark the record in the table.
-/
namespace SubutaiTray.Peer

namespace PeerWindow

def flagOf (window : PeerWindow) (name : QString) : Option QString :=
  (window.machinePeersTable[name]?).map CLocalPeer.updateAvailable

/-- `machine_peers_table[name].set_update_available(val)`, if the table has the name -/
def setFlag (name val : QString) (window : PeerWindow) : PeerWindow :=
  match window.machinePeersTable[name]? with
  | none => window
  | some peer =>
      { window with
        machinePeersTable := window.machinePeersTable.insert name (peer.setUpdateAvailable val) }

/-- The answers of `CRestWorker::peer_get_info`. -/
def Event.Possible : Event → Prop
  | .reply .update _ _ output => output = "true".toList ∨ output = "false".toList
  | _ => True

instance : DecidablePred Event.Possible
  | .reply .update _ _ _ => inferInstanceAs (Decidable (_ ∨ _))
  | .reply .status .. | .reply .port .. | .reply .finger .. | .reply .provisionStep .. =>
      isTrue trivial
  | .updFinished | .hubUpdate _ | .hubDelete _ | .networkUpdate _ | .networkDelete _ =>
      isTrue trivial

end PeerWindow

/-- The window, and the local peers whose `UpdatePeerOS` has not told its result. -/
structure UpdateRun where
  window : PeerWindow
  jobs : List QString

namespace UpdateRun

def new (peerFingers : StdMap QString) : UpdateRun where
  window := PeerWindow.new peerFingers
  jobs := []

def peerUpdatePeerosSl (peerFingerprint : QString) (run : UpdateRun) : UpdateRun :=
  match run.window.myPeersButtonTable[peerFingerprint]? with
  | none => run
  | some peerInstance =>
      match peerInstance.localPeer with
      | none => run
      | some localPeer =>
          if localPeer.updateAvailable = updatingString then run
          else
            { window := run.window.setFlag localPeer.name updatingString
              jobs := run.jobs ++ [localPeer.name] }

/-- A window event, a request of the user, or the end of a job. -/
inductive Event where
  | window (event : PeerWindow.Event)
  | updateRequest (peerFingerprint : QString)
  | outputReceived (localPeerName : QString)

def step (toUpper : QString → QString) (run : UpdateRun) : Event → Option UpdateRun
  | .window event =>
      if event.Possible then
        (run.window.step toUpper event).map fun window => { run with window := window }
      else none
  | .updateRequest peerFingerprint => some (run.peerUpdatePeerosSl peerFingerprint)
  | .outputReceived localPeerName =>
      if localPeerName ∈ run.jobs then
        some
          { window := run.window.setFlag localPeerName finishedString
            jobs := run.jobs.erase localPeerName }
      else none

def FlagKnown (flag : QString) : Prop :=
  flag = "true".toList ∨ flag = "false".toList ∨ flag = updatingString

/-- The flag of each peer tells whether its one job is in flight. -/
structure FlagRight (run : UpdateRun) : Prop where
  known : ∀ name flag, run.window.flagOf name = some flag → FlagKnown flag
  updating : ∀ name flag, run.window.flagOf name = some flag →
    (flag = updatingString ↔ name ∈ run.jobs)
  once : ∀ name, run.jobs.count name ≤ 1

/-- For which peer a request starts a job. -/
def starts (run : UpdateRun) (peerFingerprint : QString) : Option QString :=
  (run.window.myPeersButtonTable[peerFingerprint]?).bind fun peerInstance =>
    (peerInstance.localPeer.filter fun localPeer => localPeer.updateAvailable ≠ updatingString).map
      CLocalPeer.name

/-- The steps that keep the flags right. -/
def Harmless (run : UpdateRun) : Event → Prop
  | .window (.reply _ name _ _) => name ∈ run.window.machinePeersTable ∨ name ∉ run.jobs
  | .window _ => True
  | .updateRequest peerFingerprint => ∀ name, run.starts peerFingerprint = some name → name ∉ run.jobs
  | .outputReceived _ => True

/-! ### Flags -/

/-- What `set_update_available` makes of a flag. -/
def newFlag (val flag : QString) : QString :=
  if flag = updatingString then if val = finishedString then "false".toList else flag else val

theorem updateAvailable_setUpdateAvailable (val : QString) (peer : CLocalPeer) :
    (peer.setUpdateAvailable val).updateAvailable = newFlag val peer.updateAvailable := by
  rw [CLocalPeer.setUpdateAvailable, newFlag]
  split
  · split
    · rfl
    · rfl
  · rfl

theorem flagOf_setFlag (name val a : QString) (window : PeerWindow) :
    (window.setFlag name val).flagOf a =
      if a = name then (window.flagOf a).map (newFlag val) else window.flagOf a := by
  rw [PeerWindow.setFlag]
  cases hfound : window.machinePeersTable[name]? with
  | none =>
      dsimp only
      split
      · rename_i heq
        rw [heq, PeerWindow.flagOf, hfound, Option.map_none, Option.map_none]
      · rfl
  | some peer =>
      rw [PeerWindow.flagOf]
      dsimp only
      rw [Lookups.getElem?_insert]
      split
      · rename_i heq
        rw [heq, PeerWindow.flagOf, hfound, Option.map_some, Option.map_some, Option.map_some,
          updateAvailable_setUpdateAvailable]
      · rfl

/-- The flag of the new record. -/
def replyFlag (info : PeerInfo) (output flag : QString) : QString :=
  if info = .update then newFlag output flag else flag

theorem updateAvailable_updaterPeer (info : PeerInfo) (name dir output : QString) (window : PeerWindow) :
    (window.updaterPeer info name dir output).updateAvailable =
      replyFlag info output ((window.flagOf name).getD "false".toList) := by
  have hold : ((window.machinePeersTable[name]?).getD CLocalPeer.new).updateAvailable =
      (window.flagOf name).getD "false".toList := by
    rw [PeerWindow.flagOf]
    cases window.machinePeersTable[name]? with
    | none => rfl
    | some peer => rfl
  rw [← hold]
  cases info with
  | update => exact updateAvailable_setUpdateAvailable output _
  | status | port | finger | provisionStep => rfl

variable {run run' : UpdateRun} {window window' : PeerWindow}

theorem flagOf_recordPeer (h : window.StatesMatch) (info : PeerInfo) {name : QString}
    (hname : name ≠ []) (dir output a : QString) :
    (window.recordPeer info name dir output).flagOf a =
      if a = name then some (replyFlag info output ((window.flagOf name).getD "false".toList))
      else window.flagOf a := by
  have hrecorded := PeerWindow.recorded_recordPeer h info hname dir output
  rw [PeerWindow.flagOf, hrecorded.machinePeersTable, Lookups.getElem?_insert]
  split
  · rw [Option.map_some, updateAvailable_updaterPeer]
  · rfl

theorem flagOf_machinePeersUpdFinished (h : window.Inv) {name flag : QString}
    (hflag : window.machinePeersUpdFinished.flagOf name = some flag) :
    window.flagOf name = some flag := by
  rw [PeerWindow.flagOf, PeerWindow.getElem?_machinePeersUpdFinished h, Option.map_map] at hflag
  obtain ⟨peer, hpeer, hpeerFlag⟩ := Option.map_eq_some_iff.mp hflag
  rw [PeerWindow.flagOf, (Option.filter_eq_some_iff.mp hpeer).1, Option.map_some]
  exact congrArg some hpeerFlag

theorem newFlag_updating {val : QString} (h : val ≠ finishedString) {flag : QString}
    (hflag : flag = updatingString) : newFlag val flag = flag := by
  rw [newFlag, if_pos hflag, if_neg h]

/-- An answer never starts or ends an update. -/
theorem replyFlag_known {info : PeerInfo} {name dir output flag : QString}
    (h : (PeerWindow.Event.reply info name dir output).Possible) (hflag : FlagKnown flag) :
    FlagKnown (replyFlag info output flag) ∧
      (replyFlag info output flag = updatingString ↔ flag = updatingString) := by
  rw [replyFlag]
  split
  · rename_i hinfo
    rw [hinfo] at h
    have hoption : output = "true".toList ∨ output = "false".toList := h
    by_cases hupdating : flag = updatingString
    · have hsame : newFlag output flag = flag := by
        cases hoption with
        | inl htrue => exact newFlag_updating (by rw [htrue]; decide) hupdating
        | inr hfalse => exact newFlag_updating (by rw [hfalse]; decide) hupdating
      rw [hsame]
      exact ⟨hflag, Iff.rfl⟩
    · rw [newFlag, if_neg hupdating]
      cases hoption with
      | inl htrue =>
          rw [htrue]
          exact ⟨Or.inl rfl, iff_of_false (by decide) hupdating⟩
      | inr hfalse =>
          rw [hfalse]
          exact ⟨Or.inr (Or.inl rfl), iff_of_false (by decide) hupdating⟩
  · exact ⟨hflag, Iff.rfl⟩

theorem mem_iff_flagOf {name : QString} :
    name ∈ window.machinePeersTable ↔ ∃ flag, window.flagOf name = some flag := by
  rw [← Std.ExtTreeMap.isSome_getElem?_iff_mem, ← Option.isSome_iff_exists, PeerWindow.flagOf,
    Option.isSome_map]

theorem flagRight_recordPeer_iff (hmatch : run.window.StatesMatch) (h : run.FlagRight)
    {info : PeerInfo} {name dir output : QString} (hname : name ≠ [])
    (hpossible : (PeerWindow.Event.reply info name dir output).Possible) :
    { run with window := run.window.recordPeer info name dir output }.FlagRight ↔
      name ∈ run.window.machinePeersTable ∨ name ∉ run.jobs := by
  have hflags := flagOf_recordPeer hmatch info hname dir output
  have hbefore : FlagKnown ((run.window.flagOf name).getD "false".toList) := by
    cases hold : run.window.flagOf name with
    | none => exact Or.inr (Or.inl rfl)
    | some flag => exact h.known name flag hold
  have hreply := replyFlag_known hpossible hbefore
  constructor
  · intro h'
    by_cases hmem : name ∈ run.window.machinePeersTable
    · exact Or.inl hmem
    · right
      have hnone : run.window.flagOf name = none :=
        Option.eq_none_iff_forall_ne_some.mpr fun flag hflag => hmem (mem_iff_flagOf.mpr ⟨flag, hflag⟩)
      have hself := hflags name
      rw [if_pos rfl] at hself
      rw [← h'.updating name _ hself, hreply.2, hnone]
      decide
  · intro hgood
    refine ⟨?_, ?_, h.once⟩
    · intro a flag hflag
      rw [hflags a] at hflag
      split at hflag
      · rw [← Option.some.inj hflag]
        exact hreply.1
      · exact h.known a flag hflag
    · intro a flag hflag
      rw [hflags a] at hflag
      split at hflag
      · rename_i heq
        rw [← Option.some.inj hflag, hreply.2, heq]
        cases hold : run.window.flagOf name with
        | none =>
            have hnot := hgood.resolve_left fun hmem => by
              obtain ⟨flag, hflag⟩ := mem_iff_flagOf.mp hmem
              rw [hold] at hflag
              exact Option.some_ne_none flag hflag.symm
            exact iff_of_false (by decide) hnot
        | some before => exact h.updating name before hold
      · exact h.updating a flag hflag

/-- A step that takes no job and changes no flag. -/
theorem FlagRight.mono (h : run.FlagRight)
    (hflags : ∀ name flag, window'.flagOf name = some flag → run.window.flagOf name = some flag) :
    { run with window := window' }.FlagRight :=
  ⟨fun name flag hflag => h.known name flag (hflags name flag hflag),
    fun name flag hflag => h.updating name flag (hflags name flag hflag), h.once⟩

theorem peerUpdatePeerosSl_eq (peerFingerprint : QString) (run : UpdateRun) :
    run.peerUpdatePeerosSl peerFingerprint =
      match run.starts peerFingerprint with
      | none => run
      | some name =>
          { window := run.window.setFlag name updatingString, jobs := run.jobs ++ [name] } := by
  rw [peerUpdatePeerosSl, starts]
  cases run.window.myPeersButtonTable[peerFingerprint]? with
  | none => rfl
  | some peerInstance =>
      dsimp only [Option.bind_some]
      cases peerInstance.localPeer with
      | none => rfl
      | some localPeer =>
          dsimp only
          rw [Option.filter_some]
          by_cases hupdating : localPeer.updateAvailable = updatingString
          · rw [if_pos hupdating, if_neg]
            · rfl
            · rw [decide_eq_true_iff]
              exact not_not_intro hupdating
          · rw [if_neg hupdating, if_pos (decide_eq_true hupdating)]
            rfl

theorem newFlag_updatingString (flag : QString) : newFlag updatingString flag = updatingString := by
  rw [newFlag]
  split
  · rename_i hupdating
    rw [if_neg (by decide), hupdating]
  · rfl

theorem flagRight_start_iff (h : run.FlagRight) (name : QString) :
    UpdateRun.FlagRight
        { window := run.window.setFlag name updatingString, jobs := run.jobs ++ [name] } ↔
      name ∉ run.jobs := by
  constructor
  · intro h' hmem
    have honce := h'.once name
    rw [List.count_append, List.count_singleton_self] at honce
    have hpos := List.count_pos_iff.mpr hmem
    omega
  · intro hnot
    have hflags (a flag : QString)
        (hflag : (run.window.setFlag name updatingString).flagOf a = some flag) :
        (a = name ∧ flag = updatingString) ∨ (a ≠ name ∧ run.window.flagOf a = some flag) := by
      rw [flagOf_setFlag] at hflag
      split at hflag
      · rename_i heq
        obtain ⟨before, -, hbefore⟩ := Option.map_eq_some_iff.mp hflag
        rw [newFlag_updatingString] at hbefore
        exact Or.inl ⟨heq, hbefore.symm⟩
      · exact Or.inr ⟨‹_›, hflag⟩
    refine ⟨?_, ?_, ?_⟩
    · intro a flag hflag
      cases hflags a flag hflag with
      | inl hself => exact Or.inr (Or.inr hself.2)
      | inr hother => exact h.known a flag hother.2
    · intro a flag hflag
      dsimp only
      rw [List.mem_append, List.mem_singleton]
      cases hflags a flag hflag with
      | inl hself => exact iff_of_true hself.2 (Or.inr hself.1)
      | inr hother => rw [h.updating a flag hother.2, or_iff_left hother.1]
    · intro a
      dsimp only
      rw [List.count_append]
      by_cases heq : a = name
      · rw [heq, List.count_singleton_self, List.count_eq_zero_of_not_mem hnot]
      · rw [List.count_singleton, if_neg fun hbeq => heq (eq_of_beq hbeq).symm]
        exact h.once a

theorem flagRight_finish (h : run.FlagRight) {name : QString} (hmem : name ∈ run.jobs) :
    UpdateRun.FlagRight
      { window := run.window.setFlag name finishedString, jobs := run.jobs.erase name } := by
  have hflags (a flag : QString)
      (hflag : (run.window.setFlag name finishedString).flagOf a = some flag) :
      (a = name ∧ flag = "false".toList) ∨ (a ≠ name ∧ run.window.flagOf a = some flag) := by
    rw [flagOf_setFlag] at hflag
    split at hflag
    · rename_i heq
      obtain ⟨before, hold, hbefore⟩ := Option.map_eq_some_iff.mp hflag
      rw [heq] at hold
      rw [newFlag, if_pos ((h.updating name before hold).mpr hmem), if_pos rfl] at hbefore
      exact Or.inl ⟨heq, hbefore.symm⟩
    · exact Or.inr ⟨‹_›, hflag⟩
  have hcount (a : QString) : (run.jobs.erase name).count a = run.jobs.count a - if a = name then 1 else 0 := by
    rw [List.count_erase]
    apply congrArg (run.jobs.count a - ·)
    exact if_congr (beq_iff_eq.trans eq_comm) rfl rfl
  refine ⟨?_, ?_, ?_⟩
  · intro a flag hflag
    cases hflags a flag hflag with
    | inl hself => exact Or.inr (Or.inl hself.2)
    | inr hother => exact h.known a flag hother.2
  · intro a flag hflag
    cases hflags a flag hflag with
    | inl hself =>
        rw [hself.1, hself.2]
        refine iff_of_false (by decide) ?_
        rw [← List.count_pos_iff, hcount, if_pos rfl]
        have honce := h.once name
        omega
    | inr hother =>
        dsimp only
        rw [h.updating a flag hother.2, List.mem_erase_of_ne hother.1]
  · intro a
    dsimp only
    rw [hcount]
    exact (Nat.sub_le _ _).trans (h.once a)

variable (toUpper : QString → QString)

theorem flagRight_step_iff (event : Event) (hinv : run.window.Inv) (h : run.FlagRight)
    (hstep : step toUpper run event = some run') : run'.FlagRight ↔ run.Harmless event := by
  cases event with
  | window event =>
      rw [step] at hstep
      split at hstep
      · rename_i hpossible
        obtain ⟨window', hwindow, hrun'⟩ := Option.map_eq_some_iff.mp hstep
        rw [← hrun']
        obtain hreply | hfinished | hother := PeerWindow.step_cases toUpper hinv.statesMatch hwindow
        · obtain ⟨info, name, dir, output, hevent, hname, hwindow'⟩ := hreply
          rw [hevent] at hpossible ⊢
          rw [hwindow']
          exact flagRight_recordPeer_iff hinv.statesMatch h hname hpossible
        · rw [hfinished.1, hfinished.2]
          refine iff_of_true (h.mono fun name flag hflag => ?_) trivial
          exact flagOf_machinePeersUpdFinished hinv hflag
        · refine iff_of_true (h.mono fun name flag hflag => ?_) ?_
          · rw [PeerWindow.flagOf, hother.2.machinePeersTable] at hflag
            exact hflag
          · cases event with
            | reply info name dir output => exact absurd hother.1.symm Bool.false_ne_true
            | _ => trivial
      · exact absurd hstep.symm (Option.some_ne_none run')
  | updateRequest peerFingerprint =>
      rw [← Option.some.inj hstep, peerUpdatePeerosSl_eq, Harmless]
      cases hstarts : run.starts peerFingerprint with
      | none => exact iff_of_true h fun name hname => absurd hname.symm (Option.some_ne_none name)
      | some name =>
          rw [flagRight_start_iff h name]
          constructor
          · intro hnot other hother
            rw [← Option.some.inj hother]
            exact hnot
          · intro hall
            exact hall name rfl
  | outputReceived name =>
      rw [step] at hstep
      split at hstep
      · rw [← Option.some.inj hstep]
        exact iff_of_true (flagRight_finish h ‹_›) trivial
      · exact absurd hstep.symm (Option.some_ne_none run')

theorem inv_setFlag (h : window.Inv) (name val : QString) : (window.setFlag name val).Inv := by
  rw [PeerWindow.setFlag]
  cases hfound : window.machinePeersTable[name]? with
  | none => exact h
  | some peer =>
      refine ⟨h.statesMatch, PeerWindow.named_insert h.named (h.named name peer hfound).1 ?_ rfl⟩
      exact (PeerWindow.name_setUpdateAvailable val peer).trans (h.named name peer hfound).2

theorem inv_step (event : Event) (h : run.window.Inv) (hstep : step toUpper run event = some run') :
    run'.window.Inv := by
  cases event with
  | window event =>
      rw [step] at hstep
      split at hstep
      · obtain ⟨window', hwindow, hrun'⟩ := Option.map_eq_some_iff.mp hstep
        rw [← hrun']
        exact PeerWindow.inv_step toUpper event h hwindow
      · exact absurd hstep.symm (Option.some_ne_none run')
  | updateRequest peerFingerprint =>
      rw [← Option.some.inj hstep, peerUpdatePeerosSl_eq]
      cases run.starts peerFingerprint with
      | none => exact h
      | some name => exact inv_setFlag h name updatingString
  | outputReceived name =>
      rw [step] at hstep
      split at hstep
      · rw [← Option.some.inj hstep]
        exact inv_setFlag h name finishedString
      · exact absurd hstep.symm (Option.some_ne_none run')

theorem flagRight_new (peerFingers : StdMap QString) : (new peerFingers).FlagRight := by
  have hnone (name : QString) : (new peerFingers).window.flagOf name = none := by
    rw [PeerWindow.flagOf, new, PeerWindow.new]
    dsimp only
    rw [Std.ExtTreeMap.getElem?_empty, Option.map_none]
  refine ⟨?_, ?_, ?_⟩
  · intro name flag hflag
    rw [hnone] at hflag
    exact absurd hflag.symm (Option.some_ne_none flag)
  · intro name flag hflag
    rw [hnone] at hflag
    exact absurd hflag.symm (Option.some_ne_none flag)
  · intro name
    exact Nat.zero_le 1

/-- The flags are right along a run exactly when no request starts a second job of a peer
and no answer brings a peer back whose job is in flight. -/
theorem flagRight_iff_harmless (peerFingers : StdMap QString) (events : List Event) :
    Runs.AlwaysPartial (step toUpper) FlagRight (new peerFingers) events ↔
      Runs.EachStepPartial (step toUpper) Harmless (new peerFingers) events :=
  @Runs.alwaysPartial_iff_eachStepPartial _ _ _ (step toUpper) (fun run => run.window.Inv) FlagRight
    Harmless (PeerWindow.inv_new peerFingers) (fun _ event _ => inv_step toUpper event)
    (flagRight_new peerFingers) (fun _ event _ => flagRight_step_iff toUpper event) events

/-- The button still shows the record of before the first request. -/
theorem not_flagRight_requestedTwice :
    ¬ Runs.AlwaysPartial (step id) FlagRight (new ∅)
      [.window (.reply .update "a".toList "/peers/a".toList "true".toList),
        .updateRequest "a".toList, .updateRequest "a".toList] := by
  intro always
  have hright := always _ _ (List.prefix_refl _) rfl
  exact absurd (hright.once "a".toList) (by decide)

end UpdateRun

end SubutaiTray.Peer
