import SubutaiTray.Library.Runs
import SubutaiTray.Qt.StdMap

/-!
The dialogs of the tray window (`m_dct_active_dialogs`), each entered under the title it is opened with.

A dialog leaves the table under the title that it has when it is closed. The dialog of a peer takes a
title with every refresh: when the peer has got another name, the entry stays behind, and it points to a
dialog that is deleted.
-/
namespace SubutaiTray.Peer

/-- The names that `DlgPeer` knows of its peer. -/
structure DlgPeerNames where
  hubAvailable : Bool := false
  advanced : Bool := false
  peerName : QString := []
  rhName : QString := []

/-- What `addPeer` is given: the name on the hub, the fingerprint and the address in the network, and the
name on this machine. -/
structure KnownPeer where
  hubPeer : Option QString
  localPeer : QString × QString
  lp : Option QString

namespace DlgPeerNames

def addHubPeer (name : QString) (dlg : DlgPeerNames) : DlgPeerNames :=
  { dlg with hubAvailable := true, peerName := name }

def addLocalPeer (peer : QString × QString) (dlg : DlgPeerNames) : DlgPeerNames :=
  if dlg.hubAvailable then dlg else { dlg with peerName := peer.2 }

def addMachinePeer (name : QString) (dlg : DlgPeerNames) : DlgPeerNames :=
  { dlg with advanced := true, rhName := name }

def addPeer (info : KnownPeer) (dlg : DlgPeerNames) : DlgPeerNames :=
  let dlg :=
    match info.hubPeer with
    | some name => dlg.addHubPeer name
    | none => { dlg with hubAvailable := false }
  let dlg := if info.localPeer.1.isEmpty then dlg else dlg.addLocalPeer info.localPeer
  match info.lp with
  | some name => dlg.addMachinePeer name
  | none => { dlg with advanced := false }

/-- `updateUI`: the title of a dialog that has the title. -/
def windowTitle (title : QString) (dlg : DlgPeerNames) : QString :=
  if dlg.advanced then
    if dlg.hubAvailable then dlg.peerName else dlg.rhName
  else title

def getPeerName (dlg : DlgPeerNames) : QString :=
  if dlg.hubAvailable then dlg.peerName
  else if dlg.advanced then dlg.rhName
  else dlg.peerName

/-- A peer on this machine gets the title of the hub, or else that of the machine. -/
theorem windowTitle_addPeer (title : QString) (info : KnownPeer) (dlg : DlgPeerNames) :
    (dlg.addPeer info).windowTitle title = info.lp.elim title info.hubPeer.getD := by
  rw [addPeer]
  cases info.lp with
  | none => rfl
  | some name =>
      cases info.hubPeer with
      | none => cases info.localPeer.1.isEmpty <;> rfl
      | some hubName => cases info.localPeer.1.isEmpty <;> rfl

end DlgPeerNames

structure OpenDialog where
  title : QString
  peer : Option DlgPeerNames

/-- The dialogs that are not deleted, and the table of the window. -/
structure ActiveDialogs where
  dialogs : Std.ExtTreeMap Nat OpenDialog
  activeDialogs : StdMap Nat
  next : Nat
  fresh : ∀ dlg ∈ dialogs, dlg < next

inductive WindowEvent where
  | showDialog (title : QString)
  | myPeerButtonPressed (info : Option KnownPeer)
  | updatePeer (dlg : Nat) (info : KnownPeer)
  | finished (dlg : Nat)
  | logout

namespace ActiveDialogs

def new : ActiveDialogs where
  dialogs := ∅
  activeDialogs := ∅
  next := 0
  fresh _ h := absurd h Std.ExtTreeMap.not_mem_empty

/-- `show_dialog`; `none` when it calls a dialog that is deleted. -/
def showDialog (title : QString) (peer : Option DlgPeerNames) (window : ActiveDialogs) :
    Option ActiveDialogs :=
  match window.activeDialogs[title]? with
  | none =>
      some
        { dialogs := window.dialogs.insert window.next { title, peer }
          activeDialogs := window.activeDialogs.insert title window.next
          next := window.next + 1
          fresh := by
            intro dlg hdlg
            rw [Lookups.mem_insert] at hdlg
            exact hdlg.elim (fun heq => heq ▸ Nat.lt_succ_self _)
              fun hmem => Nat.lt_succ_of_lt (window.fresh dlg hmem) }
  | some dlg => if dlg ∈ window.dialogs then some window else none

/-- `my_peer_button_pressed_sl`: what is told of the peer, when it has a button. -/
def myPeerButtonPressed (info : Option KnownPeer) (window : ActiveDialogs) : Option ActiveDialogs :=
  let dlg : DlgPeerNames := info.elim {} fun info => DlgPeerNames.addPeer info {}
  window.showDialog dlg.getPeerName (some dlg)

/-- The timer of the dialog of a peer that has a button. -/
def updatePeer (dlg : Nat) (info : KnownPeer) (window : ActiveDialogs) : ActiveDialogs :=
  match h : window.dialogs[dlg]? with
  | some { title, peer := some peer } =>
      { window with
        dialogs := window.dialogs.insert dlg
          { title := (peer.addPeer info).windowTitle title, peer := some (peer.addPeer info) }
        fresh := by
          intro other hother
          rw [Lookups.mem_insert] at hother
          exact hother.elim (fun heq => heq ▸ window.fresh dlg (Lookups.mem_iff_exists _ _ |>.mpr ⟨_, h⟩))
            (window.fresh other) }
  | _ => window

/-- `dialog_closed`, after which the dialog is deleted. -/
def dialogClosed (window : ActiveDialogs) (dlg : Nat) : ActiveDialogs :=
  match window.dialogs[dlg]? with
  | none => window
  | some dialog =>
      { window with
        dialogs := window.dialogs.erase dlg
        activeDialogs := window.activeDialogs.erase dialog.title
        fresh := fun other hother => window.fresh other (Lookups.mem_erase _ _ _ |>.mp hother).2 }

def lstActiveDialogs (window : ActiveDialogs) : List Nat :=
  window.activeDialogs.toList.map Prod.snd

/-- The closing of all dialogs; they are deleted when it is over. -/
def logout (window : ActiveDialogs) : Option ActiveDialogs :=
  if window.lstActiveDialogs.all (· ∈ window.dialogs) then
    some (window.lstActiveDialogs.foldl dialogClosed window)
  else none

def step (window : ActiveDialogs) : WindowEvent → Option ActiveDialogs
  | .showDialog title => window.showDialog title none
  | .myPeerButtonPressed info => window.myPeerButtonPressed info
  | .updatePeer dlg info => some (window.updatePeer dlg info)
  | .finished dlg => some (window.dialogClosed dlg)
  | .logout => window.logout

/-- The title that an open dialog has now. -/
def titleOf (window : ActiveDialogs) (dlg : Nat) : Option QString :=
  window.dialogs[dlg]?.map OpenDialog.title

/-- The table has the open dialogs under their titles, and nothing else. -/
def Right (window : ActiveDialogs) : Prop :=
  ∀ (title : QString) (dlg : Nat),
    window.activeDialogs[title]? = some dlg ↔ window.titleOf dlg = some title

/-- No entry points to a dialog that is deleted. -/
def Safe (window : ActiveDialogs) : Prop :=
  ∀ (title : QString) (dlg : Nat), window.activeDialogs[title]? = some dlg → dlg ∈ window.dialogs

/-- What a refresh tells of a peer on this machine is the name that its dialog has for a title. -/
def KeepsTitle (window : ActiveDialogs) : WindowEvent → Prop
  | .updatePeer dlg info => ∀ dialog ∈ window.dialogs[dlg]?, dialog.peer.isSome = true →
      ∀ rhName ∈ info.lp, info.hubPeer.getD rhName = dialog.title
  | _ => True

/-- A dialog is closed under the title with which it is entered, and when all are, each title of the
table is the present title of one of them. -/
def Harmless (window : ActiveDialogs) : WindowEvent → Prop
  | .finished dlg => ∀ title : QString,
      window.activeDialogs[title]? = some dlg → window.titleOf dlg = some title
  | .logout => ∀ title ∈ window.activeDialogs,
      ∃ dlg ∈ window.lstActiveDialogs, window.titleOf dlg = some title
  | _ => True

variable {window after : ActiveDialogs} {title : QString} {dlg other : Nat}

/-! ## What the steps do -/

theorem mem_dialogs_iff : dlg ∈ window.dialogs ↔ ∃ title, window.titleOf dlg = some title := by
  rw [Lookups.mem_iff_exists, titleOf]
  cases window.dialogs[dlg]? with
  | none => simp
  | some dialog => simp

theorem mem_lstActiveDialogs :
    dlg ∈ window.lstActiveDialogs ↔ ∃ title : QString, window.activeDialogs[title]? = some dlg := by
  simp [lstActiveDialogs, List.mem_map, Std.ExtTreeMap.mem_toList_iff_getElem?_eq_some]

theorem titleOf_next (window : ActiveDialogs) : window.titleOf window.next = none := by
  cases h : window.titleOf window.next with
  | none => rfl
  | some title =>
      have hmem : window.next ∈ window.dialogs := mem_dialogs_iff.mpr ⟨title, h⟩
      exact absurd (window.fresh window.next hmem) (Nat.lt_irrefl _)

/-- What `show_dialog` can do. -/
inductive ShowCase (window : ActiveDialogs) (title : QString) : Option ActiveDialogs → Prop
  | raised (dlg : Nat) (entered : window.activeDialogs[title]? = some dlg) (alive : dlg ∈ window.dialogs) :
      ShowCase window title (some window)
  | deleted (dlg : Nat) (entered : window.activeDialogs[title]? = some dlg)
      (dead : dlg ∉ window.dialogs) : ShowCase window title none
  | opened (absent : window.activeDialogs[title]? = none) (after : ActiveDialogs)
      (active : after.activeDialogs = window.activeDialogs.insert title window.next)
      (titles : ∀ dlg, after.titleOf dlg = if dlg = window.next then some title else window.titleOf dlg) :
      ShowCase window title (some after)

theorem showCase (window : ActiveDialogs) (title : QString) (peer : Option DlgPeerNames) :
    ShowCase window title (window.showDialog title peer) := by
  rw [showDialog]
  split
  · rename_i habsent
    refine .opened habsent _ rfl ?_
    intro dlg
    rw [titleOf, titleOf, Lookups.getElem?_insert]
    split <;> rfl
  · rename_i dlg hentered
    split
    · rename_i halive
      exact .raised dlg hentered halive
    · rename_i hdead
      exact .deleted dlg hentered hdead

theorem activeDialogs_updatePeer (window : ActiveDialogs) (dlg : Nat) (info : KnownPeer) :
    (window.updatePeer dlg info).activeDialogs = window.activeDialogs := by
  rw [updatePeer]
  split <;> rfl

/-- The title of the dialog of a peer after a refresh. -/
def titleAfter (info : KnownPeer) (dialog : OpenDialog) : QString :=
  if dialog.peer.isSome then info.lp.elim dialog.title info.hubPeer.getD else dialog.title

theorem titleOf_updatePeer (window : ActiveDialogs) (dlg : Nat) (info : KnownPeer) (other : Nat) :
    (window.updatePeer dlg info).titleOf other =
      if other = dlg then window.dialogs[dlg]?.map (titleAfter info) else window.titleOf other := by
  rw [updatePeer]
  split
  · rename_i title peer hdialog
    rw [titleOf, titleOf, Lookups.getElem?_insert, hdialog]
    split
    · rw [Option.map_some, DlgPeerNames.windowTitle_addPeer]
      rfl
    · rfl
  · rename_i hother
    by_cases heq : other = dlg
    · rw [if_pos heq, heq, titleOf]
      apply Option.map_congr
      intro dialog hdialog
      rw [titleAfter, if_neg]
      intro hpeer
      obtain ⟨peer, hpeer⟩ := Option.isSome_iff_exists.mp hpeer
      exact hother dialog.title peer (by rw [hdialog, ← hpeer])
    · rw [if_neg heq]

theorem titleOf_dialogClosed (window : ActiveDialogs) (dlg other : Nat) :
    (window.dialogClosed dlg).titleOf other = if other = dlg then none else window.titleOf other := by
  rw [dialogClosed]
  split
  · rename_i hnone
    by_cases hother : other = dlg
    · rw [if_pos hother, titleOf, hother, hnone]
      rfl
    · rw [if_neg hother]
  · rw [titleOf, titleOf, Lookups.getElem?_erase]
    split <;> rfl

theorem activeDialogs_dialogClosed (window : ActiveDialogs) (dlg : Nat) (title : QString) :
    (window.dialogClosed dlg).activeDialogs[title]? =
      if window.titleOf dlg = some title then none else window.activeDialogs[title]? := by
  rw [dialogClosed]
  split
  · rename_i hnone
    rw [titleOf, hnone, Option.map_none, if_neg (Option.some_ne_none title).symm]
  · rename_i dialog hdialog
    rw [Lookups.getElem?_erase, titleOf, hdialog]
    refine if_congr ?_ rfl rfl
    rw [Option.map_some, Option.some_inj]
    exact eq_comm

theorem titleOf_closed (window : ActiveDialogs) (dlgs : List Nat) (other : Nat) :
    (dlgs.foldl dialogClosed window).titleOf other =
      if other ∈ dlgs then none else window.titleOf other := by
  induction dlgs generalizing window with
  | nil => rw [if_neg List.not_mem_nil]; rfl
  | cons dlg dlgs ih =>
      rw [List.foldl_cons, ih, titleOf_dialogClosed]
      by_cases hrest : other ∈ dlgs
      · rw [if_pos hrest, if_pos (List.mem_cons_of_mem dlg hrest)]
      · rw [if_neg hrest]
        refine if_congr ?_ rfl rfl
        rw [List.mem_cons]
        exact (or_iff_left hrest).symm

/-- Each dialog takes the entry of the title that it has. -/
theorem activeDialogs_closed (window : ActiveDialogs) (dlgs : List Nat) (title : QString) :
    (dlgs.foldl dialogClosed window).activeDialogs[title]? =
      if ∃ dlg ∈ dlgs, window.titleOf dlg = some title then none else window.activeDialogs[title]? := by
  induction dlgs generalizing window with
  | nil => rw [if_neg (by simp)]; rfl
  | cons dlg dlgs ih =>
      have htitle (other : Nat) : (window.dialogClosed dlg).titleOf other = some title ↔
          other ≠ dlg ∧ window.titleOf other = some title := by
        rw [titleOf_dialogClosed]
        by_cases hother : other = dlg
        · rw [if_pos hother]
          exact iff_of_false (Option.some_ne_none title).symm fun h => h.1 hother
        · rw [if_neg hother]
          exact (and_iff_right hother).symm
      rw [List.foldl_cons, ih, activeDialogs_dialogClosed]
      by_cases hdlg : window.titleOf dlg = some title
      · rw [if_pos hdlg, ite_self, if_pos ⟨dlg, List.mem_cons_self, hdlg⟩]
      · rw [if_neg hdlg]
        refine if_congr ?_ rfl rfl
        simp only [htitle, List.exists_mem_cons_iff, or_iff_right hdlg]
        refine exists_congr fun other => and_congr_right fun _ => and_iff_right_of_imp fun hother => ?_
        rintro rfl
        exact hdlg hother

/-! ## No entry of a deleted dialog -/

theorem safe_iff : window.Safe ↔ ∀ (title : QString) (dlg : Nat), window.activeDialogs[title]? = some dlg →
    window.titleOf dlg ≠ none := by
  simp only [Safe, mem_dialogs_iff, Option.ne_none_iff_exists']

/-- When dialogs are closed, those of their entries have to go that have their titles. -/
theorem safe_closed_iff (h : window.Safe) (dlgs : List Nat) :
    (dlgs.foldl dialogClosed window).Safe ↔ ∀ (title : QString), ∀ dlg ∈ dlgs,
      window.activeDialogs[title]? = some dlg → ∃ other ∈ dlgs, window.titleOf other = some title := by
  rw [safe_iff] at h ⊢
  simp only [titleOf_closed, activeDialogs_closed]
  constructor
  · intro hsafe title dlg hdlg hentered
    by_contra hnone
    have halive := hsafe title dlg
    rw [if_neg hnone, if_pos hdlg] at halive
    exact halive hentered rfl
  · intro hclosed title dlg hentered
    split at hentered
    · exact absurd hentered.symm (Option.some_ne_none dlg)
    · rename_i hnone
      rw [if_neg fun hdlg => hnone (hclosed title dlg hdlg hentered)]
      exact h title dlg hentered

theorem safe_showDialog (h : window.Safe) {peer : Option DlgPeerNames}
    (hshown : window.showDialog title peer = some after) : after.Safe := by
  have hcase := showCase window title peer
  rw [hshown] at hcase
  cases hcase with
  | raised dlg entered alive => exact h
  | opened absent _ active titles =>
      rw [safe_iff] at h ⊢
      intro other dlg hentered
      rw [titles]
      rw [active, Lookups.getElem?_insert] at hentered
      split
      · exact Option.some_ne_none title
      · rename_i hne
        split at hentered
        · exact absurd (Option.some_inj.mp hentered).symm hne
        · exact h other dlg hentered

theorem safe_updatePeer (h : window.Safe) (dlg : Nat) (info : KnownPeer) :
    (window.updatePeer dlg info).Safe := by
  rw [safe_iff] at h ⊢
  intro title other hentered
  rw [activeDialogs_updatePeer] at hentered
  have halive := h title other hentered
  rw [titleOf_updatePeer]
  split
  · rename_i hother
    rw [hother, titleOf] at halive
    rw [Ne, Option.map_eq_none_iff] at halive ⊢
    exact halive
  · exact halive

theorem safe_step_iff {event : WindowEvent} (h : window.Safe) (hstep : window.step event = some after) :
    after.Safe ↔ window.Harmless event := by
  cases event with
  | showDialog title => exact iff_of_true (safe_showDialog h hstep) trivial
  | myPeerButtonPressed info => exact iff_of_true (safe_showDialog h hstep) trivial
  | updatePeer dlg info =>
      rw [← Option.some.inj hstep]
      exact iff_of_true (safe_updatePeer h dlg info) trivial
  | finished dlg =>
      have hclosed := safe_closed_iff h [dlg]
      simp only [List.mem_singleton, forall_eq, exists_eq_left] at hclosed
      rw [← Option.some.inj hstep]
      exact hclosed
  | logout =>
      rw [step, logout] at hstep
      split at hstep
      · rw [← Option.some.inj hstep, safe_closed_iff h, Harmless]
        refine forall_congr' fun title => ?_
        rw [Lookups.mem_iff_exists, exists_imp]
        refine forall_congr' fun dlg => ?_
        exact ⟨fun hlst hentered => hlst (mem_lstActiveDialogs.mpr ⟨title, hentered⟩) hentered,
          fun hlst _ hentered => hlst hentered⟩
      · exact absurd hstep.symm (Option.some_ne_none after)

theorem isSome_showDialog (h : window.Safe) (title : QString) (peer : Option DlgPeerNames) :
    (window.showDialog title peer).isSome = true := by
  have hcase := showCase window title peer
  generalize window.showDialog title peer = shown at hcase ⊢
  cases hcase with
  | raised dlg entered alive => rfl
  | deleted dlg entered dead => exact absurd (h title dlg entered) dead
  | opened absent after active titles => rfl

/-- As long as all entries are of open dialogs, no deleted dialog is called. -/
theorem isSome_step (h : window.Safe) (event : WindowEvent) : (window.step event).isSome = true := by
  cases event with
  | showDialog title => exact isSome_showDialog h title none
  | myPeerButtonPressed info => exact isSome_showDialog h _ _
  | updatePeer dlg info => rfl
  | finished dlg => rfl
  | logout =>
      rw [step, logout, if_pos]
      · rfl
      · rw [List.all_eq_true]
        intro dlg hdlg
        obtain ⟨title, hentered⟩ := mem_lstActiveDialogs.mp hdlg
        exact decide_eq_true (h title dlg hentered)

/-- No deleted dialog is called or entered, all along a run, if and only if every dialog is closed under
the title with which it was opened. -/
theorem safe_iff_harmless (events : List WindowEvent) :
    (∀ past, past <+: events → ∃ window, past.foldlM step new = some window ∧ window.Safe) ↔
      Runs.EachStepPartial step Harmless new events := by
  have hnew : new.Safe := fun title dlg hentered => absurd hentered Lookups.empty_ne_some
  rw [← Runs.alwaysPartial_iff_exists hnew fun _ event h => isSome_step h event]
  exact Runs.alwaysPartial_iff_eachStepPartial_of_turn hnew (fun _ _ _ => safe_step_iff) events

/-- A peer that is registered under another name while its dialog is open. -/
example :
    let machine : KnownPeer := { hubPeer := none, localPeer := ([], []), lp := some "peer".toList }
    let renamed : KnownPeer := { machine with hubPeer := some "office".toList }
    (([.myPeerButtonPressed (some machine), .updatePeer 0 renamed, .finished 0,
      .myPeerButtonPressed (some machine)] : List WindowEvent).foldlM step new).isNone = true := by
  decide +kernel

/-! ## Each dialog under its title -/

theorem safe_of_right (h : window.Right) : window.Safe := by
  rw [safe_iff]
  intro title dlg hentered
  rw [(h title dlg).mp hentered]
  exact Option.some_ne_none title

theorem right_showDialog (h : window.Right) {peer : Option DlgPeerNames}
    (hshown : window.showDialog title peer = some after) : after.Right := by
  have hcase := showCase window title peer
  rw [hshown] at hcase
  cases hcase with
  | raised dlg entered alive => exact h
  | opened absent _ active titles =>
      intro other dlg
      rw [titles, active, Lookups.getElem?_insert]
      by_cases hother : other = title
      · by_cases hdlg : dlg = window.next
        · rw [if_pos hother, if_pos hdlg, hother, hdlg]
          exact iff_of_true rfl rfl
        · rw [if_pos hother, if_neg hdlg, hother, ← h title dlg, absent, Option.some_inj]
          exact iff_of_false (Ne.symm hdlg) (Option.some_ne_none dlg).symm
      · by_cases hdlg : dlg = window.next
        · rw [if_neg hother, if_pos hdlg, hdlg, h other, titleOf_next, Option.some_inj]
          exact iff_of_false (Option.some_ne_none other).symm (Ne.symm hother)
        · rw [if_neg hother, if_neg hdlg]
          exact h other dlg

theorem titleAfter_eq_iff (info : KnownPeer) (dialog : OpenDialog) :
    titleAfter info dialog = dialog.title ↔
      (dialog.peer.isSome = true → ∀ rhName ∈ info.lp, info.hubPeer.getD rhName = dialog.title) := by
  rw [titleAfter]
  cases info.lp with
  | none => simp
  | some rhName => simp

theorem right_updatePeer_iff (h : window.Right) (dlg : Nat) (info : KnownPeer) :
    (window.updatePeer dlg info).Right ↔ window.KeepsTitle (.updatePeer dlg info) := by
  have hkeeps : window.KeepsTitle (.updatePeer dlg info) ↔
      window.dialogs[dlg]?.map (titleAfter info) = window.titleOf dlg := by
    rw [titleOf, KeepsTitle]
    cases window.dialogs[dlg]? with
    | none => simp
    | some dialog => simp [titleAfter_eq_iff]
  rw [hkeeps]
  constructor
  · intro hright
    cases htitle : window.titleOf dlg with
    | none =>
        rw [titleOf, Option.map_eq_none_iff] at htitle
        rw [htitle]
        rfl
    | some title =>
        have hentered := (h title dlg).mpr htitle
        rw [← activeDialogs_updatePeer window dlg info, hright title dlg, titleOf_updatePeer,
          if_pos rfl] at hentered
        exact hentered
  · intro hsame title other
    rw [activeDialogs_updatePeer, titleOf_updatePeer, h title other]
    split
    · rename_i hother
      rw [hsame, hother]
    · rfl

/-- With every dialog under its title, no entry is left of those that are closed. -/
theorem right_closed (h : window.Right) (dlgs : List Nat) : (dlgs.foldl dialogClosed window).Right := by
  intro title dlg
  rw [titleOf_closed, activeDialogs_closed]
  by_cases hclosed : ∃ other ∈ dlgs, window.titleOf other = some title
  · rw [if_pos hclosed]
    refine iff_of_false (Option.some_ne_none dlg).symm ?_
    split
    · exact (Option.some_ne_none title).symm
    · rename_i hdlg
      intro htitle
      obtain ⟨other, hother, htitle'⟩ := hclosed
      have hsame := ((h title dlg).mpr htitle).symm.trans ((h title other).mpr htitle')
      exact hdlg (Option.some_inj.mp hsame ▸ hother)
  · rw [if_neg hclosed, h title]
    split
    · rename_i hdlg
      exact iff_of_false (fun htitle => hclosed ⟨dlg, hdlg, htitle⟩) (Option.some_ne_none title).symm
    · rfl

theorem right_step_iff {event : WindowEvent} (h : window.Right) (hstep : window.step event = some after) :
    after.Right ↔ window.KeepsTitle event := by
  cases event with
  | showDialog title => exact iff_of_true (right_showDialog h hstep) trivial
  | myPeerButtonPressed info => exact iff_of_true (right_showDialog h hstep) trivial
  | updatePeer dlg info =>
      rw [← Option.some.inj hstep]
      exact right_updatePeer_iff h dlg info
  | finished dlg =>
      rw [← Option.some.inj hstep]
      exact iff_of_true (right_closed h [dlg]) trivial
  | logout =>
      rw [step, logout] at hstep
      split at hstep
      · rw [← Option.some.inj hstep]
        exact iff_of_true (right_closed h _) trivial
      · exact absurd hstep.symm (Option.some_ne_none after)

/-- The table has just the open dialogs, each under its title, all along a run if and only if no refresh
tells of an open peer another name than the title of its dialog. -/
theorem right_iff_keepsTitle (events : List WindowEvent) :
    (∀ past, past <+: events → ∃ window, past.foldlM step new = some window ∧ window.Right) ↔
      Runs.EachStepPartial step KeepsTitle new events := by
  have hnew : new.Right := fun title dlg =>
    iff_of_false Lookups.empty_ne_some fun htitle => absurd (mem_dialogs_iff.mpr ⟨title, htitle⟩)
      Std.ExtTreeMap.not_mem_empty
  rw [← Runs.alwaysPartial_iff_exists hnew fun _ event h => isSome_step (safe_of_right h) event]
  exact Runs.alwaysPartial_iff_eachStepPartial_of_turn hnew (fun _ _ _ => right_step_iff) events

end ActiveDialogs

end SubutaiTray.Peer
