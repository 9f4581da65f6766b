import SubutaiTray.Library.Runs
import SubutaiTray.Peer.Window

/-!
What a step does to the buttons and to the table of the peers of the machine.

The buttons are described by the names of the local peers that they carry: a place is
overwritten or emptied. The stored fingerprint of the peer that is found at an emptied
place may be cleared.
-/
namespace SubutaiTray.Peer

namespace PeerWindow

/-- The name of the local peer on a button. -/
def shownAt (window : PeerWindow) (peerId : QString) : Option QString :=
  (window.myPeersButtonTable[peerId]?).bind fun button => button.localPeer.map CLocalPeer.name

/-- Under which key the button of a local peer belongs. -/
def key (window : PeerWindow) (name : QString) : QString :=
  if window.peerFinger name = [] then name else window.peerFinger name

/-- Whose fingerprint is cleared when the local peer of the button is deleted. -/
def clears (window : PeerWindow) (peerId : QString) : Option QString :=
  match window.myPeersButtonTable[peerId]? with
  | none => none
  | some button =>
      if button.backupNames.1 ≠ peerId ∧ window.hubPeersTable[peerId]? = none then
        some button.backupNames.2
      else none

def StatesMatch (window : PeerWindow) : Prop :=
  ∀ (peerId : QString) (button : MyPeerButton), window.myPeersButtonTable[peerId]? = some button →
    (button.localPeerState = 0 ↔ button.localPeer = none)

/-- What a step has done to the buttons and to the fingerprints. -/
structure Effect (window window' : PeerWindow) (shown : QString → Option QString)
    (finger : QString → QString) : Prop where
  machinePeersTable : window'.machinePeersTable = window.machinePeersTable
  hubPeersTable : window'.hubPeersTable = window.hubPeersTable
  statesMatch : window'.StatesMatch
  shownAt : ∀ peerId, window'.shownAt peerId = shown peerId
  peerFinger : ∀ name, window'.peerFinger name = finger name

variable {window window' : PeerWindow}

theorem shownAt_setButton (peerId a : QString) (button : MyPeerButton) (window : PeerWindow) :
    (window.setButton peerId button).shownAt a =
      Function.update window.shownAt peerId (button.localPeer.map CLocalPeer.name) a := by
  rw [shownAt, setButton, Lookups.getElem?_insert]
  by_cases h : a = peerId
  · rw [if_pos h, h, Function.update_self, Option.bind_some]
  · rw [if_neg h, Function.update_of_ne h, shownAt]

theorem statesMatch_setButton (h : window.StatesMatch) {peerId : QString} {button : MyPeerButton}
    (hbutton : button.localPeerState = 0 ↔ button.localPeer = none) :
    (window.setButton peerId button).StatesMatch := by
  intro a other hother
  rw [setButton, Lookups.getElem?_insert] at hother
  split at hother
  · rw [← Option.some.inj hother]
    exact hbutton
  · exact h a other hother

/-- An icon never takes a local peer away. -/
theorem effect_updatePeerIcon (h : window.StatesMatch) (peerId : QString) :
    Effect window (window.updatePeerIcon peerId) window.shownAt window.peerFinger := by
  rw [updatePeerIcon]
  split
  · exact ⟨rfl, rfl, h, fun _ => rfl, fun _ => rfl⟩
  · rename_i button hbutton
    split
    · rename_i hstates
      have hnone : window.shownAt peerId = none := by
        rw [shownAt, hbutton, Option.bind_some, (h peerId button hbutton).mp hstates.1,
          Option.map_none]
      split
      · refine ⟨rfl, rfl, ?_, ?_, fun _ => rfl⟩
        · intro a other hother
          rw [Lookups.getElem?_erase] at hother
          split at hother
          · exact absurd hother.symm (Option.some_ne_none other)
          · exact h a other hother
        · intro a
          rw [shownAt]
          dsimp only
          rw [Lookups.getElem?_erase]
          split
          · rename_i heq
            rw [heq, hnone, Option.bind_none]
          · rfl
      · split
        · refine ⟨rfl, rfl, ?_, ?_, fun _ => rfl⟩
          · exact statesMatch_setButton h (h peerId button hbutton)
          · intro a
            rw [shownAt_setButton]
            dsimp only
            rw [(h peerId button hbutton).mp hstates.1, Option.map_none, ← hnone,
              Function.update_eq_self]
        · exact ⟨rfl, rfl, h, fun _ => rfl, fun _ => rfl⟩
    · exact ⟨rfl, rfl, h, fun _ => rfl, fun _ => rfl⟩

theorem effect_setButton (h : window.StatesMatch) (peerId : QString) {button : MyPeerButton}
    (hbutton : button.localPeerState = 0 ↔ button.localPeer = none) :
    Effect window ((window.setButton peerId button).updatePeerIcon peerId)
      (Function.update window.shownAt peerId (button.localPeer.map CLocalPeer.name))
      window.peerFinger := by
  have hicon := effect_updatePeerIcon (@statesMatch_setButton window h peerId button hbutton) peerId
  refine ⟨hicon.machinePeersTable, hicon.hubPeersTable, hicon.statesMatch, ?_, hicon.peerFinger⟩
  intro a
  rw [hicon.shownAt, shownAt_setButton]

theorem statesMatch_button (h : window.StatesMatch) (peerId peerName : QString) :
    (window.button peerId peerName).localPeerState = 0 ↔
      (window.button peerId peerName).localPeer = none := by
  rw [button]
  cases hfound : window.myPeersButtonTable[peerId]? with
  | none => exact iff_of_true rfl rfl
  | some found => exact h peerId found hfound

theorem localPeer_button (window : PeerWindow) (peerId peerName : QString) :
    (window.button peerId peerName).localPeer.map CLocalPeer.name = window.shownAt peerId := by
  rw [button, shownAt]
  cases window.myPeersButtonTable[peerId]? with
  | none => rfl
  | some found => rfl

theorem localPeerState_ne_zero (peer : CLocalPeer) : localPeerState peer ≠ 0 := by
  rw [localPeerState]
  split
  · split
    · decide
    · split <;> decide
  · decide

theorem effect_updateLocalButton (h : window.StatesMatch) (peerId : QString) (peer : CLocalPeer) :
    Effect window (window.updateLocalButton peerId peer)
      (Function.update window.shownAt peerId (some peer.name)) window.peerFinger :=
  effect_setButton h peerId
    (iff_of_false (localPeerState_ne_zero peer) (Option.some_ne_none peer))

theorem effect_updateHubButton (h : window.StatesMatch) (peerId : QString) (peer : CMyPeerInfo) :
    Effect window (window.updateHubButton peerId peer) window.shownAt window.peerFinger := by
  have heffect := @effect_setButton window h peerId
    { window.button peerId peer.name with
      hubPeer := some peer
      hubPeerState := if peer.status = "ONLINE".toList then 1 else 2
      peerName := peer.name } (statesMatch_button h peerId peer.name)
  dsimp only at heffect
  rw [localPeer_button, Function.update_eq_self] at heffect
  exact heffect

theorem effect_updateNetworkButton (h : window.StatesMatch) (peerId : QString)
    (peer : QString × QString) :
    Effect window (window.updateNetworkButton peerId peer) window.shownAt window.peerFinger := by
  have heffect := @effect_setButton window h peerId
    { window.button peerId peer.2 with
      networkPeer := some peer
      networkPeerState := 1
      peerName :=
        if (window.button peerId peer.2).hubPeerState = 0 ∧
            (window.button peerId peer.2).localPeerState = 0 then peer.2
        else (window.button peerId peer.2).peerName } (statesMatch_button h peerId peer.2)
  dsimp only at heffect
  rw [localPeer_button, Function.update_eq_self] at heffect
  exact heffect

/-- The deletion of what the hub or the network knew leaves the local peers alone. -/
theorem effect_deletePeerButtonInfo_other (h : window.StatesMatch) (peerId : QString)
    {part : ButtonPart} (hpart : part ≠ .ofMachine) :
    Effect window (window.deletePeerButtonInfo peerId part) window.shownAt window.peerFinger := by
  rw [deletePeerButtonInfo]
  cases hfound : window.myPeersButtonTable[peerId]? with
  | none => exact ⟨rfl, rfl, h, fun _ => rfl, fun _ => rfl⟩
  | some found =>
      have hsame : (found.without part).localPeer = found.localPeer ∧
          (found.without part).localPeerState = found.localPeerState := by
        cases part with
        | ofMachine => exact absurd rfl hpart
        | ofHub => exact ⟨rfl, rfl⟩
        | ofNetwork => exact ⟨rfl, rfl⟩
      have hmatch := h peerId found hfound
      rw [← hsame.1, ← hsame.2] at hmatch
      have heffect := effect_setButton h peerId hmatch
      have hshown : found.localPeer.map CLocalPeer.name = window.shownAt peerId := by
        rw [shownAt, hfound, Option.bind_some]
      rw [hsame.1, hshown, Function.update_eq_self] at heffect
      dsimp only
      rw [if_neg hpart]
      exact heffect

theorem peerFinger_setPeerFinger (window : PeerWindow) (peerName finger a : QString) :
    (window.setPeerFinger peerName finger).peerFinger a =
      if a = peerName then finger else window.peerFinger a := by
  rw [peerFinger, setPeerFinger, Lookups.getElem?_insert]
  split
  · rfl
  · rfl

theorem effect_deletePeerButtonInfo (h : window.StatesMatch) (peerId : QString) :
    Effect window (window.deletePeerButtonInfo peerId .ofMachine)
      (Function.update window.shownAt peerId none)
      (fun name => if window.clears peerId = some name then [] else window.peerFinger name) := by
  rw [deletePeerButtonInfo]
  cases hfound : window.myPeersButtonTable[peerId]? with
  | none =>
      have hnone : window.shownAt peerId = none := by
        rw [shownAt, hfound, Option.bind_none]
      have hclears : window.clears peerId = none := by
        rw [clears, hfound]
      refine ⟨rfl, rfl, h, fun a => ?_, fun name => ?_⟩
      · rw [← hnone, Function.update_eq_self]
      · rw [hclears, if_neg (Option.some_ne_none name).symm]
  | some found =>
      have heffect := @effect_setButton window h peerId (found.without .ofMachine)
        (iff_of_true rfl rfl)
      dsimp only
      rw [if_pos rfl]
      by_cases hclear : found.backupNames.1 ≠ peerId ∧ window.hubPeersTable[peerId]? = none
      · have hclears : window.clears peerId = some found.backupNames.2 := by
          rw [clears, hfound]
          exact if_pos hclear
        rw [if_pos hclear]
        refine ⟨heffect.machinePeersTable, heffect.hubPeersTable, heffect.statesMatch,
          heffect.shownAt, fun name => ?_⟩
        rw [peerFinger_setPeerFinger, heffect.peerFinger]
        apply if_congr _ rfl rfl
        rw [hclears, Option.some.injEq]
        exact eq_comm
      · have hclears : window.clears peerId = none := by
          rw [clears, hfound]
          exact if_neg hclear
        rw [if_neg hclear]
        refine ⟨heffect.machinePeersTable, heffect.hubPeersTable, heffect.statesMatch,
          heffect.shownAt, fun name => ?_⟩
        rw [heffect.peerFinger, hclears, if_neg (Option.some_ne_none name).symm]

theorem clears_cases {peerId name : QString} (h : window.clears peerId = some name) :
    window.shownAt peerId = some name ∨ name = [] := by
  rw [clears] at h
  rw [shownAt]
  cases hfound : window.myPeersButtonTable[peerId]? with
  | none =>
      rw [hfound] at h
      exact absurd h.symm (Option.some_ne_none name)
  | some found =>
      rw [hfound] at h
      dsimp only at h
      split at h
      · have hname := Option.some.inj h
        rw [MyPeerButton.backupNames] at hname
        rw [Option.bind_some]
        cases hlocal : found.localPeer with
        | none =>
            rw [hlocal] at hname
            exact Or.inr hname.symm
        | some localPeer =>
            rw [hlocal] at hname
            left
            rw [Option.map_some]
            exact congrArg some hname
      · exact absurd h.symm (Option.some_ne_none name)

theorem hubPeersTable_updatePeerIcon (peerId : QString) (window : PeerWindow) :
    (window.updatePeerIcon peerId).hubPeersTable = window.hubPeersTable := by
  rw [updatePeerIcon]
  split
  · rfl
  · split
    · split
      · rfl
      · split <;> rfl
    · rfl

theorem getElem?_updatePeerIcon_of_ne {peerId a : QString} (h : a ≠ peerId) (window : PeerWindow) :
    (window.updatePeerIcon peerId).myPeersButtonTable[a]? = window.myPeersButtonTable[a]? := by
  rw [updatePeerIcon]
  split
  · rfl
  · split
    · split
      · dsimp only
        rw [Lookups.getElem?_erase, if_neg h]
      · split
        · rw [setButton, Lookups.getElem?_insert_of_ne _ h]
        · rfl
    · rfl

theorem getElem?_deletePeerButtonInfo_of_ne {peerId a : QString} (h : a ≠ peerId)
    (part : ButtonPart) (window : PeerWindow) :
    (window.deletePeerButtonInfo peerId part).myPeersButtonTable[a]? =
      window.myPeersButtonTable[a]? := by
  have hset (button : MyPeerButton) :
      ((window.setButton peerId button).updatePeerIcon peerId).myPeersButtonTable[a]? =
        window.myPeersButtonTable[a]? := by
    rw [getElem?_updatePeerIcon_of_ne h, setButton, Lookups.getElem?_insert_of_ne _ h]
  rw [deletePeerButtonInfo]
  split
  · rfl
  · dsimp only
    split
    · split
      · rw [setPeerFinger, hset]
      · exact hset _
    · exact hset _

theorem clears_congr {peerId : QString}
    (hbutton : window'.myPeersButtonTable[peerId]? = window.myPeersButtonTable[peerId]?)
    (hhub : window'.hubPeersTable = window.hubPeersTable) :
    window'.clears peerId = window.clears peerId := by
  rw [clears, clears, hbutton, hhub]

theorem not_clears_of_shownAt {peerId name : QString} (hname : name ≠ [])
    (h : window.shownAt peerId ≠ some name) : window.clears peerId ≠ some name := by
  intro hclears
  cases clears_cases hclears with
  | inl hshown => exact h hshown
  | inr hempty => exact hname hempty

/-- The fingerprint that a reply stores. -/
def changesFinger (info : PeerInfo) (name output : QString) (window : PeerWindow) : Prop :=
  info = .finger ∧ output ≠ undefinedString ∧ output ≠ [] ∧ window.peerFinger name ≠ output

instance (info : PeerInfo) (name output : QString) (window : PeerWindow) :
    Decidable (window.changesFinger info name output) :=
  inferInstanceAs (Decidable (_ ∧ _))

/-- The stored fingerprint of the peer after its reply. -/
def newFinger (info : PeerInfo) (name output : QString) (window : PeerWindow) : QString :=
  if window.changesFinger info name output then output else window.peerFinger name

/-- The button under which a reply puts the peer. -/
def newKey (info : PeerInfo) (name output : QString) (window : PeerWindow) : QString :=
  if window.newFinger info name output = [] then name else window.newFinger info name output

/-- The local peer of the button is deleted before the peer is put on its button. -/
def Emptied (info : PeerInfo) (name output : QString) (window : PeerWindow) (peerId : QString) :
    Prop :=
  (window.changesFinger info name output ∧ peerId = window.peerFinger name) ∨
    (window.newFinger info name output ≠ [] ∧ peerId = name)

/-- The name of the peer is the key of its old button, and the fingerprint that goes with
it is cleared before the peer is put on its new button. -/
def ClearsOwn (info : PeerInfo) (name output : QString) (window : PeerWindow) : Prop :=
  window.newFinger info name output ≠ [] ∧ window.clears name = some name ∧
    ¬ (window.changesFinger info name output ∧ window.peerFinger name = name)

instance (info : PeerInfo) (name output : QString) (window : PeerWindow) :
    Decidable (window.ClearsOwn info name output) :=
  inferInstanceAs (Decidable (_ ∧ _))

instance (info : PeerInfo) (name output : QString) (window : PeerWindow) :
    DecidablePred (window.Emptied info name output) :=
  fun _ => inferInstanceAs (Decidable (_ ∨ _))

/-- What the first half of a reply does: the new fingerprint is stored. -/
structure Stored (info : PeerInfo) (name output : QString) (window window' : PeerWindow) :
    Prop where
  machinePeersTable : window'.machinePeersTable = window.machinePeersTable
  hubPeersTable : window'.hubPeersTable = window.hubPeersTable
  statesMatch : window'.StatesMatch
  shownAt : ∀ peerId, window'.shownAt peerId =
    if window.changesFinger info name output ∧ peerId = window.peerFinger name then none
    else window.shownAt peerId
  peerFinger_self : window'.peerFinger name = window.newFinger info name output
  peerFinger : ∀ other, other ≠ name → other ≠ [] →
    window'.peerFinger other = window.peerFinger other ∨
      window'.peerFinger other = [] ∧ window.changesFinger info name output ∧
        window.shownAt (window.peerFinger name) = some other
  clears : window'.clears name = some name ↔
    window.clears name = some name ∧
      ¬ (window.changesFinger info name output ∧ window.peerFinger name = name)

theorem stored_storeFinger (h : window.StatesMatch) (info : PeerInfo) {name : QString}
    (hname : name ≠ []) (output : QString) :
    Stored info name output window
      (if info = .finger then window.storeFinger name output else window) := by
  by_cases hchange : window.changesFinger info name output
  · have heffect := effect_deletePeerButtonInfo h (window.peerFinger name)
    rw [if_pos hchange.1, storeFinger, if_pos hchange.2]
    refine ⟨heffect.machinePeersTable, heffect.hubPeersTable, heffect.statesMatch, ?_, ?_, ?_, ?_⟩
    · intro peerId
      refine (heffect.shownAt peerId).trans ?_
      by_cases hid : peerId = window.peerFinger name
      · rw [if_pos ⟨hchange, hid⟩, hid, Function.update_self]
      · rw [if_neg fun hc => hid hc.2, Function.update_of_ne hid]
    · rw [peerFinger_setPeerFinger, if_pos rfl, newFinger, if_pos hchange]
    · intro other hother hempty
      rw [peerFinger_setPeerFinger, if_neg hother, heffect.peerFinger]
      by_cases hclears : window.clears (window.peerFinger name) = some other
      · rw [if_pos hclears]
        cases clears_cases hclears with
        | inl hshown => exact Or.inr ⟨rfl, hchange, hshown⟩
        | inr hnil => exact absurd hnil hempty
      · rw [if_neg hclears]
        exact Or.inl rfl
    · by_cases hsame : name = window.peerFinger name
      · have hgone : (window.deletePeerButtonInfo (window.peerFinger name) .ofMachine).shownAt name ≠
            some name := by
          rw [heffect.shownAt, ← hsame, Function.update_self]
          exact (Option.some_ne_none name).symm
        exact iff_of_false (not_clears_of_shownAt hname hgone)
          fun hc => hc.2 ⟨hchange, hsame.symm⟩
      · have hother := clears_congr
          (getElem?_deletePeerButtonInfo_of_ne hsame .ofMachine window) heffect.hubPeersTable
        refine Iff.trans (Eq.to_iff (congrArg (· = some name) hother)) ?_
        exact (and_iff_left fun hc => hsame hc.2.symm).symm
  · have hunchanged : (if info = .finger then window.storeFinger name output else window) =
        window := by
      split
      · rename_i hinfo
        rw [storeFinger, if_neg fun hc => hchange ⟨hinfo, hc⟩]
      · rfl
    rw [hunchanged]
    refine ⟨rfl, rfl, h, ?_, ?_, ?_, ?_⟩
    · intro peerId
      rw [if_neg fun hc => hchange hc.1]
    · rw [newFinger, if_neg hchange]
    · intro other _ _
      exact Or.inl rfl
    · exact (and_iff_left fun hc => hchange hc.1).symm

/-- The setter changes one field. -/
theorem setUpdateAvailable_eq (val : QString) (peer : CLocalPeer) :
    peer.setUpdateAvailable val =
      { peer with updateAvailable := (peer.setUpdateAvailable val).updateAvailable } := by
  rw [CLocalPeer.setUpdateAvailable]
  split
  · split
    · rfl
    · rfl
  · rfl

theorem name_setUpdateAvailable (val : QString) (peer : CLocalPeer) :
    (peer.setUpdateAvailable val).name = peer.name := by
  rw [setUpdateAvailable_eq]

theorem dir_setUpdateAvailable (val : QString) (peer : CLocalPeer) :
    (peer.setUpdateAvailable val).dir = peer.dir := by
  rw [setUpdateAvailable_eq]

theorem update_setUpdateAvailable (val : QString) (peer : CLocalPeer) :
    (peer.setUpdateAvailable val).update = peer.update := by
  rw [setUpdateAvailable_eq]

/-- The new record is the peer's, is found in its directory, and is marked as new. -/
theorem identity_updaterPeer (info : PeerInfo) (name dir output : QString) (window : PeerWindow) :
    (window.updaterPeer info name dir output).name = name ∧
      (window.updaterPeer info name dir output).dir = dir ∧
      (window.updaterPeer info name dir output).update = .new := by
  cases info with
  | update =>
      exact ⟨name_setUpdateAvailable output _, dir_setUpdateAvailable output _,
        update_setUpdateAvailable output _⟩
  | status | port | finger | provisionStep => exact ⟨rfl, rfl, rfl⟩

/-- What a reply does. -/
structure Recorded (info : PeerInfo) (name output : QString) (peer : CLocalPeer)
    (window window' : PeerWindow) : Prop where
  machinePeersTable : window'.machinePeersTable = window.machinePeersTable.insert name peer
  statesMatch : window'.StatesMatch
  shownAt : ∀ peerId, window'.shownAt peerId =
    if peerId = (if window.ClearsOwn info name output then [] else window.newKey info name output)
    then some name
    else if window.Emptied info name output peerId then none else window.shownAt peerId
  peerFinger_self : window'.peerFinger name =
    if window.ClearsOwn info name output then [] else window.newFinger info name output
  peerFinger : ∀ other, other ≠ name → other ≠ [] →
    window'.peerFinger other = window.peerFinger other ∨
      window'.peerFinger other = [] ∧
        ∃ peerId, window.Emptied info name output peerId ∧ window.shownAt peerId = some other

section
variable {info : PeerInfo} {name output : QString} {peer : CLocalPeer} {stored record : PeerWindow}

theorem peerFinger_stored (h : Stored info name output window stored) {other : QString}
    (hother : other ≠ name) (hempty : other ≠ []) :
    stored.peerFinger other = window.peerFinger other ∨
      stored.peerFinger other = [] ∧
        ∃ peerId, window.Emptied info name output peerId ∧ window.shownAt peerId = some other := by
  cases h.peerFinger other hother hempty with
  | inl hsame => exact Or.inl hsame
  | inr hcleared =>
      exact Or.inr ⟨hcleared.1, window.peerFinger name, Or.inl ⟨hcleared.2.1, rfl⟩, hcleared.2.2⟩

variable (h : Stored info name output window stored)
  (hrecord : { stored with machinePeersTable := stored.machinePeersTable.insert name peer } = record)
include h hrecord

theorem statesMatch_record : record.StatesMatch := by
  rw [← hrecord]
  exact h.statesMatch

theorem machinePeersTable_record :
    record.machinePeersTable = window.machinePeersTable.insert name peer := by
  rw [← hrecord, ← h.machinePeersTable]

/-- A peer without a fingerprint is put under its name. -/
theorem recorded_underName (hpeer : peer.name = name)
    (hnew : window.newFinger info name output = []) :
    Recorded info name output peer window (record.updateLocalButton name peer) := by
  have hfinger : record.peerFinger = stored.peerFinger := by rw [← hrecord]; rfl
  have hshown : record.shownAt = stored.shownAt := by rw [← hrecord]; rfl
  have hclearsOwn : ¬ window.ClearsOwn info name output := fun hc => hc.1 hnew
  have hkey : window.newKey info name output = name := if_pos hnew
  have heffect := effect_updateLocalButton (statesMatch_record h hrecord) name peer
  refine ⟨?_, heffect.statesMatch, ?_, ?_, ?_⟩
  · rw [heffect.machinePeersTable, machinePeersTable_record h hrecord]
  · intro peerId
    rw [heffect.shownAt, if_neg hclearsOwn, hkey, hpeer, hshown]
    by_cases hid : peerId = name
    · rw [if_pos hid, hid, Function.update_self]
    · rw [if_neg hid, Function.update_of_ne hid, h.shownAt]
      apply if_congr _ rfl rfl
      exact (or_iff_left fun hc => hc.1 hnew).symm
  · rw [heffect.peerFinger, hfinger, h.peerFinger_self, if_neg hclearsOwn]
  · intro other hother hempty
    rw [heffect.peerFinger, hfinger]
    exact peerFinger_stored h hother hempty

/-- Otherwise what is under the name is deleted, and the peer is put under its fingerprint. -/
theorem recorded_underFinger (hpeer : peer.name = name)
    (hnew : window.newFinger info name output ≠ []) :
    Recorded info name output peer window
      ((record.deletePeerButtonInfo name .ofMachine).updateLocalButton
        ((record.deletePeerButtonInfo name .ofMachine).peerFinger name) peer) := by
  have hfinger : record.peerFinger = stored.peerFinger := by rw [← hrecord]; rfl
  have hshown : record.shownAt = stored.shownAt := by rw [← hrecord]; rfl
  have hclears : record.clears = stored.clears := by rw [← hrecord]; rfl
  have hdelete := effect_deletePeerButtonInfo (statesMatch_record h hrecord) name
  generalize record.deletePeerButtonInfo name .ofMachine = deleted at hdelete ⊢
  have hown : record.clears name = some name ↔ window.ClearsOwn info name output := by
    rw [hclears, h.clears]
    exact (and_iff_right hnew).symm
  have hself : deleted.peerFinger name =
      if window.ClearsOwn info name output then [] else window.newFinger info name output := by
    rw [hdelete.peerFinger, hfinger, h.peerFinger_self]
    exact if_congr hown rfl rfl
  have hplace : deleted.peerFinger name =
      if window.ClearsOwn info name output then [] else window.newKey info name output := by
    rw [hself, newKey, if_neg hnew]
  have heffect := effect_updateLocalButton hdelete.statesMatch (deleted.peerFinger name) peer
  refine ⟨?_, heffect.statesMatch, ?_, ?_, ?_⟩
  · rw [heffect.machinePeersTable, hdelete.machinePeersTable, machinePeersTable_record h hrecord]
  · intro peerId
    rw [heffect.shownAt, hpeer, ← hplace]
    by_cases hid : peerId = deleted.peerFinger name
    · rw [if_pos hid, hid, Function.update_self]
    · rw [if_neg hid, Function.update_of_ne hid, hdelete.shownAt]
      by_cases hsame : peerId = name
      · rw [hsame, Function.update_self]
        exact (if_pos (Or.inr ⟨hnew, rfl⟩)).symm
      · rw [Function.update_of_ne hsame, hshown, h.shownAt]
        apply if_congr _ rfl rfl
        exact (or_iff_left fun hc => hsame hc.2).symm
  · rw [heffect.peerFinger, hself]
  · intro other hother hempty
    rw [heffect.peerFinger, hdelete.peerFinger, hfinger]
    by_cases hclear : record.clears name = some other
    · rw [if_pos hclear]
      refine Or.inr ⟨rfl, ?_⟩
      cases clears_cases hclear with
      | inl hat =>
          rw [hshown, h.shownAt] at hat
          split at hat
          · exact absurd hat.symm (Option.some_ne_none other)
          · exact ⟨name, Or.inr ⟨hnew, rfl⟩, hat⟩
      | inr hnil => exact absurd hnil hempty
    · rw [if_neg hclear]
      exact peerFinger_stored h hother hempty

end

theorem recorded_recordPeer (h : window.StatesMatch) (info : PeerInfo) {name : QString}
    (hname : name ≠ []) (dir output : QString) :
    Recorded info name output (window.updaterPeer info name dir output) window
      (window.recordPeer info name dir output) := by
  rw [recordPeer]
  have hstored := stored_storeFinger h info hname output
  have hpeer := (identity_updaterPeer info name dir output window).1
  generalize (if info = .finger then window.storeFinger name output else window) = stored
    at hstored ⊢
  generalize window.updaterPeer info name dir output = peer at hpeer ⊢
  dsimp only
  generalize hrecord : { stored with
    machinePeersTable := stored.machinePeersTable.insert name peer } = record
  have hfinger : record.peerFinger name = window.newFinger info name output := by
    rw [← hrecord]
    exact hstored.peerFinger_self
  rw [hfinger]
  by_cases hnew : window.newFinger info name output = []
  · rw [if_neg (not_not_intro hnew)]
    exact recorded_underName hstored hrecord hpeer hnew
  · rw [if_pos hnew]
    exact recorded_underFinger hstored hrecord hpeer hnew

theorem Recorded.mem {info : PeerInfo} {name output : QString} {peer : CLocalPeer}
    (h : Recorded info name output peer window window') (other : QString) :
    other ∈ window'.machinePeersTable ↔ other = name ∨ other ∈ window.machinePeersTable := by
  rw [h.machinePeersTable, Std.ExtTreeMap.mem_insert, Std.LawfulEqOrd.compare_eq_iff_eq]
  exact or_congr_left eq_comm

theorem key_congr {name : QString} (h : window'.peerFinger name = window.peerFinger name) :
    window'.key name = window.key name := by
  rw [key, key, h]

theorem key_ne_nil {name : QString} (h : name ≠ []) (window : PeerWindow) : window.key name ≠ [] := by
  rw [key]
  split
  · exact h
  · assumption

/-! ### The counter and the records -/

/-- What is done to the buttons leaves the counter and the records of the peers as they are. -/
structure SamePeers (window window' : PeerWindow) : Prop where
  numberThreads : window'.numberThreads = window.numberThreads
  machinePeersTable : window'.machinePeersTable = window.machinePeersTable

theorem SamePeers.refl (window : PeerWindow) : SamePeers window window := ⟨rfl, rfl⟩

theorem SamePeers.trans {window window' window'' : PeerWindow} (h : SamePeers window window')
    (h' : SamePeers window' window'') : SamePeers window window'' :=
  ⟨h'.numberThreads.trans h.numberThreads, h'.machinePeersTable.trans h.machinePeersTable⟩

theorem samePeers_setButton (peerId : QString) (button : MyPeerButton) (window : PeerWindow) :
    SamePeers window (window.setButton peerId button) := ⟨rfl, rfl⟩

theorem samePeers_updatePeerIcon (peerId : QString) (window : PeerWindow) :
    SamePeers window (window.updatePeerIcon peerId) := by
  rw [updatePeerIcon]
  split
  · exact .refl window
  · split
    · split
      · exact ⟨rfl, rfl⟩
      · split
        · exact ⟨rfl, rfl⟩
        · exact .refl window
    · exact .refl window

theorem samePeers_deletePeerButtonInfo (peerId : QString) (part : ButtonPart)
    (window : PeerWindow) : SamePeers window (window.deletePeerButtonInfo peerId part) := by
  rw [deletePeerButtonInfo]
  split
  · exact .refl window
  · rename_i button hbutton
    have hafter : SamePeers window
        ((window.setButton peerId (button.without part)).updatePeerIcon peerId) :=
      (samePeers_setButton _ _ window).trans (samePeers_updatePeerIcon _ _)
    dsimp only
    split
    · split
      · exact ⟨hafter.numberThreads, hafter.machinePeersTable⟩
      · exact hafter
    · exact hafter

theorem samePeers_storeFinger (name output : QString) (window : PeerWindow) :
    SamePeers window (window.storeFinger name output) := by
  rw [storeFinger]
  split
  · have hdelete := samePeers_deletePeerButtonInfo (window.peerFinger name) .ofMachine window
    exact ⟨hdelete.numberThreads, hdelete.machinePeersTable⟩
  · exact .refl window

theorem samePeers_updateLocalButton (peerId : QString) (peer : CLocalPeer) (window : PeerWindow) :
    SamePeers window (window.updateLocalButton peerId peer) :=
  (samePeers_setButton _ _ window).trans (samePeers_updatePeerIcon _ _)

/-- An answer changes the entry under its name, and besides only buttons. -/
theorem samePeers_recordPeer (info : PeerInfo) (name dir output : QString) (window : PeerWindow) :
    SamePeers
      { window with
        machinePeersTable :=
          window.machinePeersTable.insert name (window.updaterPeer info name dir output) }
      (window.recordPeer info name dir output) := by
  have hstored : SamePeers window
      (if info = .finger then window.storeFinger name output else window) := by
    split
    · exact samePeers_storeFinger name output window
    · exact .refl window
  rw [recordPeer]
  generalize (if info = .finger then window.storeFinger name output else window) = stored
    at hstored ⊢
  generalize window.updaterPeer info name dir output = peer
  have hrecord : SamePeers
      { window with machinePeersTable := window.machinePeersTable.insert name peer }
      { stored with machinePeersTable := stored.machinePeersTable.insert name peer } :=
    ⟨hstored.numberThreads, by rw [hstored.machinePeersTable]⟩
  dsimp only
  split
  · exact (hrecord.trans (samePeers_deletePeerButtonInfo _ _ _)).trans
      (samePeers_updateLocalButton _ _ _)
  · exact hrecord.trans (samePeers_updateLocalButton _ _ _)

theorem numberThreads_recordPeer (info : PeerInfo) (name dir output : QString) (window : PeerWindow) :
    (window.recordPeer info name dir output).numberThreads = window.numberThreads :=
  (samePeers_recordPeer info name dir output window).numberThreads

theorem machinePeersTable_recordPeer (info : PeerInfo) (name dir output : QString)
    (window : PeerWindow) :
    (window.recordPeer info name dir output).machinePeersTable =
      window.machinePeersTable.insert name (window.updaterPeer info name dir output) :=
  (samePeers_recordPeer info name dir output window).machinePeersTable

theorem numberThreads_machinePeersUpdFinished (window : PeerWindow) :
    window.machinePeersUpdFinished.numberThreads = window.numberThreads := by
  rw [machinePeersUpdFinished]
  dsimp only
  generalize window.machinePeersTable.toList = entries
  induction entries generalizing window with
  | nil => rfl
  | cons entry entries ih =>
      rw [List.foldl_cons, ih, finishPeer]
      split
      · exact ((samePeers_deletePeerButtonInfo _ _ _).trans
          (samePeers_deletePeerButtonInfo _ _ _)).numberThreads
      · rfl

/-! ### What every step keeps -/

/-- Every record of the table carries its own name, which is not empty. -/
def Named (window : PeerWindow) : Prop :=
  ∀ (name : QString) (peer : CLocalPeer), window.machinePeersTable[name]? = some peer →
    name ≠ [] ∧ peer.name = name

/-- The mark of a peer of the table. -/
def markOf (window : PeerWindow) (name : QString) : Option PeerUpdate :=
  (window.machinePeersTable[name]?).map CLocalPeer.update

theorem mem_of_markOf {name : QString} {mark : PeerUpdate} (h : window.markOf name = some mark) :
    name ∈ window.machinePeersTable := by
  obtain ⟨peer, hpeer, -⟩ := Option.map_eq_some_iff.mp h
  exact (Lookups.mem_iff_exists _ name).mpr ⟨peer, hpeer⟩

theorem markOf_cases {name : QString} (h : name ∈ window.machinePeersTable) :
    window.markOf name = some .new ∨ window.markOf name = some .old := by
  obtain ⟨peer, hpeer⟩ := (Lookups.mem_iff_exists _ name).mp h
  rw [markOf, hpeer, Option.map_some]
  cases peer.update with
  | new => exact Or.inl rfl
  | old => exact Or.inr rfl

theorem named_insert (hnamed : window.Named) {name : QString} {peer : CLocalPeer}
    (hname : name ≠ []) (hpeer : peer.name = name)
    (h : window'.machinePeersTable = window.machinePeersTable.insert name peer) : window'.Named := by
  intro other found hfound
  rw [h, Lookups.getElem?_insert] at hfound
  split at hfound
  · rename_i heq
    rw [heq, ← Option.some.inj hfound]
    exact ⟨hname, hpeer⟩
  · exact hnamed other found hfound

/-- What every step keeps. -/
structure Inv (window : PeerWindow) : Prop where
  statesMatch : window.StatesMatch
  named : window.Named

theorem inv_of_effect {shown : QString → Option QString} {finger : QString → QString}
    (h : window.Inv) (heffect : Effect window window' shown finger) : window'.Inv := by
  refine ⟨heffect.statesMatch, ?_⟩
  rw [Named, heffect.machinePeersTable]
  exact h.named

theorem machinePeersTable_finishPeer (h : window.StatesMatch) (entry : QString × CLocalPeer) :
    (window.finishPeer entry).machinePeersTable =
      if entry.2.update = .old then window.machinePeersTable
      else window.machinePeersTable.insert entry.1 { entry.2 with update := .old } := by
  rw [finishPeer]
  split
  · have hfirst := effect_deletePeerButtonInfo h (window.peerFinger entry.2.name)
    have hsecond := effect_deletePeerButtonInfo hfirst.statesMatch entry.2.name
    exact hsecond.machinePeersTable.trans hfirst.machinePeersTable
  · rfl

theorem inv_finishPeer (h : window.Inv) {entry : QString × CLocalPeer}
    (hentry : entry.1 ≠ [] ∧ entry.2.name = entry.1) : (window.finishPeer entry).Inv := by
  rw [finishPeer]
  split
  · have hfirst := effect_deletePeerButtonInfo h.statesMatch (window.peerFinger entry.2.name)
    have hinv := inv_of_effect h hfirst
    exact inv_of_effect hinv (effect_deletePeerButtonInfo hinv.statesMatch entry.2.name)
  · refine ⟨h.statesMatch, ?_⟩
    exact @named_insert window _ h.named entry.1 { entry.2 with update := .old } hentry.1 hentry.2 rfl

theorem inv_foldl_finishPeer (h : window.Inv) (entries : List (QString × CLocalPeer))
    (hentries : ∀ entry ∈ entries, entry.1 ≠ [] ∧ entry.2.name = entry.1) :
    (entries.foldl finishPeer window).Inv := by
  induction entries generalizing window with
  | nil => exact h
  | cons entry entries ih =>
      exact ih (inv_finishPeer h (hentries entry List.mem_cons_self))
        fun other hother => hentries other (List.mem_cons_of_mem _ hother)

theorem inv_machinePeersUpdFinished (h : window.Inv) : window.machinePeersUpdFinished.Inv := by
  have hfold := inv_foldl_finishPeer h window.machinePeersTable.toList
    fun entry hentry => h.named _ _ (Std.ExtTreeMap.mem_toList_iff_getElem?_eq_some.mp hentry)
  refine ⟨hfold.statesMatch, ?_⟩
  intro name peer hpeer
  rw [machinePeersUpdFinished] at hpeer
  dsimp only at hpeer
  rw [Lookups.getElem?_foldl_erase] at hpeer
  split at hpeer
  · exact absurd hpeer.symm (Option.some_ne_none peer)
  · exact hfold.named name peer hpeer

theorem getElem?_foldl_finishPeer (h : window.Inv) (entries : List (QString × CLocalPeer))
    (hentries : ∀ entry ∈ entries, window.machinePeersTable[entry.1]? = some entry.2)
    (name : QString) :
    (entries.foldl finishPeer window).machinePeersTable[name]? =
      (window.machinePeersTable[name]?).map fun peer =>
        if (name, peer) ∈ entries then { peer with update := .old } else peer := by
  induction entries using List.reverseRecOn with
  | nil =>
      rw [List.foldl_nil]
      cases window.machinePeersTable[name]? with
      | none => rfl
      | some peer => rfl
  | append_singleton entries entry ih =>
      have hbefore : ∀ other ∈ entries, window.machinePeersTable[other.1]? = some other.2 :=
        fun other hother => hentries other (List.mem_append_left _ hother)
      have hself := hentries entry (List.mem_append_right _ (List.mem_singleton.mpr rfl))
      have hinv := inv_foldl_finishPeer h entries fun other hother => h.named _ _ (hbefore other hother)
      rw [List.foldl_append, List.foldl_cons, List.foldl_nil,
        machinePeersTable_finishPeer hinv.statesMatch]
      have hmem (peer : CLocalPeer) (hne : (name, peer) ≠ entry) :
          (name, peer) ∈ entries ↔ (name, peer) ∈ entries ++ [entry] := by
        rw [List.mem_append, List.mem_singleton]
        exact (or_iff_left hne).symm
      by_cases hold : entry.2.update = .old
      · rw [if_pos hold, ih hbefore]
        apply Option.map_congr
        intro peer _
        by_cases hsame : (name, peer) = entry
        · have hunchanged : { peer with update := .old } = peer := by
            rw [← hsame] at hold
            rw [← hold]
          rw [hunchanged, ite_self, ite_self]
        · exact if_congr (hmem peer hsame) rfl rfl
      · rw [if_neg hold, Lookups.getElem?_insert]
        by_cases hname : name = entry.1
        · rw [if_pos hname, hname, hself, Option.map_some,
            if_pos (List.mem_append_right _ (List.mem_singleton.mpr rfl))]
        · rw [if_neg hname, ih hbefore]
          apply Option.map_congr
          intro peer _
          exact if_congr (hmem peer fun heq => hname (congrArg Prod.fst heq)) rfl rfl

/-- A sweep removes the peers that are marked as old, and marks the others. -/
theorem getElem?_machinePeersUpdFinished (h : window.Inv) (name : QString) :
    window.machinePeersUpdFinished.machinePeersTable[name]? =
      ((window.machinePeersTable[name]?).filter fun peer => peer.update = .new).map fun peer =>
        { peer with update := .old } := by
  have hentries (entry : QString × CLocalPeer) :
      entry ∈ window.machinePeersTable.toList ↔
        window.machinePeersTable[entry.1]? = some entry.2 :=
    Std.ExtTreeMap.mem_toList_iff_getElem?_eq_some
  have hdel : name ∈ (window.machinePeersTable.toList.filter fun entry => entry.2.update = .old).map
      (fun entry => entry.2.name) ↔ window.markOf name = some .old := by
    rw [List.mem_map, markOf]
    constructor
    · intro hex
      obtain ⟨entry, hentry, hname⟩ := hex
      obtain ⟨hentry, hold⟩ := List.mem_filter.mp hentry
      have hfound := (hentries entry).mp hentry
      rw [← hname, (h.named _ _ hfound).2, hfound, Option.map_some, of_decide_eq_true hold]
    · intro hold
      obtain ⟨peer, hpeer, hmark⟩ := Option.map_eq_some_iff.mp hold
      exact ⟨(name, peer),
        List.mem_filter.mpr ⟨(hentries (name, peer)).mpr hpeer, decide_eq_true hmark⟩,
        (h.named _ _ hpeer).2⟩
  rw [machinePeersUpdFinished]
  dsimp only
  rw [Lookups.getElem?_foldl_erase, getElem?_foldl_finishPeer h _ fun entry => (hentries entry).mp]
  simp only [hdel, markOf]
  cases hfound : window.machinePeersTable[name]? with
  | none => rfl
  | some peer =>
      have hmem : (name, peer) ∈ window.machinePeersTable.toList := (hentries (name, peer)).mpr hfound
      rw [Option.map_some, Option.map_some, if_pos hmem, Option.filter_some]
      cases hmark : peer.update with
      | new => rfl
      | old => rfl

theorem mem_machinePeersUpdFinished (h : window.Inv) (name : QString) :
    name ∈ window.machinePeersUpdFinished.machinePeersTable ↔ window.markOf name = some .new := by
  rw [← Std.ExtTreeMap.isSome_getElem?_iff_mem, getElem?_machinePeersUpdFinished h, markOf,
    Option.isSome_map]
  cases window.machinePeersTable[name]? with
  | none => exact iff_of_false Bool.false_ne_true (Option.some_ne_none _).symm
  | some peer =>
      rw [Option.filter_some, Option.map_some]
      cases peer.update with
      | new => exact iff_of_true rfl rfl
      | old => exact iff_of_false Bool.false_ne_true fun hc => PeerUpdate.noConfusion (Option.some.inj hc)

theorem inv_recordPeer (h : window.Inv) (info : PeerInfo)
    {name : QString} (hname : name ≠ []) (dir output : QString) :
    (window.recordPeer info name dir output).Inv := by
  have hrecorded := recorded_recordPeer h.statesMatch info hname dir output
  exact ⟨hrecorded.statesMatch, named_insert h.named hname
    (identity_updaterPeer info name dir output window).1 hrecorded.machinePeersTable⟩

/-- A step that does not concern the peers of the machine. -/
structure Untouched (window window' : PeerWindow) : Prop where
  machinePeersTable : window'.machinePeersTable = window.machinePeersTable
  statesMatch : window'.StatesMatch
  shownAt : window'.shownAt = window.shownAt
  peerFinger : window'.peerFinger = window.peerFinger

theorem untouched_of_effect (h : Effect window window' window.shownAt window.peerFinger) :
    Untouched window window' :=
  ⟨h.machinePeersTable, h.statesMatch, funext h.shownAt, funext h.peerFinger⟩

variable (toUpper : QString → QString)

theorem step_cases {event : Event} (h : window.StatesMatch)
    (hstep : step toUpper window event = some window') :
    (∃ info name dir output, event = .reply info name dir output ∧ name ≠ [] ∧
        window' = window.recordPeer info name dir output) ∨
      (event = .updFinished ∧ window' = window.machinePeersUpdFinished) ∨
      (event.ofMachine = false ∧ Untouched window window') := by
  cases event with
  | reply info name dir output =>
      rw [step] at hstep
      split at hstep
      · exact absurd hstep.symm (Option.some_ne_none window')
      · exact Or.inl ⟨info, name, dir, output, rfl, ‹_›, (Option.some.inj hstep).symm⟩
  | updFinished => exact Or.inr (Or.inl ⟨rfl, (Option.some.inj hstep).symm⟩)
  | hubUpdate peer =>
      rw [← Option.some.inj hstep]
      have heffect := @effect_updateHubButton
        { window with hubPeersTable := window.hubPeersTable.insert peer.fingerprint peer } h
        (toUpper peer.fingerprint) peer
      exact Or.inr (Or.inr ⟨rfl, heffect.machinePeersTable, heffect.statesMatch,
        funext heffect.shownAt, funext heffect.peerFinger⟩)
  | hubDelete fingerprint =>
      rw [← Option.some.inj hstep]
      have heffect := @effect_deletePeerButtonInfo_other
        { window with hubPeersTable := window.hubPeersTable.erase fingerprint } h
        (toUpper fingerprint) .ofHub ButtonPart.noConfusion
      exact Or.inr (Or.inr ⟨rfl, heffect.machinePeersTable, heffect.statesMatch,
        funext heffect.shownAt, funext heffect.peerFinger⟩)
  | networkUpdate peer =>
      rw [← Option.some.inj hstep]
      exact Or.inr (Or.inr ⟨rfl, untouched_of_effect (effect_updateNetworkButton h _ peer)⟩)
  | networkDelete fingerprint =>
      rw [← Option.some.inj hstep]
      exact Or.inr (Or.inr ⟨rfl,
        untouched_of_effect (effect_deletePeerButtonInfo_other h _ ButtonPart.noConfusion)⟩)

theorem inv_step (event : Event) (h : window.Inv)
    (hstep : step toUpper window event = some window') : window'.Inv := by
  obtain hreply | hfinished | hother := step_cases toUpper h.statesMatch hstep
  · obtain ⟨info, name, dir, output, -, hname, hwindow'⟩ := hreply
    rw [hwindow']
    exact inv_recordPeer h info hname dir output
  · rw [hfinished.2]
    exact inv_machinePeersUpdFinished h
  · refine ⟨hother.2.statesMatch, ?_⟩
    rw [Named, hother.2.machinePeersTable]
    exact h.named

theorem inv_new (peerFingers : StdMap QString) : (new peerFingers).Inv := by
  have hnone {V : Type} (a : QString) : (∅ : StdMap V)[a]? = none := Std.ExtTreeMap.getElem?_empty
  refine ⟨?_, ?_⟩
  · intro peerId button hbutton
    rw [new, hnone] at hbutton
    exact absurd hbutton.symm (Option.some_ne_none button)
  · intro name peer hpeer
    rw [new, hnone] at hpeer
    exact absurd hpeer.symm (Option.some_ne_none peer)

/-- A call of `got_peer_info_sl` is nothing, a sweep, a reply, or a reply and a sweep. -/
theorem gotPeerInfo_steps (info : PeerInfo) {name : QString} (hname : name ≠ [])
    (dir output : QString) (window : PeerWindow) :
    ∃ threads events, events ⊆ [Event.reply info name dir output, .updFinished] ∧
      events.foldlM (step toUpper) { window with numberThreads := threads } =
        some (window.gotPeerInfo info name dir output) := by
  have hreply (before : PeerWindow) : step toUpper before (.reply info name dir output) =
      some (before.recordPeer info name dir output) := if_neg hname
  rw [gotPeerInfo]
  split
  · exact ⟨window.numberThreads, [.updFinished], List.subset_cons_self _ _, rfl⟩
  · split
    · exact ⟨window.numberThreads, [], List.nil_subset _, rfl⟩
    · refine ⟨window.numberThreads - 1, ?_⟩
      dsimp only
      split
      · refine ⟨[.reply info name dir output, .updFinished], List.Subset.refl _, ?_⟩
        rw [List.foldlM_cons, hreply]
        rfl
      · refine ⟨[.reply info name dir output], List.cons_subset_cons _ (List.nil_subset _), ?_⟩
        rw [List.foldlM_cons, hreply]
        rfl

end PeerWindow

end SubutaiTray.Peer
