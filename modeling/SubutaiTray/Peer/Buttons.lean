import SubutaiTray.Library.Runs
import SubutaiTray.Peer.Effects

/-!
One button for each peer of the machine.

A peer belongs under its stored fingerprint, or under its name if it has none. The
places of the peers are disjoint as long as no step touches the place of another peer.
-/
namespace SubutaiTray.Peer

namespace PeerWindow

/-- Each peer of the machine is on exactly one button, and no other is on any. -/
structure EachOnce (window : PeerWindow) : Prop where
  shown : ∀ name ∈ window.machinePeersTable, ∀ peerId,
    window.shownAt peerId = some name ↔ peerId = window.key name
  known : ∀ peerId name, window.shownAt peerId = some name → name ∈ window.machinePeersTable

variable {window window' : PeerWindow}

/-! ### Replies -/

/-- A reply touches the buttons of its own peer only, and does not clear the fingerprint
under which it puts the peer. -/
def ReplyHarmless (info : PeerInfo) (name output : QString) (window : PeerWindow) : Prop :=
  (∀ other ∈ window.machinePeersTable, other ≠ name →
      ¬ window.Emptied info name output (window.key other) ∧
        window.key other ≠ window.newKey info name output) ∧
    ¬ window.ClearsOwn info name output

/-- Before a reply the peer was under its new key, or the old button is emptied. -/
theorem emptied_key_or (info : PeerInfo) (name output : QString) (window : PeerWindow) :
    window.Emptied info name output (window.key name) ∨
      window.key name = window.newKey info name output := by
  by_cases hchange : window.changesFinger info name output
  · have hnew : window.newFinger info name output = output := if_pos hchange
    left
    rw [key]
    split
    · exact Or.inr ⟨fun hempty => hchange.2.2.1 (hnew.symm.trans hempty), rfl⟩
    · exact Or.inl ⟨hchange, rfl⟩
  · right
    rw [key, newKey, newFinger, if_neg hchange]

theorem eachOnce_recorded (honce : window.EachOnce) (hnames : ∀ name ∈ window.machinePeersTable, name ≠ [])
    {info : PeerInfo} {name output : QString} {peer : CLocalPeer}
    (h : Recorded info name output peer window window')
    (hharmless : window.ReplyHarmless info name output) : window'.EachOnce := by
  have hkey : window'.key name = window.newKey info name output := by
    rw [key, h.peerFinger_self, if_neg hharmless.2, newKey]
  have hshown (peerId : QString) : window'.shownAt peerId =
      if peerId = window'.key name then some name
      else if window.Emptied info name output peerId then none else window.shownAt peerId := by
    rw [h.shownAt, if_neg hharmless.2, hkey]
  have hothers (other : QString) (hmem : other ∈ window.machinePeersTable) (hne : other ≠ name) :
      window'.key other = window.key other := by
    cases h.peerFinger other hne (hnames other hmem) with
    | inl hsame => exact key_congr hsame
    | inr hcleared =>
        obtain ⟨peerId, hemptied, hat⟩ := hcleared.2
        rw [(honce.shown other hmem peerId).mp hat] at hemptied
        exact absurd hemptied (hharmless.1 other hmem hne).1
  refine ⟨?_, ?_⟩
  · intro other hmem peerId
    rw [hshown]
    by_cases hown : other = name
    · rw [hown]
      by_cases hid : peerId = window'.key name
      · exact iff_of_true (if_pos hid) hid
      · rw [if_neg hid]
        refine iff_of_false ?_ hid
        split
        · exact (Option.some_ne_none name).symm
        · rename_i hemptied
          intro hat
          have hmem' := honce.known peerId name hat
          rw [(honce.shown name hmem' peerId).mp hat] at hemptied hid
          cases emptied_key_or info name output window with
          | inl hempty => exact hemptied hempty
          | inr hsame => exact hid (hsame.trans hkey.symm)
    · have hbefore : other ∈ window.machinePeersTable := ((h.mem other).mp hmem).resolve_left hown
      have htouch := hharmless.1 other hbefore hown
      rw [← hkey] at htouch
      rw [hothers other hbefore hown]
      split
      · rename_i hid
        exact iff_of_false (fun heq => hown (Option.some.inj heq).symm)
          fun heq => htouch.2 (heq.symm.trans hid)
      · split
        · rename_i hemptied
          refine iff_of_false (Option.some_ne_none other).symm ?_
          intro heq
          rw [heq] at hemptied
          exact htouch.1 hemptied
        · exact honce.shown other hbefore peerId
  · intro peerId other hat
    rw [hshown] at hat
    rw [h.mem]
    split at hat
    · exact Or.inl (Option.some.inj hat).symm
    · split at hat
      · exact absurd hat.symm (Option.some_ne_none other)
      · exact Or.inr (honce.known peerId other hat)

theorem replyHarmless_of_eachOnce (honce : window.EachOnce) {info : PeerInfo} {name output : QString}
    {peer : CLocalPeer} (hname : name ≠ []) (h : Recorded info name output peer window window')
    (honce' : window'.EachOnce) :
    window.ReplyHarmless info name output := by
  have hat (other : QString) (hmem : other = name ∨ other ∈ window.machinePeersTable) :
      window'.shownAt (window'.key other) = some other :=
    (honce'.shown other ((h.mem other).mpr hmem) (window'.key other)).mpr rfl
  have hnot : ¬ window.ClearsOwn info name output := by
    intro hclears
    have hown := hat name (Or.inl rfl)
    have hkey : window'.key name = name := by
      rw [key, h.peerFinger_self, if_pos hclears]
      exact if_pos rfl
    have hemptied : window.Emptied info name output name := Or.inr ⟨hclears.1, rfl⟩
    rw [hkey, h.shownAt, if_pos hclears, if_neg hname, if_pos hemptied] at hown
    exact Option.some_ne_none name hown.symm
  refine ⟨?_, hnot⟩
  intro other hmem hne
  have hplace := hat other (Or.inr hmem)
  rw [h.shownAt, if_neg hnot] at hplace
  split at hplace
  · exact absurd (Option.some.inj hplace).symm hne
  · rename_i hnewKey
    split at hplace
    · exact absurd hplace.symm (Option.some_ne_none other)
    · rename_i hemptied
      rw [(honce.shown other hmem _).mp hplace] at hnewKey hemptied
      exact ⟨hemptied, hnewKey⟩

theorem eachOnce_recorded_iff (honce : window.EachOnce)
    (hnames : ∀ name ∈ window.machinePeersTable, name ≠ []) {info : PeerInfo} {name output : QString}
    {peer : CLocalPeer} (hname : name ≠ []) (h : Recorded info name output peer window window') :
    window'.EachOnce ↔ window.ReplyHarmless info name output :=
  ⟨replyHarmless_of_eachOnce honce hname h, eachOnce_recorded honce hnames h⟩

/-! ### The sweep at the end of a round -/

/-- What deletions of local peers leave: a fingerprint is cleared only with the button. -/
structure Shrunk (window swept : PeerWindow) : Prop where
  statesMatch : swept.StatesMatch
  shownAt : ∀ peerId, swept.shownAt peerId = none ∨ swept.shownAt peerId = window.shownAt peerId
  peerFinger : ∀ name, name ≠ [] →
    swept.peerFinger name = window.peerFinger name ∨
      swept.peerFinger name = [] ∧ ∀ peerId, swept.shownAt peerId ≠ some name

variable {swept : PeerWindow}

theorem Shrunk.before (h : Shrunk window swept) {peerId name : QString}
    (hat : swept.shownAt peerId = some name) : window.shownAt peerId = some name := by
  cases h.shownAt peerId with
  | inl hnone =>
      rw [hnone] at hat
      exact absurd hat.symm (Option.some_ne_none name)
  | inr hsame => exact hsame.symm.trans hat

theorem EachOnce.unique (honce : window.EachOnce) {peerId peerId' name : QString}
    (h : window.shownAt peerId = some name) (h' : window.shownAt peerId' = some name) :
    peerId = peerId' := by
  have hmem := honce.known peerId name h
  rw [(honce.shown name hmem peerId).mp h, (honce.shown name hmem peerId').mp h']

theorem shrunk_delete (honce : window.EachOnce) (h : Shrunk window swept) (peerId : QString) :
    Shrunk window (swept.deletePeerButtonInfo peerId .ofMachine) := by
  have heffect := effect_deletePeerButtonInfo h.statesMatch peerId
  have hless (a name : QString)
      (hat : (swept.deletePeerButtonInfo peerId .ofMachine).shownAt a = some name) :
      a ≠ peerId ∧ swept.shownAt a = some name := by
    rw [heffect.shownAt] at hat
    by_cases ha : a = peerId
    · rw [ha, Function.update_self] at hat
      exact absurd hat.symm (Option.some_ne_none name)
    · rw [Function.update_of_ne ha] at hat
      exact ⟨ha, hat⟩
  refine ⟨heffect.statesMatch, ?_, ?_⟩
  · intro a
    rw [heffect.shownAt]
    by_cases ha : a = peerId
    · rw [ha, Function.update_self]
      exact Or.inl rfl
    · rw [Function.update_of_ne ha]
      exact h.shownAt a
  · intro name hempty
    rw [heffect.peerFinger]
    by_cases hclears : swept.clears peerId = some name
    · rw [if_pos hclears]
      refine Or.inr ⟨rfl, ?_⟩
      intro a hat
      obtain ⟨hne, hat⟩ := hless a name hat
      have hdeleted := (clears_cases hclears).resolve_right hempty
      exact hne (honce.unique (h.before hat) (h.before hdeleted))
    · rw [if_neg hclears]
      cases h.peerFinger name hempty with
      | inl hsame => exact Or.inl hsame
      | inr hgone => exact Or.inr ⟨hgone.1, fun a hat => hgone.2 a (hless a name hat).2⟩

theorem shownAt_delete_of_ne (h : swept.StatesMatch) {peerId a : QString} (ha : a ≠ peerId) :
    (swept.deletePeerButtonInfo peerId .ofMachine).shownAt a = swept.shownAt a := by
  rw [(effect_deletePeerButtonInfo h peerId).shownAt, Function.update_of_ne ha]

theorem shownAt_delete_self (h : swept.StatesMatch) (peerId : QString) :
    (swept.deletePeerButtonInfo peerId .ofMachine).shownAt peerId = none := by
  rw [(effect_deletePeerButtonInfo h peerId).shownAt, Function.update_self]

/-- A peer that goes leaves two places empty. -/
theorem shownAt_finishPeer (h : swept.StatesMatch) (entry : QString × CLocalPeer)
    (peerId : QString) :
    (swept.finishPeer entry).shownAt peerId =
      if entry.2.update = .old ∧
          (peerId = entry.2.name ∨ peerId = swept.peerFinger entry.2.name) then none
      else swept.shownAt peerId := by
  rw [finishPeer]
  by_cases hold : entry.2.update = .old
  · have hfirst := effect_deletePeerButtonInfo h (swept.peerFinger entry.2.name)
    rw [if_pos hold]
    dsimp only
    by_cases hname : peerId = entry.2.name
    · rw [if_pos ⟨hold, Or.inl hname⟩, hname, shownAt_delete_self hfirst.statesMatch]
    · rw [shownAt_delete_of_ne hfirst.statesMatch hname]
      by_cases hfinger : peerId = swept.peerFinger entry.2.name
      · rw [if_pos ⟨hold, Or.inr hfinger⟩, hfinger, shownAt_delete_self h]
      · rw [shownAt_delete_of_ne h hfinger, if_neg fun hc => hc.2.elim hname hfinger]
  · rw [if_neg hold, if_neg fun hc => hold hc.1]
    rfl

theorem before_finishPeer (h : swept.StatesMatch) {entry : QString × CLocalPeer}
    {peerId name : QString} (hat : (swept.finishPeer entry).shownAt peerId = some name) :
    swept.shownAt peerId = some name := by
  rw [shownAt_finishPeer h] at hat
  split at hat
  · exact absurd hat.symm (Option.some_ne_none name)
  · exact hat

theorem shrunk_finishPeer (honce : window.EachOnce) (h : Shrunk window swept)
    (entry : QString × CLocalPeer) : Shrunk window (swept.finishPeer entry) := by
  rw [finishPeer]
  split
  · exact shrunk_delete honce (shrunk_delete honce h _) _
  · exact ⟨h.statesMatch, h.shownAt, h.peerFinger⟩

section
variable {entry : QString × CLocalPeer}

/-- The peer that goes was at most under its key, which is one of the two places. -/
theorem not_shownAt_finishPeer (honce : window.EachOnce) (h : Shrunk window swept)
    (hempty : entry.1 ≠ []) (hname : entry.2.name = entry.1)
    (hmem : entry.1 ∈ window.machinePeersTable) (hold : entry.2.update = .old) (peerId : QString) :
    (swept.finishPeer entry).shownAt peerId ≠ some entry.1 := by
  intro hat
  have hbefore := before_finishPeer h.statesMatch hat
  have hkey := (honce.shown entry.1 hmem peerId).mp (h.before hbefore)
  rw [shownAt_finishPeer h.statesMatch, hname, if_pos] at hat
  · exact Option.some_ne_none entry.1 hat.symm
  · refine ⟨hold, ?_⟩
    cases h.peerFinger entry.1 hempty with
    | inl hsame =>
        rw [hkey, hsame, key]
        split
        · exact Or.inl rfl
        · exact Or.inr rfl
    | inr hgone => exact absurd hbefore (hgone.2 peerId)

/-- Neither place of a peer that goes is the place of another peer, unless this one is kept
under the name of the first. -/
theorem key_ne_places (honce : window.EachOnce) (h : Shrunk window swept) {name : QString}
    (hempty : name ≠ []) (hentry : entry.1 ≠ []) (hmem : name ∈ window.machinePeersTable)
    (hmem' : entry.1 ∈ window.machinePeersTable) (hne : name ≠ entry.1)
    (hnot : window.peerFinger name ≠ entry.1) :
    window.key name ≠ entry.1 ∧ window.key name ≠ swept.peerFinger entry.1 := by
  constructor
  · rw [key]
    split
    · exact hne
    · exact hnot
  · intro heq
    have hnempty : swept.peerFinger entry.1 ≠ [] := by
      rw [← heq]
      exact key_ne_nil hempty window
    cases h.peerFinger entry.1 hentry with
    | inl hsame =>
        rw [hsame] at heq hnempty
        have hsameKey : window.key name = window.key entry.1 := heq.trans (if_neg hnempty).symm
        have hat := (honce.shown entry.1 hmem' _).mpr hsameKey
        rw [(honce.shown name hmem _).mpr rfl] at hat
        exact hne (Option.some.inj hat)
    | inr hgone => exact hnempty hgone.1

end

/-- What the loop has done after some of the peers. -/
structure Swept (window : PeerWindow) (finished : List (QString × CLocalPeer)) (swept : PeerWindow) :
    Prop where
  shrunk : Shrunk window swept
  gone : ∀ entry ∈ finished, entry.2.update = .old →
    (∀ peerId, swept.shownAt peerId ≠ some entry.1) ∧ swept.shownAt entry.1 = none
  kept : ∀ name, window.markOf name = some .new →
    (∀ entry ∈ finished, entry.2.update = .old → window.peerFinger name ≠ entry.1) →
      swept.shownAt (window.key name) = some name

theorem swept_finishPeer (honce : window.EachOnce) (hnamed : window.Named)
    {finished : List (QString × CLocalPeer)} (h : Swept window finished swept)
    {entry : QString × CLocalPeer} (hentry : window.machinePeersTable[entry.1]? = some entry.2) :
    Swept window (finished ++ [entry]) (swept.finishPeer entry) := by
  obtain ⟨hempty, hname⟩ := hnamed entry.1 entry.2 hentry
  have hmark : window.markOf entry.1 = some entry.2.update := by
    rw [markOf, hentry, Option.map_some]
  have hmem := mem_of_markOf hmark
  have hmatch := h.shrunk.statesMatch
  refine ⟨shrunk_finishPeer honce h.shrunk entry, ?_, ?_⟩
  · intro other hother hold
    rw [List.mem_append, List.mem_singleton] at hother
    cases hother with
    | inl hbefore =>
        obtain ⟨hnowhere, hnone⟩ := h.gone other hbefore hold
        refine ⟨fun peerId hat => hnowhere peerId (before_finishPeer hmatch hat), ?_⟩
        refine Option.eq_none_iff_forall_ne_some.mpr fun name hat => ?_
        rw [before_finishPeer hmatch hat] at hnone
        exact Option.some_ne_none name hnone
    | inr hself =>
        rw [hself] at hold ⊢
        refine ⟨not_shownAt_finishPeer honce h.shrunk hempty hname hmem hold, ?_⟩
        rw [shownAt_finishPeer hmatch, if_pos ⟨hold, Or.inl hname.symm⟩]
  · intro name hnew hnot
    have hbefore := h.kept name hnew fun other hother =>
      hnot other (List.mem_append_left _ hother)
    rw [shownAt_finishPeer hmatch, if_neg]
    · exact hbefore
    · intro hplace
      have hself := hnot entry (List.mem_append_right _ (List.mem_singleton.mpr rfl)) hplace.1
      have hne : name ≠ entry.1 := by
        intro heq
        rw [heq, hmark, hplace.1] at hnew
        exact PeerUpdate.noConfusion (Option.some.inj hnew)
      have hnempty := (hnamed name _ (Option.map_eq_some_iff.mp hnew).choose_spec.1).1
      have hplaces := key_ne_places honce h.shrunk hnempty hempty (mem_of_markOf hnew) hmem hne hself
      rw [hname] at hplace
      exact hplace.2.elim hplaces.1 hplaces.2

theorem swept_foldl (h : window.Inv) (honce : window.EachOnce)
    (entries : List (QString × CLocalPeer))
    (hentries : ∀ entry ∈ entries, window.machinePeersTable[entry.1]? = some entry.2) :
    Swept window entries (entries.foldl finishPeer window) := by
  induction entries using List.reverseRecOn with
  | nil =>
      refine ⟨⟨h.statesMatch, fun _ => Or.inr rfl, fun _ _ => Or.inl rfl⟩, ?_, ?_⟩
      · intro entry hentry
        exact absurd hentry List.not_mem_nil
      · intro name hnew _
        exact (honce.shown name (mem_of_markOf hnew) _).mpr rfl
  | append_singleton entries entry ih =>
      rw [List.foldl_append]
      have hbefore := ih fun other hother => hentries other (List.mem_append_left _ hother)
      exact swept_finishPeer honce h.named hbefore
        (hentries entry (List.mem_append_right _ (List.mem_singleton.mpr rfl)))

/-- No peer that stays is kept under the name of a peer that goes. -/
def SweepHarmless (window : PeerWindow) : Prop :=
  ∀ name other, window.markOf name = some .new → window.markOf other = some .old →
    window.peerFinger name ≠ other

/-- A sweep removes the peers that are marked as old, with their buttons. -/
structure SweptOff (window after : PeerWindow) : Prop where
  mem : ∀ name, name ∈ after.machinePeersTable ↔ window.markOf name = some .new
  before : ∀ peerId name, after.shownAt peerId = some name → window.shownAt peerId = some name
  peerFinger : ∀ name, name ≠ [] →
    after.peerFinger name = window.peerFinger name ∨ ∀ peerId, after.shownAt peerId ≠ some name
  gone : ∀ name, window.markOf name = some .old →
    (∀ peerId, after.shownAt peerId ≠ some name) ∧ after.shownAt name = none
  kept : ∀ name, window.markOf name = some .new →
    (∀ other, window.markOf other = some .old → window.peerFinger name ≠ other) →
      after.shownAt (window.key name) = some name

theorem sweptOff_machinePeersUpdFinished (h : window.Inv) (honce : window.EachOnce) :
    SweptOff window window.machinePeersUpdFinished := by
  have hentries (entry : QString × CLocalPeer) :
      entry ∈ window.machinePeersTable.toList ↔
        window.machinePeersTable[entry.1]? = some entry.2 :=
    Std.ExtTreeMap.mem_toList_iff_getElem?_eq_some
  have hswept := swept_foldl h honce window.machinePeersTable.toList
    fun entry hentry => (hentries entry).mp hentry
  refine ⟨mem_machinePeersUpdFinished h, ?_, ?_, ?_, ?_⟩
  · intro peerId name hat
    exact hswept.shrunk.before hat
  · intro name hempty
    exact (hswept.shrunk.peerFinger name hempty).imp_right And.right
  · intro name hold
    obtain ⟨peer, hpeer, hmark⟩ := Option.map_eq_some_iff.mp hold
    exact hswept.gone (name, peer) ((hentries (name, peer)).mpr hpeer) hmark
  · intro name hnew hnot
    refine hswept.kept name hnew fun entry hentry hmark => hnot entry.1 ?_
    rw [markOf, (hentries entry).mp hentry, Option.map_some, hmark]

theorem eachOnce_sweptOff_iff (honce : window.EachOnce) (hnamed : window.Named) {after : PeerWindow}
    (h : SweptOff window after) : after.EachOnce ↔ window.SweepHarmless := by
  constructor
  · intro honce' name other hnew hold hfinger
    have hat := (honce'.shown name ((h.mem name).mpr hnew) (after.key name)).mpr rfl
    have hempty : other ≠ [] := (hnamed other _ (Option.map_eq_some_iff.mp hold).choose_spec.1).1
    have hkey : window.key name = other := by
      rw [key, hfinger, if_neg hempty]
    have hplace := (honce.shown name (mem_of_markOf hnew) _).mp (h.before _ _ hat)
    rw [hplace, hkey, (h.gone other hold).2] at hat
    exact Option.some_ne_none name hat.symm
  · intro hharmless
    refine ⟨?_, ?_⟩
    · intro name hmem peerId
      have hnew := (h.mem name).mp hmem
      have hkept := h.kept name hnew fun other => hharmless name other hnew
      have hempty : name ≠ [] := (hnamed name _ (Option.map_eq_some_iff.mp hnew).choose_spec.1).1
      have hkey : after.key name = window.key name :=
        key_congr ((h.peerFinger name hempty).resolve_right fun hnowhere => hnowhere _ hkept)
      rw [hkey]
      constructor
      · intro hat
        exact (honce.shown name (mem_of_markOf hnew) peerId).mp (h.before peerId name hat)
      · intro heq
        rw [heq]
        exact hkept
    · intro peerId name hat
      have hmem := honce.known peerId name (h.before peerId name hat)
      refine (h.mem name).mpr ((markOf_cases hmem).resolve_right fun hold => ?_)
      exact (h.gone name hold).1 peerId hat

/-! ### Runs -/

theorem eachOnce_of_untouched (h : Untouched window window') (honce : window.EachOnce) :
    window'.EachOnce := by
  refine ⟨?_, ?_⟩
  · intro name hmem peerId
    rw [h.machinePeersTable] at hmem
    rw [h.shownAt, key_congr (congrFun h.peerFinger name)]
    exact honce.shown name hmem peerId
  · intro peerId name hat
    rw [h.shownAt] at hat
    rw [h.machinePeersTable]
    exact honce.known peerId name hat

/-- The steps that keep each peer on its own button. -/
def Harmless (window : PeerWindow) : Event → Prop
  | .reply info name _ output => window.ReplyHarmless info name output
  | .updFinished => window.SweepHarmless
  | .hubUpdate _ | .hubDelete _ | .networkUpdate _ | .networkDelete _ => True

variable (toUpper : QString → QString)

theorem eachOnce_step_iff (event : Event) (h : window.Inv) (honce : window.EachOnce)
    (hstep : step toUpper window event = some window') :
    window'.EachOnce ↔ window.Harmless event := by
  obtain hreply | hfinished | hother := step_cases toUpper h.statesMatch hstep
  · obtain ⟨info, name, dir, output, hevent, hname, hwindow'⟩ := hreply
    rw [hevent, hwindow']
    have hnames : ∀ name ∈ window.machinePeersTable, name ≠ [] := by
      intro name hmem
      obtain ⟨peer, hpeer⟩ := (Lookups.mem_iff_exists _ name).mp hmem
      exact (h.named name peer hpeer).1
    exact eachOnce_recorded_iff honce hnames hname
      (recorded_recordPeer h.statesMatch info hname dir output)
  · rw [hfinished.1, hfinished.2]
    exact eachOnce_sweptOff_iff honce h.named (sweptOff_machinePeersUpdFinished h honce)
  · refine iff_of_true (eachOnce_of_untouched hother.2 honce) ?_
    cases event with
    | reply info name dir output => exact absurd hother.1.symm Bool.false_ne_true
    | updFinished => exact absurd hother.1.symm Bool.false_ne_true
    | _ => trivial

theorem eachOnce_new (peerFingers : StdMap QString) : (new peerFingers).EachOnce := by
  refine ⟨?_, ?_⟩
  · intro name hmem
    exact absurd hmem Std.ExtTreeMap.not_mem_empty
  · intro peerId name hat
    rw [shownAt, new] at hat
    dsimp only at hat
    rw [Std.ExtTreeMap.getElem?_empty, Option.bind_none] at hat
    exact absurd hat.symm (Option.some_ne_none name)

/-- Each peer of the machine has its one button along a run exactly when no step of the
run touches the button of another peer. -/
theorem eachOnce_iff_harmless (peerFingers : StdMap QString) (events : List Event) :
    Runs.AlwaysPartial (step toUpper) EachOnce (new peerFingers) events ↔
      Runs.EachStepPartial (step toUpper) Harmless (new peerFingers) events :=
  Runs.alwaysPartial_iff_eachStepPartial (inv_new peerFingers) (fun _ event _ => inv_step toUpper event)
    (eachOnce_new peerFingers) (fun _ event _ => eachOnce_step_iff toUpper event) events

/-- Different peers report different fingerprints. -/
def ReportsDistinct (events : List Event) : Prop :=
  ∀ name other dir dir' output, .reply .finger name dir output ∈ events →
    .reply .finger other dir' output ∈ events → output ≠ undefinedString → output ≠ [] → name = other

def renamedFingers : StdMap QString :=
  Std.ExtTreeMap.insert ∅ "old".toList "AB12".toList

def renamedEvents : List Event :=
  [.reply .finger "next".toList "/peers/next".toList "AB12".toList,
    .reply .status "old".toList "/peers/old".toList "running".toList]

def renamedWindow : PeerWindow :=
  ((new renamedFingers).recordPeer .finger "next".toList "/peers/next".toList "AB12".toList).recordPeer
    .status "old".toList "/peers/old".toList "running".toList

/-- A peer was renamed from `old` to `next`, and its fingerprint is still stored under the old
name. A new peer of the old name takes its button before it has told its own. -/
theorem not_eachOnce_renamed :
    ReportsDistinct renamedEvents ∧
      ¬ Runs.AlwaysPartial (step id) EachOnce (new renamedFingers) renamedEvents := by
  refine ⟨?_, ?_⟩
  · intro name other dir dir' output h h' _ _
    simp only [renamedEvents, List.mem_cons, Event.reply.injEq, reduceCtorEq, false_and, or_false,
      List.not_mem_nil, true_and] at h h'
    rw [h.1, h'.1]
  · intro always
    have honce := always _ renamedWindow (List.prefix_refl _) rfl
    have hmem := @mem_of_markOf renamedWindow "next".toList .new (by decide)
    have hat := (honce.shown _ hmem _).mpr rfl
    exact absurd hat (by decide)

end PeerWindow

end SubutaiTray.Peer
