import SubutaiTray.Library.Runs
import SubutaiTray.Library.Sweeping
import SubutaiTray.P2P.Swarms
import SubutaiTray.Peer.Effects

/-!
The tables of the peers that the hub and the network report (`my_peers_updated_sl`).

Both tables are to be swept: an entry is marked when it is reported, and a loop over the table
collects the entries without a mark. The loop over the peers of the network starts behind the last
entry.
-/
namespace SubutaiTray.Peer

/-- The characters from `indexUid` to the next colon. The counter has 16 bits: once it has come
around, it never ends. It counts the characters here, and the UTF-16 units of a `QString`: beyond U+FFFF
a character has two. -/
def readToColon (uid : QString) : Nat → UInt16 → QString → Option QString
  | 0, _, _ => none
  | fuel + 1, indexUid, res =>
      match uid[indexUid.toNat]? with
      | none => some res
      | some c => if c = ':' then some res else readToColon uid fuel (indexUid + 1) (res ++ [c])

/-- `CCommons::GetFingerprintFromUid` -/
def getFingerprintFromUid (uid : QString) : Option QString :=
  if P2P.indexOf "uid".toList uid = none then some []
  else
    let found : Int := ((P2P.indexOf "uid:".toList uid).map Int.ofNat).getD (-1)
    readToColon uid (2 ^ 16 + 1) (UInt16.ofInt (found + 4)) []

theorem readToColon_isSome {uid : QString} (hshort : uid.length < 2 ^ 16) (fuel : Nat)
    (indexUid : UInt16) (res : QString) (hfuel : uid.length < indexUid.toNat + fuel) :
    (readToColon uid fuel indexUid res).isSome = true ∨ fuel = 0 := by
  induction fuel generalizing indexUid res with
  | zero => exact Or.inr rfl
  | succ fuel ih =>
      left
      rw [readToColon]
      split
      · rfl
      · rename_i c hc
        split
        · rfl
        · obtain ⟨hindex, -⟩ := List.getElem?_eq_some_iff.mp hc
          have hnext : (indexUid + 1).toNat = indexUid.toNat + 1 := by
            rw [UInt16.toNat_add, UInt16.toNat_one, Nat.mod_eq_of_lt (by omega)]
          refine (ih (indexUid + 1) (res ++ [c]) (by omega)).resolve_right (by omega)

/-- A datagram of UDP cannot hold a longer text. -/
theorem getFingerprintFromUid_isSome {uid : QString} (hshort : uid.length < 2 ^ 16) :
    (getFingerprintFromUid uid).isSome = true := by
  rw [getFingerprintFromUid]
  split
  · rfl
  · exact (readToColon_isSome hshort _ _ _ (by omega)).resolve_right (Nat.succ_ne_zero _)

/-- The peers of the hub and of the network. `updated` is the mark of an entry of
`hub_peers_table`, each of which stands under its fingerprint. -/
structure PeerTables where
  window : PeerWindow
  updated : QString → Bool
  networkPeersTable : StdMap (QString × Bool)
  keyed : ∀ (fingerprint : QString) (peer : CMyPeerInfo),
    window.hubPeersTable[fingerprint]? = some peer → peer.fingerprint = fingerprint

/-- The entries from an iterator on. -/
def entriesFrom {V : Type} (position : Nat) (table : StdMap V) : List (QString × V) :=
  table.toList.drop position

namespace PeerWindow

theorem hubPeersTable_deletePeerButtonInfo (peerId : QString) (part : ButtonPart)
    (window : PeerWindow) :
    (window.deletePeerButtonInfo peerId part).hubPeersTable = window.hubPeersTable := by
  rw [deletePeerButtonInfo]
  split
  · rfl
  · dsimp only
    split
    · split
      · rw [setPeerFinger, hubPeersTable_updatePeerIcon]
        rfl
      · rw [hubPeersTable_updatePeerIcon]
        rfl
    · rw [hubPeersTable_updatePeerIcon]
      rfl

theorem hubPeersTable_updateHubButton (peerId : QString) (peer : CMyPeerInfo) (window : PeerWindow) :
    (window.updateHubButton peerId peer).hubPeersTable = window.hubPeersTable := by
  rw [updateHubButton, hubPeersTable_updatePeerIcon]
  rfl

theorem hubPeersTable_updateNetworkButton (peerId : QString) (peer : QString × QString)
    (window : PeerWindow) :
    (window.updateNetworkButton peerId peer).hubPeersTable = window.hubPeersTable := by
  rw [updateNetworkButton, hubPeersTable_updatePeerIcon]
  rfl

end PeerWindow

namespace PeerTables

def new (peerFingers : StdMap QString) : PeerTables where
  window := PeerWindow.new peerFingers
  updated := fun _ => false
  networkPeersTable := ∅
  keyed := by
    intro fingerprint peer hat
    exact absurd hat Lookups.empty_ne_some

/-- What the slot does for a peer that the hub reports. -/
def reportHub (toUpper : QString → QString) (tables : PeerTables) (peer : CMyPeerInfo) : PeerTables where
  window :=
    { tables.window with
      hubPeersTable := tables.window.hubPeersTable.insert peer.fingerprint peer }.updateHubButton
        (toUpper peer.fingerprint) peer
  updated := Function.update tables.updated peer.fingerprint true
  networkPeersTable := tables.networkPeersTable
  keyed := by
    intro fingerprint found hat
    rw [PeerWindow.hubPeersTable_updateHubButton] at hat
    dsimp only at hat
    rw [Lookups.getElem?_insert] at hat
    split at hat
    · rename_i hkey
      rw [← Option.some.inj hat, hkey]
    · exact tables.keyed fingerprint found hat

/-- What the slot does for a peer that is found in the network. -/
def reportNetwork (toUpper : QString → QString) (tables : PeerTables) (peer : QString × QString) :
    PeerTables where
  window := tables.window.updateNetworkButton (toUpper peer.1) peer
  updated := tables.updated
  networkPeersTable := tables.networkPeersTable.insert peer.1 (peer.2, true)
  keyed := by
    rw [PeerWindow.hubPeersTable_updateNetworkButton]
    exact tables.keyed

def hubDisconnectedPeers (tables : PeerTables) : List QString :=
  ((entriesFrom 0 tables.window.hubPeersTable).filter fun entry => !tables.updated entry.1).map
    fun entry => entry.2.fingerprint

/-- The loop begins with `end()`. -/
def networkDisconnectedPeers (tables : PeerTables) : List QString :=
  ((entriesFrom tables.networkPeersTable.toList.length tables.networkPeersTable).filter
    fun entry => !entry.2.2).map Prod.fst

/-- The `else` branches of both loops: the marks are taken away for the next time. -/
def clearMarks (tables : PeerTables) : PeerTables :=
  { tables with
    updated :=
      (entriesFrom 0 tables.window.hubPeersTable).foldl
        (fun updated entry =>
          if updated entry.1 then Function.update updated entry.1 false else updated)
        tables.updated
    networkPeersTable :=
      (entriesFrom tables.networkPeersTable.toList.length tables.networkPeersTable).foldl
        (fun table entry => if entry.2.2 then table.insert entry.1 (entry.2.1, false) else table)
        tables.networkPeersTable }

def deleteHub (toUpper : QString → QString) (tables : PeerTables) (delMe : QString) : PeerTables where
  window :=
    { tables.window with
      hubPeersTable := tables.window.hubPeersTable.erase delMe }.deletePeerButtonInfo (toUpper delMe) .ofHub
  updated := tables.updated
  networkPeersTable := tables.networkPeersTable
  keyed := by
    intro fingerprint found hat
    rw [PeerWindow.hubPeersTable_deletePeerButtonInfo] at hat
    dsimp only at hat
    rw [Lookups.getElem?_erase] at hat
    split at hat
    · exact absurd hat.symm (Option.some_ne_none found)
    · exact tables.keyed fingerprint found hat

def deleteNetwork (toUpper : QString → QString) (tables : PeerTables) (delMe : QString) :
    PeerTables where
  window := tables.window.deletePeerButtonInfo (toUpper delMe) .ofNetwork
  updated := tables.updated
  networkPeersTable := tables.networkPeersTable.erase delMe
  keyed := by
    rw [PeerWindow.hubPeersTable_deletePeerButtonInfo]
    exact tables.keyed

/-- The fingerprints and the addresses of the resource hosts. -/
def networkPeers (hosts : StdMap QString) : Option (List (QString × QString)) :=
  hosts.toList.mapM fun host =>
    (getFingerprintFromUid host.1).map fun fingerprint => (fingerprint, host.2)

/-- The peers are collected before any is deleted. -/
def sweep (toUpper : QString → QString) (tables : PeerTables) : PeerTables :=
  tables.networkDisconnectedPeers.foldl (deleteNetwork toUpper)
    (tables.hubDisconnectedPeers.foldl (deleteHub toUpper) tables.clearMarks)

/-- It does not return if the fingerprint of a host cannot be read to its end. -/
def myPeersUpdated (toUpper : QString → QString) (hubPeers : List CMyPeerInfo)
    (hosts : StdMap QString) (tables : PeerTables) : Option PeerTables :=
  (networkPeers hosts).map fun networkPeers =>
    (networkPeers.foldl (reportNetwork toUpper) (hubPeers.foldl (reportHub toUpper) tables)).sweep toUpper

theorem networkPeers_isSome {hosts : StdMap QString}
    (hshort : ∀ host ∈ hosts.toList, host.1.length < 2 ^ 16) : (networkPeers hosts).isSome = true := by
  rw [networkPeers]
  generalize hosts.toList = hosts at hshort
  induction hosts with
  | nil => rfl
  | cons host hosts ih =>
      obtain ⟨hhost, hrest⟩ := List.forall_mem_cons.mp hshort
      obtain ⟨fingerprint, hfingerprint⟩ := Option.isSome_iff_exists.mp (getFingerprintFromUid_isSome hhost)
      obtain ⟨reports, hreports⟩ := Option.isSome_iff_exists.mp (ih hrest)
      rw [List.mapM_cons, hfingerprint, hreports]
      rfl

/-- So the slot returns where each host has announced itself in a datagram. -/
theorem myPeersUpdated_isSome (toUpper : QString → QString) (hubPeers : List CMyPeerInfo)
    {hosts : StdMap QString} (hshort : ∀ host ∈ hosts.toList, host.1.length < 2 ^ 16)
    (tables : PeerTables) : (tables.myPeersUpdated toUpper hubPeers hosts).isSome = true := by
  rw [myPeersUpdated, Option.isSome_map]
  exact networkPeers_isSome hshort

/-! ## What the tables are to hold -/

/-- `m_hub_peer` of a button. -/
def hubInfo (tables : PeerTables) (peerId : QString) : Option CMyPeerInfo :=
  (tables.window.myPeersButtonTable[peerId]?).bind MyPeerButton.hubPeer

/-- `m_network_peer` of a button. -/
def networkInfo (tables : PeerTables) (peerId : QString) : Option (QString × QString) :=
  (tables.window.myPeersButtonTable[peerId]?).bind MyPeerButton.networkPeer

/-- The entries are those that are reported, with the last report of each, and the buttons know
nothing of the others. -/
structure Mirrors (toUpper : QString → QString) (hubPeers : List CMyPeerInfo)
    (networkPeers : List (QString × QString)) (tables after : PeerTables) : Prop where
  hub : ∀ fingerprint : QString, after.window.hubPeersTable[fingerprint]? =
    Sweeping.lastReport (hubPeers.map fun peer => (peer.fingerprint, peer)) fingerprint
  network : ∀ fingerprint : QString, (after.networkPeersTable[fingerprint]?).map Prod.fst =
    Sweeping.lastReport networkPeers fingerprint
  hubGone : ∀ fingerprint ∈ tables.window.hubPeersTable,
    fingerprint ∉ hubPeers.map CMyPeerInfo.fingerprint → after.hubInfo (toUpper fingerprint) = none
  networkGone : ∀ fingerprint ∈ tables.networkPeersTable,
    fingerprint ∉ networkPeers.map Prod.fst → after.networkInfo (toUpper fingerprint) = none

def Right (toUpper : QString → QString) (hubPeers : List CMyPeerInfo) (hosts : StdMap QString)
    (tables : PeerTables) : Prop :=
  ∃ reports after, networkPeers hosts = some reports ∧
    tables.myPeersUpdated toUpper hubPeers hosts = some after ∧
      Mirrors toUpper hubPeers reports tables after

/-! ## The loops -/

variable {toUpper : QString → QString} {tables : PeerTables}

theorem reportHub_foldl (hubPeers : List CMyPeerInfo) (tables : PeerTables) :
    (hubPeers.foldl (reportHub toUpper) tables).window.hubPeersTable =
        Sweeping.note tables.window.hubPeersTable (hubPeers.map fun peer => (peer.fingerprint, peer)) ∧
      (hubPeers.foldl (reportHub toUpper) tables).networkPeersTable = tables.networkPeersTable ∧
      ∀ fingerprint, (hubPeers.foldl (reportHub toUpper) tables).updated fingerprint = true ↔
        fingerprint ∈ hubPeers.map CMyPeerInfo.fingerprint ∨ tables.updated fingerprint = true := by
  induction hubPeers generalizing tables with
  | nil => simp [Sweeping.note]
  | cons peer hubPeers ih =>
      obtain ⟨hhub, hnetwork, hupdated⟩ := ih (tables.reportHub toUpper peer)
      refine ⟨?_, hnetwork, ?_⟩
      · rw [List.foldl_cons, hhub, reportHub, PeerWindow.hubPeersTable_updateHubButton]
        rfl
      · intro fingerprint
        rw [List.foldl_cons, hupdated, reportHub]
        dsimp only
        rw [Function.update_apply, List.map_cons, List.mem_cons]
        by_cases hkey : fingerprint = peer.fingerprint
        · simp [hkey]
        · simp [hkey]

theorem reportNetwork_foldl (networkPeers : List (QString × QString)) (tables : PeerTables) :
    (networkPeers.foldl (reportNetwork toUpper) tables).window.hubPeersTable =
        tables.window.hubPeersTable ∧
      (networkPeers.foldl (reportNetwork toUpper) tables).updated = tables.updated ∧
      (networkPeers.foldl (reportNetwork toUpper) tables).networkPeersTable =
        Sweeping.note tables.networkPeersTable
          (networkPeers.map fun peer => (peer.1, (peer.2, true))) := by
  induction networkPeers generalizing tables with
  | nil => exact ⟨rfl, rfl, rfl⟩
  | cons peer networkPeers ih =>
      obtain ⟨hhub, hupdated, hnetwork⟩ := ih (tables.reportNetwork toUpper peer)
      refine ⟨?_, hupdated, hnetwork⟩
      rw [List.foldl_cons, hhub, reportNetwork, PeerWindow.hubPeersTable_updateNetworkButton]

theorem mem_hubDisconnectedPeers (tables : PeerTables) (fingerprint : QString) :
    fingerprint ∈ tables.hubDisconnectedPeers ↔
      fingerprint ∈ tables.window.hubPeersTable ∧ tables.updated fingerprint = false := by
  rw [hubDisconnectedPeers, entriesFrom, List.drop_zero, List.mem_map, Lookups.mem_iff_exists]
  constructor
  · rintro ⟨⟨key, peer⟩, hmem, rfl⟩
    rw [List.mem_filter, Std.ExtTreeMap.mem_toList_iff_getElem?_eq_some] at hmem
    have hkey := tables.keyed key peer hmem.1
    dsimp only
    rw [hkey]
    exact ⟨⟨peer, hmem.1⟩, by simpa using hmem.2⟩
  · rintro ⟨⟨peer, hat⟩, hmark⟩
    refine ⟨(fingerprint, peer), ?_, tables.keyed fingerprint peer hat⟩
    rw [List.mem_filter, Std.ExtTreeMap.mem_toList_iff_getElem?_eq_some]
    exact ⟨hat, by simpa using hmark⟩

/-- From the end on there are no entries. -/
theorem entriesFrom_end {V : Type} (table : StdMap V) : entriesFrom table.toList.length table = [] :=
  List.drop_length

theorem networkDisconnectedPeers_eq_nil (tables : PeerTables) : tables.networkDisconnectedPeers = [] := by
  rw [networkDisconnectedPeers, entriesFrom_end]
  rfl

theorem sweep_eq (tables : PeerTables) :
    tables.sweep toUpper = tables.hubDisconnectedPeers.foldl (deleteHub toUpper) tables.clearMarks := by
  rw [sweep, networkDisconnectedPeers_eq_nil, List.foldl_nil]

theorem networkPeersTable_clearMarks (tables : PeerTables) :
    tables.clearMarks.networkPeersTable = tables.networkPeersTable := by
  rw [clearMarks]
  dsimp only
  rw [entriesFrom_end]
  rfl

/-- Every entry of the hub has lost its mark. -/
theorem updated_clearMarks (tables : PeerTables) {fingerprint : QString}
    (hmem : fingerprint ∈ tables.window.hubPeersTable) :
    tables.clearMarks.updated fingerprint = false := by
  have hloop (entries : List (QString × CMyPeerInfo)) (updated : QString → Bool)
      (h : updated fingerprint = false ∨ fingerprint ∈ entries.map Prod.fst) :
      entries.foldl
        (fun updated entry => if updated entry.1 then Function.update updated entry.1 false else updated)
        updated fingerprint = false := by
    induction entries generalizing updated with
    | nil => exact h.resolve_right List.not_mem_nil
    | cons entry entries ih =>
        apply ih
        rw [List.map_cons, List.mem_cons] at h
        by_cases hkey : fingerprint = entry.1
        · left
          rw [hkey]
          dsimp only
          split
          · exact Function.update_self _ _ _
          · rename_i hmark
            exact Bool.not_eq_true _ ▸ hmark
        · refine h.imp (fun hmark => ?_) fun hmem => hmem.resolve_left hkey
          dsimp only
          split
          · rw [Function.update_of_ne hkey, hmark]
          · exact hmark
  obtain ⟨peer, hat⟩ := (Lookups.mem_iff_exists _ _).mp hmem
  rw [clearMarks]
  apply hloop
  rw [entriesFrom, List.drop_zero]
  exact Or.inr (List.mem_map.mpr
    ⟨(fingerprint, peer), Std.ExtTreeMap.mem_toList_iff_getElem?_eq_some.mpr hat, rfl⟩)

/-! ### Deletion -/

/-- A refreshed button has the peer of the hub that it had, if it is still there. -/
theorem hubPeer_updatePeerIcon (peerId a : QString) (window : PeerWindow) :
    ((window.updatePeerIcon peerId).myPeersButtonTable[a]?).bind MyPeerButton.hubPeer = none ∨
      ((window.updatePeerIcon peerId).myPeersButtonTable[a]?).bind MyPeerButton.hubPeer =
        (window.myPeersButtonTable[a]?).bind MyPeerButton.hubPeer := by
  rw [PeerWindow.updatePeerIcon]
  split
  · exact Or.inr rfl
  · rename_i button hfound
    split
    · split
      · dsimp only
        rw [Lookups.getElem?_erase]
        split
        · exact Or.inl rfl
        · exact Or.inr rfl
      · split
        · right
          rw [PeerWindow.setButton, Lookups.getElem?_insert]
          split
          · rename_i ha
            rw [ha, hfound]
            rfl
          · rfl
        · exact Or.inr rfl
    · exact Or.inr rfl

theorem hubInfo_deleteHub_self (tables : PeerTables) (delMe : QString) :
    (tables.deleteHub toUpper delMe).hubInfo (toUpper delMe) = none := by
  rw [hubInfo, deleteHub]
  dsimp only
  rw [PeerWindow.deletePeerButtonInfo]
  cases hfound : tables.window.myPeersButtonTable[toUpper delMe]? with
  | none =>
      dsimp only
      rw [hfound, Option.bind_none]
  | some button =>
      dsimp only
      rw [if_neg (by decide)]
      refine (hubPeer_updatePeerIcon _ _ _).elim id fun hsame => hsame.trans ?_
      rw [PeerWindow.setButton, Lookups.getElem?_insert_self, Option.bind_some]
      rfl

theorem hubInfo_deleteHub (tables : PeerTables) (delMe : QString) {peerId : QString}
    (h : tables.hubInfo peerId = none) : (tables.deleteHub toUpper delMe).hubInfo peerId = none := by
  by_cases hself : peerId = toUpper delMe
  · rw [hself]
    exact hubInfo_deleteHub_self tables delMe
  · rw [hubInfo, deleteHub, PeerWindow.getElem?_deletePeerButtonInfo_of_ne hself]
    exact h

theorem deleteHub_foldl (delMe : List QString) (tables : PeerTables) :
    (delMe.foldl (deleteHub toUpper) tables).networkPeersTable = tables.networkPeersTable ∧
      (delMe.foldl (deleteHub toUpper) tables).updated = tables.updated ∧
      (delMe.foldl (deleteHub toUpper) tables).window.hubPeersTable =
        delMe.foldl (fun table key => table.erase key) tables.window.hubPeersTable ∧
      ∀ peerId, peerId ∈ delMe.map toUpper ∨ tables.hubInfo peerId = none →
        (delMe.foldl (deleteHub toUpper) tables).hubInfo peerId = none := by
  induction delMe generalizing tables with
  | nil => exact ⟨rfl, rfl, rfl, fun peerId h => h.elim (fun hmem => absurd hmem List.not_mem_nil) id⟩
  | cons fingerprint delMe ih =>
      obtain ⟨hnetwork, hmarks, hhub, hinfo⟩ := ih (tables.deleteHub toUpper fingerprint)
      refine ⟨hnetwork, hmarks, ?_, ?_⟩
      · rw [List.foldl_cons, hhub, deleteHub, PeerWindow.hubPeersTable_deletePeerButtonInfo]
        rfl
      · intro peerId h
        apply hinfo
        rw [List.map_cons, List.mem_cons, or_assoc] at h
        rcases h with hself | hrest | hnone
        · rw [hself]
          exact Or.inr (hubInfo_deleteHub_self tables fingerprint)
        · exact Or.inl hrest
        · exact Or.inr (hubInfo_deleteHub tables fingerprint hnone)

/-! ## The slot -/

/-- What the slot leaves of the tables: the entries of the hub that are reported or marked, and all
entries of the network. -/
structure Updated (toUpper : QString → QString) (hubPeers : List CMyPeerInfo)
    (networkPeers : List (QString × QString)) (tables after : PeerTables) : Prop where
  hub : ∀ fingerprint : QString, after.window.hubPeersTable[fingerprint]? =
    (Sweeping.lastReport (hubPeers.map fun peer => (peer.fingerprint, peer)) fingerprint).or
      (if tables.updated fingerprint = true then tables.window.hubPeersTable[fingerprint]? else none)
  network : ∀ fingerprint : QString, (after.networkPeersTable[fingerprint]?).map Prod.fst =
    (Sweeping.lastReport networkPeers fingerprint).or
      ((tables.networkPeersTable[fingerprint]?).map Prod.fst)
  hubGone : ∀ fingerprint ∈ tables.window.hubPeersTable,
    fingerprint ∉ hubPeers.map CMyPeerInfo.fingerprint → tables.updated fingerprint = false →
      after.hubInfo (toUpper fingerprint) = none

variable {hubPeers : List CMyPeerInfo} {hosts : StdMap QString} {reports : List (QString × QString)}

theorem lastReport_hub_isSome_iff (hubPeers : List CMyPeerInfo) (fingerprint : QString) :
    (Sweeping.lastReport (hubPeers.map fun peer => (peer.fingerprint, peer)) fingerprint).isSome = true ↔
      fingerprint ∈ hubPeers.map CMyPeerInfo.fingerprint :=
  Sweeping.lastReport_map_isSome_iff _ hubPeers fingerprint

/-- What the two loops over the reports leave. -/
structure Reported (hubPeers : List CMyPeerInfo) (networkPeers : List (QString × QString))
    (tables reported : PeerTables) : Prop where
  hub : ∀ fingerprint : QString, reported.window.hubPeersTable[fingerprint]? =
    (Sweeping.lastReport (hubPeers.map fun peer => (peer.fingerprint, peer)) fingerprint).or
      (tables.window.hubPeersTable[fingerprint]?)
  network : reported.networkPeersTable =
    Sweeping.note tables.networkPeersTable (networkPeers.map fun peer => (peer.1, (peer.2, true)))
  updated : ∀ fingerprint, reported.updated fingerprint = true ↔
    fingerprint ∈ hubPeers.map CMyPeerInfo.fingerprint ∨ tables.updated fingerprint = true

theorem reported_foldl (hubPeers : List CMyPeerInfo) (networkPeers : List (QString × QString))
    (tables : PeerTables) :
    Reported hubPeers networkPeers tables
      (networkPeers.foldl (reportNetwork toUpper) (hubPeers.foldl (reportHub toUpper) tables)) := by
  obtain ⟨hhub, hnetwork, hmarks⟩ := @reportHub_foldl toUpper hubPeers tables
  obtain ⟨hhub', hmarks', hnetwork'⟩ :=
    @reportNetwork_foldl toUpper networkPeers (hubPeers.foldl (reportHub toUpper) tables)
  refine ⟨?_, ?_, ?_⟩
  · intro fingerprint
    rw [hhub', hhub, Sweeping.getElem?_note]
  · rw [hnetwork', hnetwork]
  · intro fingerprint
    rw [hmarks', hmarks]

/-- A peer of the hub is collected when it stood in the table before, without a mark, and is not
reported. -/
theorem Reported.mem_hubDisconnectedPeers {reported : PeerTables}
    (h : Reported hubPeers reports tables reported) (fingerprint : QString) :
    fingerprint ∈ reported.hubDisconnectedPeers ↔
      fingerprint ∈ tables.window.hubPeersTable ∧
        fingerprint ∉ hubPeers.map CMyPeerInfo.fingerprint ∧ tables.updated fingerprint = false := by
  rw [PeerTables.mem_hubDisconnectedPeers, Lookups.mem_iff_exists, Lookups.mem_iff_exists, h.hub,
    ← Bool.not_eq_true, h.updated, not_or, Bool.not_eq_true]
  refine and_congr_left fun hstale => ?_
  rw [← lastReport_hub_isSome_iff, Option.not_isSome_iff_eq_none] at hstale
  rw [hstale.1, Option.none_or]

theorem exists_updated (hreports : networkPeers hosts = some reports) (hubPeers : List CMyPeerInfo)
    (tables : PeerTables) :
    ∃ after, tables.myPeersUpdated toUpper hubPeers hosts = some after ∧
      Updated toUpper hubPeers reports tables after := by
  rw [myPeersUpdated, hreports, Option.map_some]
  refine ⟨_, rfl, ?_⟩
  have h := @reported_foldl toUpper hubPeers reports tables
  generalize reports.foldl (reportNetwork toUpper) (hubPeers.foldl (reportHub toUpper) tables) =
    reported at h ⊢
  obtain ⟨hkept, -, hdeleted, hgone⟩ :=
    @deleteHub_foldl toUpper reported.hubDisconnectedPeers reported.clearMarks
  rw [networkPeersTable_clearMarks] at hkept
  have hreported := lastReport_hub_isSome_iff hubPeers
  rw [sweep_eq]
  refine ⟨?_, ?_, ?_⟩
  · intro fingerprint
    have hwindow : reported.clearMarks.window = reported.window := rfl
    rw [hdeleted, Lookups.getElem?_foldl_erase, hwindow, h.hub]
    split
    · rename_i hdel
      rw [h.mem_hubDisconnectedPeers, ← hreported, Option.not_isSome_iff_eq_none] at hdel
      rw [hdel.2.1, hdel.2.2, Option.none_or, if_neg Bool.false_ne_true]
    · rename_i hdel
      rw [h.mem_hubDisconnectedPeers, ← hreported, Option.not_isSome_iff_eq_none] at hdel
      cases hlast : Sweeping.lastReport (hubPeers.map fun peer => (peer.fingerprint, peer)) fingerprint with
      | some peer => rfl
      | none =>
          rw [Option.none_or, Option.none_or]
          split
          · rfl
          · rename_i hmark
            rw [Option.eq_none_iff_forall_ne_some]
            intro peer hat
            have hmem := (Lookups.mem_iff_exists _ _).mpr ⟨peer, hat⟩
            exact hdel ⟨hmem, hlast, Bool.not_eq_true _ ▸ hmark⟩
  · intro fingerprint
    have hlast := Sweeping.lastReport_map (fun address => (address, true)) reports fingerprint
    rw [hkept, h.network, Sweeping.getElem?_note, hlast, Option.map_or, Option.map_map]
    exact congrArg (fun report => Option.or report _) Option.map_id'
  · intro fingerprint hmem hnot hmark
    have hdel := (h.mem_hubDisconnectedPeers fingerprint).mpr ⟨hmem, hnot, hmark⟩
    exact hgone (toUpper fingerprint) (Or.inl (List.mem_map_of_mem hdel))

/-- No entry of a peer that the hub does not report is marked, and every entry of the network is
that of a host. -/
def NothingStale (hubPeers : List CMyPeerInfo) (reports : List (QString × QString))
    (tables : PeerTables) : Prop :=
  (∀ fingerprint ∈ tables.window.hubPeersTable,
      fingerprint ∉ hubPeers.map CMyPeerInfo.fingerprint → tables.updated fingerprint = false) ∧
    ∀ fingerprint ∈ tables.networkPeersTable, fingerprint ∈ reports.map Prod.fst

theorem Updated.hub_of_notMem {after : PeerTables} (h : Updated toUpper hubPeers reports tables after)
    {fingerprint : QString} (hnot : fingerprint ∉ hubPeers.map CMyPeerInfo.fingerprint) :
    after.window.hubPeersTable[fingerprint]? =
      if tables.updated fingerprint = true then tables.window.hubPeersTable[fingerprint]? else none := by
  rw [h.hub, Sweeping.lastReport_map_eq_none hnot, Option.none_or]

theorem Updated.network_of_notMem {after : PeerTables}
    (h : Updated toUpper hubPeers reports tables after) {fingerprint : QString}
    (hnot : fingerprint ∉ reports.map Prod.fst) :
    (after.networkPeersTable[fingerprint]?).map Prod.fst =
      (tables.networkPeersTable[fingerprint]?).map Prod.fst := by
  rw [← Sweeping.lastReport_isSome_iff, Option.not_isSome_iff_eq_none] at hnot
  rw [h.network, hnot, Option.none_or]

theorem nothingStale_of_mirrors {after : PeerTables}
    (h : Updated toUpper hubPeers reports tables after)
    (hmirrors : Mirrors toUpper hubPeers reports tables after) : tables.NothingStale hubPeers reports := by
  refine ⟨?_, ?_⟩
  · intro fingerprint hmem hnot
    obtain ⟨peer, hat⟩ := (Lookups.mem_iff_exists _ _).mp hmem
    have hafter := hmirrors.hub fingerprint
    rw [h.hub_of_notMem hnot, Sweeping.lastReport_map_eq_none hnot] at hafter
    rw [← Bool.not_eq_true]
    intro hmark
    rw [if_pos hmark, hat] at hafter
    exact absurd hafter (Option.some_ne_none peer)
  · intro fingerprint hmem
    by_contra hnot
    obtain ⟨entry, hat⟩ := (Lookups.mem_iff_exists _ _).mp hmem
    have hafter := hmirrors.network fingerprint
    rw [h.network_of_notMem hnot, hat] at hafter
    rw [← Sweeping.lastReport_isSome_iff, ← hafter] at hnot
    exact hnot rfl

theorem mirrors_of_nothingStale {after : PeerTables}
    (h : Updated toUpper hubPeers reports tables after) (hstale : tables.NothingStale hubPeers reports) :
    Mirrors toUpper hubPeers reports tables after := by
  refine ⟨?_, ?_, ?_, ?_⟩
  · intro fingerprint
    by_cases hreported : fingerprint ∈ hubPeers.map CMyPeerInfo.fingerprint
    · obtain ⟨peer, hlast⟩ :=
        Option.isSome_iff_exists.mp ((lastReport_hub_isSome_iff hubPeers fingerprint).mpr hreported)
      rw [h.hub, hlast, Option.some_or]
    · rw [h.hub_of_notMem hreported, Sweeping.lastReport_map_eq_none hreported, ite_eq_right_iff]
      intro hmark
      rw [Option.eq_none_iff_forall_ne_some]
      intro peer hat
      rw [hstale.1 fingerprint ((Lookups.mem_iff_exists _ _).mpr ⟨peer, hat⟩) hreported] at hmark
      exact Bool.false_ne_true hmark
  · intro fingerprint
    rw [h.network]
    cases hlast : Sweeping.lastReport reports fingerprint with
    | some address => rfl
    | none =>
        rw [Option.none_or, Option.map_eq_none_iff, Option.eq_none_iff_forall_ne_some]
        intro entry hat
        have hmem := hstale.2 fingerprint ((Lookups.mem_iff_exists _ _).mpr ⟨entry, hat⟩)
        rw [← Sweeping.lastReport_isSome_iff, hlast] at hmem
        exact Bool.false_ne_true hmem
  · intro fingerprint hmem hnot
    exact h.hubGone fingerprint hmem hnot (hstale.1 fingerprint hmem hnot)
  · intro fingerprint hmem hnot
    exact absurd (hstale.2 fingerprint hmem) hnot

theorem mirrors_iff_nothingStale {after : PeerTables}
    (h : Updated toUpper hubPeers reports tables after) :
    Mirrors toUpper hubPeers reports tables after ↔ tables.NothingStale hubPeers reports :=
  ⟨nothingStale_of_mirrors h, mirrors_of_nothingStale h⟩

/-- The tables are right when the slot returns and nothing in them is stale. -/
theorem right_iff_nothingStale (toUpper : QString → QString) (hubPeers : List CMyPeerInfo)
    (hosts : StdMap QString) (tables : PeerTables) :
    Right toUpper hubPeers hosts tables ↔
      ∃ reports, networkPeers hosts = some reports ∧ tables.NothingStale hubPeers reports := by
  constructor
  · rintro ⟨reports, after, hreports, hafter, hmirrors⟩
    obtain ⟨after', hafter', hupdated⟩ := @exists_updated toUpper hosts reports hreports hubPeers tables
    rw [hafter, Option.some.injEq] at hafter'
    rw [← hafter'] at hupdated
    exact ⟨reports, hreports, (mirrors_iff_nothingStale hupdated).mp hmirrors⟩
  · rintro ⟨reports, hreports, hstale⟩
    obtain ⟨after, hafter, hupdated⟩ := @exists_updated toUpper hosts reports hreports hubPeers tables
    exact ⟨reports, after, hreports, hafter, (mirrors_iff_nothingStale hupdated).mpr hstale⟩

/-! ## Slot after slot -/

/-- A call of the slot with the peers of the hub and the hosts at that time. -/
def step (toUpper : QString → QString) (tables : PeerTables)
    (current : List CMyPeerInfo × StdMap QString) : Option PeerTables :=
  tables.myPeersUpdated toUpper current.1 current.2

def Unmarked (tables : PeerTables) : Prop :=
  ∀ fingerprint ∈ tables.window.hubPeersTable, tables.updated fingerprint = false

theorem unmarked_step {current : List CMyPeerInfo × StdMap QString} {after : PeerTables}
    (hstep : tables.step toUpper current = some after) : after.Unmarked := by
  obtain ⟨reports, -, rfl⟩ := Option.map_eq_some_iff.mp hstep
  generalize reports.foldl (reportNetwork toUpper) (current.1.foldl (reportHub toUpper) tables) = reported
  rw [sweep_eq]
  obtain ⟨-, hmarks, hdeleted, -⟩ :=
    @deleteHub_foldl toUpper reported.hubDisconnectedPeers reported.clearMarks
  intro fingerprint hmem
  rw [hmarks]
  rw [hdeleted, Lookups.mem_foldl_erase] at hmem
  exact updated_clearMarks reported hmem.1

/-- In a run the tables of the hub are right anyway: only a host that goes is missed. -/
theorem eachStep_right_iff (toUpper : QString → QString) (peerFingers : StdMap QString)
    (run : List (List CMyPeerInfo × StdMap QString)) :
    Runs.EachStepPartial (step toUpper)
        (fun tables current => Right toUpper current.1 current.2 tables) (new peerFingers) run ↔
      Runs.EachStepPartial (step toUpper)
        (fun tables current => ∀ reports, networkPeers current.2 = some reports →
          ∀ fingerprint ∈ tables.networkPeersTable, fingerprint ∈ reports.map Prod.fst)
        (new peerFingers) run := by
  refine @Runs.eachStepPartial_congr _ _ (new peerFingers) (step toUpper) Unmarked _ _ ?_ ?_ ?_ run
  · intro fingerprint hmem
    exact absurd hmem Std.ExtTreeMap.not_mem_empty
  · intro tables current after _ hstep
    exact unmarked_step hstep
  · intro tables current hunmarked hreturns
    rw [right_iff_nothingStale]
    constructor
    · rintro ⟨reports, hreports, hstale⟩ reports' hreports'
      rw [hreports, Option.some.injEq] at hreports'
      rw [← hreports']
      exact hstale.2
    · intro hnetwork
      rw [step, myPeersUpdated, Option.isSome_map] at hreturns
      obtain ⟨reports, hreports⟩ := Option.isSome_iff_exists.mp hreturns
      exact ⟨reports, hreports, fun fingerprint hmem _ => hunmarked fingerprint hmem,
        hnetwork reports hreports⟩

/-- To the window a slot is a run of events of the hub and the network. -/
theorem exists_events {current : List CMyPeerInfo × StdMap QString} {after : PeerTables}
    (hstep : tables.step toUpper current = some after) :
    ∃ events : List PeerWindow.Event, (∀ event ∈ events, event.ofMachine = false) ∧
      events.foldlM (PeerWindow.step toUpper) tables.window = some after.window := by
  obtain ⟨reports, -, rfl⟩ := Option.map_eq_some_iff.mp hstep
  rw [sweep_eq]
  have hclear (tables : PeerTables) : tables.clearMarks.window = tables.window := rfl
  generalize hdel : (reports.foldl (reportNetwork toUpper)
    (current.1.foldl (reportHub toUpper) tables)).hubDisconnectedPeers = delMe
  refine ⟨current.1.map .hubUpdate ++ (reports.map .networkUpdate ++ delMe.map .hubDelete), ?_, ?_⟩
  · intro event hmem
    simp only [List.mem_append, List.mem_map] at hmem
    rcases hmem with ⟨_, _, rfl⟩ | ⟨_, _, rfl⟩ | ⟨_, _, rfl⟩ <;> rfl
  · have hhub := @Runs.foldlM_map_of_view _ _ (PeerWindow.step toUpper) _ _ (reportHub toUpper) window
      .hubUpdate (fun _ _ => rfl) current.1 tables
    have hnetwork := @Runs.foldlM_map_of_view _ _ (PeerWindow.step toUpper) _ _ (reportNetwork toUpper)
      window .networkUpdate (fun _ _ => rfl) reports (current.1.foldl (reportHub toUpper) tables)
    have hdelete := @Runs.foldlM_map_of_view _ _ (PeerWindow.step toUpper) _ _ (deleteHub toUpper) window
      .hubDelete (fun _ _ => rfl) delMe
      (reports.foldl (reportNetwork toUpper) (current.1.foldl (reportHub toUpper) tables)).clearMarks
    rw [hclear] at hdelete
    rw [List.foldlM_append, hhub, Option.bind_eq_bind, Option.bind_some, List.foldlM_append, hnetwork,
      Option.bind_eq_bind, Option.bind_some, hdelete]

/-- One host has been found in the network. -/
def oneHost : PeerTables := (new ∅).reportNetwork id ("A1".toList, "10.0.0.7".toList)

/-- The host is gone, and its entry stays. -/
theorem not_right_oneHost : ¬ Right id [] ∅ oneHost := by
  rintro ⟨reports, after, hreports, hafter, hmirrors⟩
  have hnone : networkPeers ∅ = some [] := by decide
  rw [hnone, Option.some.injEq] at hreports
  subst hreports
  obtain ⟨after', hafter', hupdated⟩ := @exists_updated id ∅ [] hnone [] oneHost
  rw [hafter, Option.some.injEq] at hafter'
  rw [← hafter'] at hupdated
  have hstale := ((mirrors_iff_nothingStale hupdated).mp hmirrors).2 "A1".toList
  exact absurd (hstale ((Lookups.mem_insert _ _ _ _).mpr (Or.inl rfl))) List.not_mem_nil

end PeerTables

end SubutaiTray.Peer
