import SubutaiTray.Peer.PeerTables
import SubutaiTray.Qt.PlaceMarkers

/-!
What the tray tells about the peers of the hub (`my_peers_updated_sl`): which are online or offline
now, and which the hub does not list any more.
-/
namespace SubutaiTray.Peer

/-- The texts to which the slot appends the names. -/
structure PeerMessages where
  msgDisconnected : QString := []
  msgOnline : QString := []
  msgOffline : QString := []

namespace PeerMessages

def appendName (msg name : QString) : QString := msg ++ ", ".toList ++ name

/-- For a peer that is new or has got another status. -/
def tellStatus (messages : PeerMessages) (peer : CMyPeerInfo) : PeerMessages :=
  if peer.status = "ONLINE".toList then
    { messages with msgOnline := appendName messages.msgOnline peer.name }
  else { messages with msgOffline := appendName messages.msgOffline peer.name }

/-- The text of a notification, in which the first comma is left out. -/
def notification (msg state : QString) : Option QString :=
  if msg.isEmpty then none
  else
    let msg := msg.drop 2
    let verb := if ", ".toList <:+: msg then "are".toList else "is".toList
    some (multiArg ("%1 %2 ".toList ++ state) [msg, verb])

def notifications (messages : PeerMessages) : List QString :=
  [notification messages.msgOnline "online".toList, notification messages.msgOffline "offline".toList,
    notification messages.msgDisconnected "disconnected".toList].reduceOption

end PeerMessages

namespace PeerTables

/-- The turn of a peer of the hub. -/
def noteHub (toUpper : QString → QString) (state : PeerTables × PeerMessages) (peer : CMyPeerInfo) :
    PeerTables × PeerMessages :=
  (state.1.reportHub toUpper peer,
    match state.1.window.hubPeersTable[peer.fingerprint]? with
    | none => state.2.tellStatus peer
    | some known => if known.status ≠ peer.status then state.2.tellStatus peer else state.2)

/-- The entries without a mark, which the loop over the table collects. -/
def disconnected (tables : PeerTables) : List CMyPeerInfo :=
  ((entriesFrom 0 tables.window.hubPeersTable).filter fun entry => !tables.updated entry.1).map Prod.snd

def tellDisconnected (tables : PeerTables) (messages : PeerMessages) : PeerMessages :=
  { messages with
    msgDisconnected := tables.disconnected.foldl (fun msg peer => PeerMessages.appendName msg peer.name)
      messages.msgDisconnected }

/-- The slot with the notifications that it shows. -/
def announcePeers (toUpper : QString → QString) (hubPeers : List CMyPeerInfo) (hosts : StdMap QString)
    (tables : PeerTables) : Option (PeerTables × List QString) :=
  (networkPeers hosts).map fun networkPeers =>
    let (tables, messages) := hubPeers.foldl (noteHub toUpper) (tables, {})
    let tables := networkPeers.foldl (reportNetwork toUpper) tables
    (tables.sweep toUpper, (tables.tellDisconnected messages).notifications)

/-! ## What is to be told -/

/-- What was last told of the peer. -/
def lastTold (told : List CMyPeerInfo) (fingerprint : QString) : Option CMyPeerInfo :=
  Sweeping.lastReport (told.map fun peer => (peer.fingerprint, peer)) fingerprint

/-- The peers of which another status was told before, or nothing. -/
def changed (told : List CMyPeerInfo) : List CMyPeerInfo → List CMyPeerInfo
  | [] => []
  | peer :: peers =>
      if (lastTold told peer.fingerprint).map CMyPeerInfo.status = some peer.status then
        changed (told ++ [peer]) peers
      else peer :: changed (told ++ [peer]) peers

/-- The peers that are not listed any more, in the order of their fingerprints. -/
structure Gone (told hubPeers gone : List CMyPeerInfo) : Prop where
  ordered : gone.Pairwise fun peer other => compare peer.fingerprint other.fingerprint = .lt
  mem_iff : ∀ peer, peer ∈ gone ↔
    lastTold told peer.fingerprint = some peer ∧ peer.fingerprint ∉ hubPeers.map CMyPeerInfo.fingerprint

/-- A sentence about peers, if there are any. -/
def notice (peers : List CMyPeerInfo) (state : QString) : Option QString :=
  if peers = [] then none
  else
    some
      (", ".toList.intercalate (peers.map CMyPeerInfo.name) ++
        (if 1 < peers.length ∨ ∃ peer ∈ peers, ", ".toList <:+: peer.name then " are ".toList
          else " is ".toList) ++ state)

end PeerTables

/-! ## The texts -/

namespace PeerMessages

/-- The names as they are appended. -/
def appended (peers : List CMyPeerInfo) : QString :=
  peers.flatMap fun peer => ", ".toList ++ peer.name

theorem appended_cons (peer : CMyPeerInfo) (peers : List CMyPeerInfo) :
    appended (peer :: peers) = ", ".toList ++ peer.name ++ appended peers := rfl

theorem foldl_appendName (peers : List CMyPeerInfo) (msg : QString) :
    peers.foldl (fun msg peer => appendName msg peer.name) msg = msg ++ appended peers := by
  induction peers generalizing msg with
  | nil => exact (List.append_nil msg).symm
  | cons peer peers ih =>
      rw [List.foldl_cons, ih, appendName, appended_cons]
      simp only [List.append_assoc]

theorem appended_eq (peer : CMyPeerInfo) (peers : List CMyPeerInfo) :
    appended (peer :: peers) =
      ", ".toList ++ ", ".toList.intercalate ((peer :: peers).map CMyPeerInfo.name) := by
  induction peers generalizing peer with
  | nil => simp [appended]
  | cons other peers ih =>
      rw [appended_cons, ih other]
      simp only [List.map_cons, List.intercalate_cons_cons, List.append_assoc]

theorem infix_intercalate_iff (peer : CMyPeerInfo) (peers : List CMyPeerInfo) :
    ", ".toList <:+: ", ".toList.intercalate ((peer :: peers).map CMyPeerInfo.name) ↔
      1 < (peer :: peers).length ∨ ∃ found ∈ peer :: peers, ", ".toList <:+: found.name := by
  cases peers with
  | nil => simp
  | cons other peers =>
      rw [List.map_cons, List.map_cons, List.intercalate_cons_cons]
      refine iff_of_true ?_ (Or.inl (by simp))
      rw [List.append_assoc]
      exact ⟨peer.name, _, List.append_assoc _ _ _⟩

/-- `arg` with both texts: names with place markers of their own do no harm. -/
theorem multiArg_states (msg verb : QString) :
    ∀ state ∈ ["online".toList, "offline".toList, "disconnected".toList],
      multiArg ("%1 %2 ".toList ++ state) [msg, verb] = msg ++ " ".toList ++ verb ++ " ".toList ++ state := by
  simp only [List.forall_mem_cons, List.append_assoc]
  exact ⟨rfl, rfl, rfl, List.forall_mem_nil _⟩

theorem notification_appended (peers : List CMyPeerInfo) {state : QString}
    (hstate : state ∈ ["online".toList, "offline".toList, "disconnected".toList]) :
    notification (appended peers) state = PeerTables.notice peers state := by
  cases peers with
  | nil => rfl
  | cons peer peers =>
      have hfirst (names : QString) : (", ".toList ++ names).drop 2 = names := rfl
      have hnonempty : (appended (peer :: peers)).isEmpty ≠ true := Bool.false_ne_true
      rw [notification, PeerTables.notice, if_neg (List.cons_ne_nil peer peers), if_neg hnonempty, appended_eq]
      dsimp only
      rw [multiArg_states _ _ state hstate, hfirst]
      simp only [infix_intercalate_iff]
      split
      · simp only [List.append_assoc]
        rfl
      · simp only [List.append_assoc]
        rfl

/-- Only the peers that are online are told under that. -/
def tells (messages : PeerMessages) (peers : List CMyPeerInfo) : PeerMessages :=
  { messages with
    msgOnline := messages.msgOnline ++ appended (peers.filter fun peer => peer.status = "ONLINE".toList)
    msgOffline := messages.msgOffline ++ appended (peers.filter fun peer => peer.status ≠ "ONLINE".toList) }

theorem tells_cons (messages : PeerMessages) (peer : CMyPeerInfo) (peers : List CMyPeerInfo) :
    messages.tells (peer :: peers) = (messages.tellStatus peer).tells peers := by
  rw [tells, tells, tellStatus]
  generalize "ONLINE".toList = online
  by_cases honline : peer.status = online
  · simp [honline, appendName, appended_cons]
  · simp [honline, appendName, appended_cons]

theorem tells_nil (messages : PeerMessages) : messages.tells [] = messages := by
  simp [tells, appended]

end PeerMessages

/-! ## A call -/

namespace PeerTables

variable {toUpper : QString → QString} {tables : PeerTables} {told : List CMyPeerInfo}

/-- The table of the hub has of each peer what was last told of it, and no marks. -/
structure Follows (told : List CMyPeerInfo) (tables : PeerTables) : Prop where
  last : ∀ fingerprint : QString, tables.window.hubPeersTable[fingerprint]? = lastTold told fingerprint
  unmarked : tables.Unmarked

theorem noteHub_foldl (hubPeers : List CMyPeerInfo) (messages : PeerMessages)
    (h : ∀ fingerprint : QString, tables.window.hubPeersTable[fingerprint]? = lastTold told fingerprint) :
    hubPeers.foldl (noteHub toUpper) (tables, messages) =
      (hubPeers.foldl (reportHub toUpper) tables, messages.tells (changed told hubPeers)) := by
  induction hubPeers generalizing told tables messages with
  | nil => rw [changed, PeerMessages.tells_nil]; rfl
  | cons peer hubPeers ih =>
      have hnext (fingerprint : QString) : (tables.reportHub toUpper peer).window.hubPeersTable[fingerprint]? =
          lastTold (told ++ [peer]) fingerprint := by
        rw [reportHub, PeerWindow.hubPeersTable_updateHubButton, Lookups.getElem?_insert, h, lastTold,
          lastTold, List.map_append, List.map_singleton, Sweeping.lastReport_concat]
      rw [List.foldl_cons, List.foldl_cons, changed, noteHub, ih _ hnext]
      dsimp only
      rw [h]
      cases lastTold told peer.fingerprint with
      | none => simp [PeerMessages.tells_cons]
      | some known =>
          by_cases hstatus : known.status = peer.status
          · simp [hstatus]
          · simp [hstatus, PeerMessages.tells_cons]

theorem mem_disconnected (tables : PeerTables) (peer : CMyPeerInfo) :
    peer ∈ tables.disconnected ↔ tables.window.hubPeersTable[peer.fingerprint]? = some peer ∧
      tables.updated peer.fingerprint = false := by
  rw [disconnected, entriesFrom, List.drop_zero, List.mem_map]
  constructor
  · rintro ⟨⟨key, found⟩, hmem, rfl⟩
    rw [List.mem_filter, Std.ExtTreeMap.mem_toList_iff_getElem?_eq_some] at hmem
    dsimp only
    rw [tables.keyed key found hmem.1]
    exact ⟨hmem.1, by simpa using hmem.2⟩
  · rintro ⟨hat, hmark⟩
    refine ⟨(peer.fingerprint, peer), ?_, rfl⟩
    rw [List.mem_filter, Std.ExtTreeMap.mem_toList_iff_getElem?_eq_some]
    exact ⟨hat, by simpa using hmark⟩

theorem ordered_disconnected (tables : PeerTables) :
    tables.disconnected.Pairwise fun peer other => compare peer.fingerprint other.fingerprint = .lt := by
  have hkeys := @Std.ExtTreeMap.ordered_keys_toList QString CMyPeerInfo compare
    tables.window.hubPeersTable _
  rw [disconnected, entriesFrom, List.drop_zero, List.pairwise_map]
  refine (hkeys.filter _).imp_of_mem ?_
  intro entry other hentry hother hlt
  rw [List.mem_filter, Std.ExtTreeMap.mem_toList_iff_getElem?_eq_some] at hentry hother
  rw [tables.keyed _ _ hentry.1, tables.keyed _ _ hother.1]
  exact hlt

/-- What the loop over the table collects are the peers that were told before and are not listed. -/
theorem gone_disconnected (h : tables.Follows told) (hubPeers : List CMyPeerInfo)
    (networkPeers : List (QString × QString)) :
    Gone told hubPeers
      (networkPeers.foldl (reportNetwork toUpper) (hubPeers.foldl (reportHub toUpper) tables)).disconnected := by
  have hreported := @reported_foldl toUpper hubPeers networkPeers tables
  generalize networkPeers.foldl (reportNetwork toUpper) (hubPeers.foldl (reportHub toUpper) tables) =
    reported at hreported ⊢
  refine ⟨ordered_disconnected reported, ?_⟩
  intro peer
  rw [mem_disconnected, ← Bool.not_eq_true, hreported.updated, not_or, hreported.hub, ← h.last]
  constructor
  · rintro ⟨hat, hnot, -⟩
    rw [Sweeping.lastReport_map_eq_none hnot, Option.none_or] at hat
    exact ⟨hat, hnot⟩
  · rintro ⟨hat, hnot⟩
    have hmark := h.unmarked peer.fingerprint ((Lookups.mem_iff_exists _ _).mpr ⟨peer, hat⟩)
    rw [Sweeping.lastReport_map_eq_none hnot, Option.none_or, hmark]
    exact ⟨hat, hnot, Bool.false_ne_true⟩

/-- The notifications of a call, when the table is that of the peers that were told. -/
theorem exists_announcePeers (h : tables.Follows told) (hubPeers : List CMyPeerInfo)
    (hosts : StdMap QString) :
    ∃ gone, Gone told hubPeers gone ∧
      tables.announcePeers toUpper hubPeers hosts =
        (tables.myPeersUpdated toUpper hubPeers hosts).map fun after => (after,
          [notice ((changed told hubPeers).filter fun peer => peer.status = "ONLINE".toList) "online".toList,
            notice ((changed told hubPeers).filter fun peer => peer.status ≠ "ONLINE".toList) "offline".toList,
            notice gone "disconnected".toList].reduceOption) := by
  refine ⟨_, @gone_disconnected toUpper tables told h hubPeers ((networkPeers hosts).getD []), ?_⟩
  rw [announcePeers, myPeersUpdated, noteHub_foldl hubPeers {} h.last]
  cases networkPeers hosts with
  | none => rfl
  | some networkPeers =>
      rw [Option.map_some, Option.map_some, Option.map_some, Option.getD_some]
      dsimp only
      rw [PeerMessages.notifications, tellDisconnected, PeerMessages.tells]
      dsimp only
      rw [PeerMessages.foldl_appendName, List.nil_append, List.nil_append, List.nil_append,
        PeerMessages.notification_appended _ (by decide), PeerMessages.notification_appended _ (by decide),
        PeerMessages.notification_appended _ (by decide)]

theorem follows_step {current : List CMyPeerInfo × StdMap QString} {after : PeerTables}
    (h : tables.Unmarked) (hstep : tables.step toUpper current = some after) : after.Follows current.1 := by
  refine ⟨?_, unmarked_step hstep⟩
  obtain ⟨reports, hreports, -⟩ := Option.map_eq_some_iff.mp hstep
  obtain ⟨after', hafter, hupdated⟩ := @exists_updated toUpper current.2 reports hreports current.1 tables
  rw [← Option.some.inj (hstep.symm.trans hafter)] at hupdated
  intro fingerprint
  have hnone : (if tables.updated fingerprint = true then tables.window.hubPeersTable[fingerprint]?
      else none) = none := by
    rw [ite_eq_right_iff]
    intro hmark
    cases hat : tables.window.hubPeersTable[fingerprint]? with
    | none => rfl
    | some peer =>
        have hunmarked := h fingerprint ((Lookups.mem_iff_exists _ _).mpr ⟨peer, hat⟩)
        rw [hmark] at hunmarked
        exact absurd hunmarked.symm Bool.false_ne_true
  rw [hupdated.hub, hnone, Option.or_none]
  rfl

/-- The peers of the last call. -/
def toldBy (updates : List (List CMyPeerInfo × StdMap QString)) : List CMyPeerInfo :=
  (updates.getLast?.map Prod.fst).getD []

theorem follows_run {peerFingers : StdMap QString} {updates : List (List CMyPeerInfo × StdMap QString)}
    (hrun : updates.foldlM (step toUpper) (new peerFingers) = some tables) :
    tables.Follows (toldBy updates) := by
  induction updates using List.reverseRecOn generalizing tables with
  | nil =>
      rw [← Option.some.inj hrun]
      refine ⟨?_, ?_⟩
      · exact fun fingerprint => Std.ExtTreeMap.getElem?_empty
      · exact fun fingerprint hmem => absurd hmem Std.ExtTreeMap.not_mem_empty
  | append_singleton updates current ih =>
      rw [Runs.foldlM_concat] at hrun
      obtain ⟨before, hbefore, hstep⟩ := Option.bind_eq_some_iff.mp hrun
      rw [toldBy, List.getLast?_concat]
      exact follows_step (ih hbefore).unmarked hstep

/-- After any calls a call tells of the peers whose status is another than in the call before, under
the status that they have, and of those that are not listed any more. -/
theorem exists_announcePeers_run (peerFingers : StdMap QString)
    (updates : List (List CMyPeerInfo × StdMap QString))
    (hrun : updates.foldlM (step toUpper) (new peerFingers) = some tables)
    (hubPeers : List CMyPeerInfo) (hosts : StdMap QString) :
    ∃ gone, Gone (toldBy updates) hubPeers gone ∧
      tables.announcePeers toUpper hubPeers hosts =
        (tables.myPeersUpdated toUpper hubPeers hosts).map fun after => (after,
          [notice ((changed (toldBy updates) hubPeers).filter fun peer => peer.status = "ONLINE".toList)
              "online".toList,
            notice ((changed (toldBy updates) hubPeers).filter fun peer => peer.status ≠ "ONLINE".toList)
              "offline".toList,
            notice gone "disconnected".toList].reduceOption) :=
  exists_announcePeers (follows_run hrun) hubPeers hosts

def officePeer : CMyPeerInfo where
  fingerprint := "A1".toList
  name := "office".toList
  status := "ONLINE".toList

theorem exists_announcePeers_run_office :
    [([officePeer], (∅ : StdMap QString))].foldlM (step id) (new ∅) =
        some (((new ∅).reportHub id officePeer).sweep id) ∧
      ∃ gone, Gone (toldBy [([officePeer], ∅)]) [] gone ∧
        (((new ∅).reportHub id officePeer).sweep id).announcePeers id [] ∅ =
          ((((new ∅).reportHub id officePeer).sweep id).myPeersUpdated id [] ∅).map fun after => (after,
            [notice ((changed (toldBy [([officePeer], ∅)]) []).filter
                fun peer => peer.status = "ONLINE".toList) "online".toList,
              notice ((changed (toldBy [([officePeer], ∅)]) []).filter
                fun peer => peer.status ≠ "ONLINE".toList) "offline".toList,
              notice gone "disconnected".toList].reduceOption) :=
  ⟨rfl, exists_announcePeers_run ∅ [([officePeer], ∅)] rfl [] ∅⟩

end PeerTables

end SubutaiTray.Peer
