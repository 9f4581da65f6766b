import SubutaiTray.Library.Runs
import SubutaiTray.Peer.Effects

/-!
The table of the peer buttons with everything that may go wrong in `update_peer_icon`: the button
is looked up, the icon comes from an array, and the peer of the network is dereferenced.

Whatever is called, a button stands in the table as long as one of its three parts is known.
-/
namespace SubutaiTray.Peer

/-- The argument of the three `update_peer_button`. -/
inductive PeerReport where
  | ofMachine (peer : CLocalPeer)
  | ofHub (peer : CMyPeerInfo)
  | ofNetwork (peer : QString × QString)
  deriving DecidableEq

/-- An array of icons is filled up with icons that show nothing. -/
inductive PeerIcon where
  | online
  | offline
  | unknown
  | localHub
  | localNetwork
  | machineOff
  | null
  deriving DecidableEq

def PeerReport.part : PeerReport → ButtonPart
  | .ofMachine _ => .ofMachine
  | .ofHub _ => .ofHub
  | .ofNetwork _ => .ofNetwork

def PeerReport.name : PeerReport → QString
  | .ofMachine peer => peer.name
  | .ofHub peer => peer.name
  | .ofNetwork peer => peer.2

namespace MyPeerButton

def info (button : MyPeerButton) : ButtonPart → Option PeerReport
  | .ofMachine => button.localPeer.map .ofMachine
  | .ofHub => button.hubPeer.map .ofHub
  | .ofNetwork => button.networkPeer.map .ofNetwork

def state (button : MyPeerButton) : ButtonPart → Nat
  | .ofMachine => button.localPeerState
  | .ofHub => button.hubPeerState
  | .ofNetwork => button.networkPeerState

/-- The button as `update_peer_button` hands it to `update_peer_icon`. -/
def withReport (button : MyPeerButton) : PeerReport → MyPeerButton
  | .ofMachine peer =>
      { button with
        localPeer := some peer
        localPeerState := PeerWindow.localPeerState peer
        peerName := if button.hubPeer = none then peer.name else button.peerName }
  | .ofHub peer =>
      { button with
        hubPeer := some peer
        hubPeerState := if peer.status = "ONLINE".toList then 1 else 2
        peerName := peer.name }
  | .ofNetwork peer =>
      { button with
        networkPeer := some peer
        networkPeerState := 1
        peerName :=
          if button.hubPeerState = 0 ∧ button.localPeerState = 0 then peer.2 else button.peerName }

def mapIcons : List (List (List PeerIcon)) :=
  [[[.unknown, .localNetwork, .machineOff, .unknown],
    [.online, .localHub, .machineOff, .unknown],
    [.offline, .localHub, .machineOff, .unknown]],
   [[.localNetwork, .localNetwork, .machineOff, .unknown],
    [.localHub, .localHub, .machineOff, .unknown],
    [.localHub, .localNetwork, .machineOff, .null]]]

/-- `none` is an index outside of the array. -/
def icon (button : MyPeerButton) : Option PeerIcon :=
  (mapIcons[button.networkPeerState]?).bind fun rows =>
    (rows[button.hubPeerState]?).bind fun row => row[button.localPeerState]?

/-- The pointers and the states of a button agree, and the states are indices of `map_icons`. -/
structure InOrder (button : MyPeerButton) : Prop where
  states : ∀ part, button.state part ≠ 0 ↔ (button.info part).isSome = true
  network : button.networkPeerState < 2
  hub : button.hubPeerState < 3
  machine : button.localPeerState < 4

end MyPeerButton

/-- The `switch` of `delete_peer_button_info`. -/
def partOfType (type : Int) : Option ButtonPart :=
  if type = 0 then some .ofMachine
  else if type = 1 then some .ofHub
  else if type = 2 then some .ofNetwork
  else none

/-- The window with the icons of the buttons. -/
structure ButtonTable where
  window : PeerWindow
  icons : StdMap PeerIcon

/-- Between the calls the window may get another `hub_peers_table`. -/
inductive ButtonCall where
  | updatePeerButton (peerId : QString) (report : PeerReport)
  | deletePeerButtonInfo (peerId : QString) (type : Int)
  | setHubPeers (hubPeersTable : StdMap CMyPeerInfo)

namespace ButtonTable

def new (peerFingers : StdMap QString) : ButtonTable where
  window := PeerWindow.new peerFingers
  icons := ∅

/-- `none`: no button, an index outside of the array, or a null pointer. -/
def updatePeerIcon (peerId : QString) (table : ButtonTable) : Option ButtonTable :=
  (table.window.myPeersButtonTable[peerId]?).bind fun button =>
    button.icon.bind fun icon =>
      if button.localPeerState = 0 ∧ button.hubPeerState = 0 then
        if button.networkPeerState = 0 then
          some
            { window := { table.window with
                myPeersButtonTable := table.window.myPeersButtonTable.erase peerId }
              icons := table.icons.erase peerId }
        else
          button.networkPeer.map fun networkPeer =>
            { window := table.window.setButton peerId { button with peerName := networkPeer.2 }
              icons := table.icons.insert peerId icon }
      else some { table with icons := table.icons.insert peerId icon }

def updatePeerButton (peerId : QString) (report : PeerReport) (table : ButtonTable) :
    Option ButtonTable :=
  { table with
    window := table.window.setButton peerId
      ((table.window.button peerId report.name).withReport report) }.updatePeerIcon peerId

def deletePeerButtonInfo (peerId : QString) (type : Int) (table : ButtonTable) :
    Option ButtonTable :=
  match table.window.myPeersButtonTable[peerId]? with
  | none => some table
  | some button =>
      ({ table with
        window := table.window.setButton peerId
          ((partOfType type).elim button fun part => button.without part) }.updatePeerIcon
        peerId).map fun after : ButtonTable =>
          if type = 0 ∧ button.backupNames.1 ≠ peerId ∧ after.window.hubPeersTable[peerId]? = none then
            { after with window := after.window.setPeerFinger button.backupNames.2 [] }
          else after

def step (table : ButtonTable) : ButtonCall → Option ButtonTable
  | .updatePeerButton peerId report => table.updatePeerButton peerId report
  | .deletePeerButtonInfo peerId type => table.deletePeerButtonInfo peerId type
  | .setHubPeers hubPeersTable =>
      some { table with window := { table.window with hubPeersTable := hubPeersTable } }

end ButtonTable

/-! ## What is known of a peer -/

variable {button : MyPeerButton}

namespace MyPeerButton

theorem icon_isSome (h : button.InOrder) : button.icon.isSome = true := by
  have hicons : ∀ network < 2, ∀ hub < 3, ∀ machine < 4,
      ((mapIcons[network]?).bind fun rows =>
        (rows[hub]?).bind fun row => row[machine]?).isSome = true := by decide
  exact hicons _ h.network _ h.hub _ h.machine

theorem inOrder_new (peerId peerName : QString) : (new peerId peerName).InOrder := by
  refine ⟨?_, ?_, ?_, ?_⟩
  · intro part
    cases part <;> simp [new, state, info]
  · exact Nat.zero_lt_two
  · exact Nat.zero_lt_succ 2
  · exact Nat.zero_lt_succ 3

theorem info_withReport (button : MyPeerButton) (report : PeerReport) (part : ButtonPart) :
    (button.withReport report).info part =
      if report.part = part then some report else button.info part := by
  cases report <;> cases part <;> rfl

theorem info_without (button : MyPeerButton) (part other : ButtonPart) :
    (button.without part).info other = if part = other then none else button.info other := by
  cases part <;> cases other <;> rfl

theorem state_withReport_of_ne {report : PeerReport} {part : ButtonPart} (h : report.part ≠ part) :
    (button.withReport report).state part = button.state part := by
  cases report <;> cases part <;> first | rfl | exact absurd rfl h

theorem state_without (button : MyPeerButton) (part other : ButtonPart) :
    (button.without part).state other = if part = other then 0 else button.state other := by
  cases part <;> cases other <;> rfl

theorem localPeerState_bounds (peer : CLocalPeer) :
    PeerWindow.localPeerState peer ≠ 0 ∧ PeerWindow.localPeerState peer < 4 := by
  rw [PeerWindow.localPeerState]
  split
  · split
    · decide
    · split <;> decide
  · decide

theorem hubPeerState_bounds (peer : CMyPeerInfo) :
    (if peer.status = "ONLINE".toList then 1 else 2) ≠ 0 ∧
      (if peer.status = "ONLINE".toList then 1 else 2) < 3 := by
  split <;> decide

theorem state_withReport_self (button : MyPeerButton) (report : PeerReport) :
    (button.withReport report).state report.part ≠ 0 := by
  cases report with
  | ofMachine peer => exact (localPeerState_bounds peer).1
  | ofHub peer => exact (hubPeerState_bounds peer).1
  | ofNetwork peer => exact Nat.one_ne_zero

theorem inOrder_withReport (h : button.InOrder) (report : PeerReport) :
    (button.withReport report).InOrder := by
  refine ⟨?_, ?_, ?_, ?_⟩
  · intro part
    rw [info_withReport]
    split
    · rename_i hpart
      rw [← hpart]
      exact iff_of_true (state_withReport_self button report) rfl
    · rename_i hpart
      rw [state_withReport_of_ne hpart]
      exact h.states part
  · cases report with
    | ofMachine | ofHub => exact h.network
    | ofNetwork => exact Nat.one_lt_two
  · cases report with
    | ofMachine | ofNetwork => exact h.hub
    | ofHub peer => exact (hubPeerState_bounds peer).2
  · cases report with
    | ofMachine peer => exact (localPeerState_bounds peer).2
    | ofHub | ofNetwork => exact h.machine

theorem inOrder_without (h : button.InOrder) (part : ButtonPart) : (button.without part).InOrder := by
  refine ⟨?_, ?_, ?_, ?_⟩
  · intro other
    rw [state_without, info_without]
    split
    · exact iff_of_false (not_not.mpr rfl) Bool.false_ne_true
    · exact h.states other
  · cases part with
    | ofMachine | ofHub => exact h.network
    | ofNetwork => exact Nat.zero_lt_two
  · cases part with
    | ofMachine | ofNetwork => exact h.hub
    | ofHub => exact Nat.zero_lt_succ 2
  · cases part with
    | ofMachine => exact Nat.zero_lt_succ 3
    | ofHub | ofNetwork => exact h.machine

end MyPeerButton

namespace ButtonCall

/-- The call reports or deletes this part of the peer. -/
def about (peerId : QString) (part : ButtonPart) : ButtonCall → Bool
  | .updatePeerButton id report => decide (id = peerId ∧ report.part = part)
  | .deletePeerButtonInfo id type => decide (id = peerId ∧ partOfType type = some part)
  | .setHubPeers _ => false

def report : ButtonCall → Option PeerReport
  | .updatePeerButton _ report => some report
  | .deletePeerButtonInfo _ _ | .setHubPeers _ => none

end ButtonCall

/-- The last report of a part, if the part was not deleted after it. -/
def reported (calls : List ButtonCall) (peerId : QString) (part : ButtonPart) : Option PeerReport :=
  (calls.filter (ButtonCall.about peerId part)).getLast?.bind ButtonCall.report

theorem reported_concat (calls : List ButtonCall) (call : ButtonCall) (peerId : QString)
    (part : ButtonPart) :
    reported (calls ++ [call]) peerId part =
      if call.about peerId part = true then call.report else reported calls peerId part := by
  rw [reported, reported, List.filter_append, List.filter_singleton]
  by_cases habout : call.about peerId part = true
  · simp [habout]
  · simp [habout]

namespace ButtonTable

/-- A button for the peers of which something is known, and on it just that. -/
structure Right (calls : List ButtonCall) (table : ButtonTable) : Prop where
  mem_iff : ∀ peerId, peerId ∈ table.window.myPeersButtonTable ↔
    ∃ part, (reported calls peerId part).isSome = true
  info : ∀ (peerId : QString) (button : MyPeerButton),
    table.window.myPeersButtonTable[peerId]? = some button →
      ∀ part, button.info part = reported calls peerId part
  inOrder : ∀ (peerId : QString) (button : MyPeerButton),
    table.window.myPeersButtonTable[peerId]? = some button → button.InOrder
  icon : ∀ peerId : QString, table.icons[peerId]? =
    (table.window.myPeersButtonTable[peerId]?).bind MyPeerButton.icon

variable {table : ButtonTable} {peerId : QString}

/-- What `update_peer_icon` does to the table. -/
structure Refreshed (peerId : QString) (button : MyPeerButton) (table after : ButtonTable) : Prop where
  mem_iff : peerId ∈ after.window.myPeersButtonTable ↔ ∃ part, (button.info part).isSome = true
  info : ∀ button' : MyPeerButton, after.window.myPeersButtonTable[peerId]? = some button' →
    button'.info = button.info ∧ button'.InOrder
  icon : after.icons[peerId]? = (after.window.myPeersButtonTable[peerId]?).bind MyPeerButton.icon
  buttons : ∀ other : QString, other ≠ peerId →
    after.window.myPeersButtonTable[other]? = table.window.myPeersButtonTable[other]?
  icons : ∀ other : QString, other ≠ peerId → after.icons[other]? = table.icons[other]?

/-- The button stays, perhaps with another name, and gets an icon. -/
theorem refreshed_of_stays {button' : MyPeerButton} {icon : PeerIcon} {after : ButtonTable}
    (hknown : ∃ part, (button.info part).isSome = true) (hinfo : button'.info = button.info)
    (hinOrder : button'.InOrder) (hicon : button'.icon = some icon)
    (hat : after.window.myPeersButtonTable[peerId]? = some button')
    (hothers : ∀ other : QString, other ≠ peerId →
      after.window.myPeersButtonTable[other]? = table.window.myPeersButtonTable[other]?)
    (hicons : after.icons = table.icons.insert peerId icon) : Refreshed peerId button table after := by
  refine ⟨?_, ?_, ?_, hothers, ?_⟩
  · rw [Lookups.mem_iff_exists]
    exact iff_of_true ⟨button', hat⟩ hknown
  · intro found hfound
    rw [hat, Option.some.injEq] at hfound
    rw [← hfound]
    exact ⟨hinfo, hinOrder⟩
  · rw [hicons, Lookups.getElem?_insert_self, hat, Option.bind_some, hicon]
  · intro other hother
    rw [hicons]
    exact Lookups.getElem?_insert_of_ne _ hother _

theorem refreshed_of_goes (hunknown : ∀ part, (button.info part).isSome = false) :
    Refreshed peerId button table
      { window := { table.window with
          myPeersButtonTable := table.window.myPeersButtonTable.erase peerId }
        icons := table.icons.erase peerId } := by
  have hgone {V : Type} (entries : StdMap V) : (entries.erase peerId)[peerId]? = none := by
    rw [Lookups.getElem?_erase, if_pos rfl]
  have hkept {V : Type} (entries : StdMap V) (other : QString) (hother : other ≠ peerId) :
      (entries.erase peerId)[other]? = entries[other]? := by
    rw [Lookups.getElem?_erase, if_neg hother]
  refine ⟨?_, ?_, ?_, fun other hother => hkept _ other hother, fun other hother => hkept _ other hother⟩
  · refine iff_of_false (fun hmem => ((Lookups.mem_erase _ _ _).mp hmem).1 rfl) ?_
    rintro ⟨part, hpart⟩
    rw [hunknown part] at hpart
    exact Bool.false_ne_true hpart
  · intro found hfound
    dsimp only at hfound
    rw [hgone] at hfound
    exact absurd hfound.symm (Option.some_ne_none found)
  · dsimp only
    rw [hgone, hgone, Option.bind_none]

/-- In order, a button is refreshed without an error: if neither the machine nor the hub knows the
peer, the network does, or the button goes. -/
theorem exists_refreshed (hfound : table.window.myPeersButtonTable[peerId]? = some button)
    (h : button.InOrder) :
    ∃ after, table.updatePeerIcon peerId = some after ∧ Refreshed peerId button table after := by
  obtain ⟨icon, hicon⟩ := Option.isSome_iff_exists.mp (MyPeerButton.icon_isSome h)
  have hmachine : button.localPeerState ≠ 0 ↔ (button.info .ofMachine).isSome = true := h.states .ofMachine
  have hhub : button.hubPeerState ≠ 0 ↔ (button.info .ofHub).isSome = true := h.states .ofHub
  have hnetwork : button.networkPeerState ≠ 0 ↔ (button.info .ofNetwork).isSome = true :=
    h.states .ofNetwork
  rw [updatePeerIcon, hfound, Option.bind_some, hicon, Option.bind_some]
  split
  · rename_i hunknown
    split
    · rename_i hgone
      refine ⟨_, rfl, refreshed_of_goes ?_⟩
      intro part
      rw [← Bool.not_eq_true]
      cases part with
      | ofMachine => exact fun hpart => hmachine.mpr hpart hunknown.1
      | ofHub => exact fun hpart => hhub.mpr hpart hunknown.2
      | ofNetwork => exact fun hpart => hnetwork.mpr hpart hgone
    · rename_i hknown
      have hpart := hnetwork.mp hknown
      have hsome : button.networkPeer.isSome = true := by
        rw [MyPeerButton.info, Option.isSome_map] at hpart
        exact hpart
      obtain ⟨networkPeer, hpeer⟩ := Option.isSome_iff_exists.mp hsome
      refine ⟨_, Option.map_eq_some_iff.mpr ⟨networkPeer, hpeer, rfl⟩, ?_⟩
      refine @refreshed_of_stays _ _ _ { button with peerName := networkPeer.2 } icon _
        ⟨.ofNetwork, hpart⟩ rfl ⟨h.states, h.network, h.hub, h.machine⟩ hicon ?_ ?_ rfl
      · exact Lookups.getElem?_insert_self _ peerId _
      · intro other hother
        exact Lookups.getElem?_insert_of_ne _ hother _
  · rename_i hknown
    refine ⟨_, rfl, refreshed_of_stays ?_ rfl h hicon hfound (fun _ _ => rfl) rfl⟩
    rw [not_and_or] at hknown
    cases hknown with
    | inl hstate => exact ⟨.ofMachine, hmachine.mp hstate⟩
    | inr hstate => exact ⟨.ofHub, hhub.mp hstate⟩

variable {calls : List ButtonCall} {call : ButtonCall}

theorem Right.reported_eq_none (h : table.Right calls)
    (hfound : table.window.myPeersButtonTable[peerId]? = none) (part : ButtonPart) :
    reported calls peerId part = none := by
  rw [← Option.not_isSome_iff_eq_none]
  intro hsome
  obtain ⟨found, hat⟩ := (Lookups.mem_iff_exists _ _).mp ((h.mem_iff peerId).mpr ⟨part, hsome⟩)
  rw [hfound] at hat
  exact absurd hat.symm (Option.some_ne_none found)

theorem reported_of_not_about {part : ButtonPart} (h : call.about peerId part = false) :
    reported (calls ++ [call]) peerId part = reported calls peerId part := by
  rw [reported_concat, h]
  rfl

/-- A call puts a button in the table and refreshes it. -/
theorem exists_right_setButton (h : table.Right calls) (hbutton : button.InOrder)
    (hinfo : ∀ part, button.info part = reported (calls ++ [call]) peerId part)
    (hothers : ∀ other ≠ peerId, ∀ part, call.about other part = false) :
    ∃ after, { table with window := table.window.setButton peerId button }.updatePeerIcon peerId =
      some after ∧ after.Right (calls ++ [call]) := by
  have hfound : (table.window.setButton peerId button).myPeersButtonTable[peerId]? = some button :=
    Lookups.getElem?_insert_self _ peerId button
  obtain ⟨after, hafter, hrefreshed⟩ :=
    @exists_refreshed button { table with window := table.window.setButton peerId button } peerId
      hfound hbutton
  have hsame (other : QString) (hother : other ≠ peerId) :
      after.window.myPeersButtonTable[other]? = table.window.myPeersButtonTable[other]? :=
    (hrefreshed.buttons other hother).trans (Lookups.getElem?_insert_of_ne _ hother button)
  refine ⟨after, hafter, ?_, ?_, ?_, ?_⟩
  · intro other
    by_cases hother : other = peerId
    · rw [hother, hrefreshed.mem_iff]
      simp only [hinfo]
    · rw [Lookups.mem_iff_exists, hsame other hother, ← Lookups.mem_iff_exists, h.mem_iff]
      simp only [reported_of_not_about (hothers other hother _)]
  · intro other found hat part
    by_cases hother : other = peerId
    · rw [hother] at hat ⊢
      rw [(hrefreshed.info found hat).1, hinfo]
    · rw [hsame other hother] at hat
      rw [reported_of_not_about (hothers other hother part)]
      exact h.info other found hat part
  · intro other found hat
    by_cases hother : other = peerId
    · rw [hother] at hat
      exact (hrefreshed.info found hat).2
    · rw [hsame other hother] at hat
      exact h.inOrder other found hat
  · intro other
    by_cases hother : other = peerId
    · rw [hother]
      exact hrefreshed.icon
    · rw [hrefreshed.icons other hother, hsame other hother]
      exact h.icon other

theorem exists_right_updatePeerButton (h : table.Right calls) (peerId : QString) (report : PeerReport) :
    ∃ after, table.updatePeerButton peerId report = some after ∧
      after.Right (calls ++ [.updatePeerButton peerId report]) := by
  have hbefore : (table.window.button peerId report.name).InOrder ∧
      ∀ part, (table.window.button peerId report.name).info part = reported calls peerId part := by
    rw [PeerWindow.button]
    cases hfound : table.window.myPeersButtonTable[peerId]? with
    | none =>
        refine ⟨MyPeerButton.inOrder_new peerId report.name, ?_⟩
        intro part
        rw [h.reported_eq_none hfound]
        cases part <;> rfl
    | some found => exact ⟨h.inOrder peerId found hfound, h.info peerId found hfound⟩
  apply exists_right_setButton h (MyPeerButton.inOrder_withReport hbefore.1 report)
  · intro part
    rw [MyPeerButton.info_withReport, reported_concat, hbefore.2]
    exact if_congr (by simp [ButtonCall.about]) rfl rfl
  · intro other hother part
    exact decide_eq_false fun hsame => hother hsame.1.symm

theorem exists_right_deletePeerButtonInfo (h : table.Right calls) (peerId : QString) (type : Int) :
    ∃ after, table.deletePeerButtonInfo peerId type = some after ∧
      after.Right (calls ++ [.deletePeerButtonInfo peerId type]) := by
  have hothers (other : QString) (hother : other ≠ peerId) (part : ButtonPart) :
      (ButtonCall.deletePeerButtonInfo peerId type).about other part = false :=
    decide_eq_false fun hsame => hother hsame.1.symm
  have hreported (part : ButtonPart) :
      reported (calls ++ [.deletePeerButtonInfo peerId type]) peerId part =
        if partOfType type = some part then none else reported calls peerId part := by
    rw [reported_concat]
    exact if_congr (by simp [ButtonCall.about]) rfl rfl
  rw [deletePeerButtonInfo]
  cases hfound : table.window.myPeersButtonTable[peerId]? with
  | none =>
      refine ⟨table, rfl, ?_⟩
      have hsame (other : QString) (part : ButtonPart) :
          reported (calls ++ [.deletePeerButtonInfo peerId type]) other part =
            reported calls other part := by
        by_cases hother : other = peerId
        · rw [hother, hreported, h.reported_eq_none hfound, ite_self]
        · exact reported_of_not_about (hothers other hother part)
      refine ⟨?_, ?_, h.inOrder, h.icon⟩
      · simp only [hsame]
        exact h.mem_iff
      · simp only [hsame]
        exact h.info
  | some found =>
      have hright := @exists_right_setButton
        ((partOfType type).elim found fun part => found.without part) table peerId calls
        (.deletePeerButtonInfo peerId type) h ?_ ?_ hothers
      · obtain ⟨after, hafter, hright⟩ := hright
        dsimp only
        rw [hafter, Option.map_some]
        refine ⟨_, rfl, ?_⟩
        split
        · exact ⟨hright.mem_iff, hright.info, hright.inOrder, hright.icon⟩
        · exact hright
      · cases partOfType type with
        | none => exact h.inOrder peerId found hfound
        | some part => exact MyPeerButton.inOrder_without (h.inOrder peerId found hfound) part
      · intro part
        rw [hreported]
        cases partOfType type with
        | none => exact h.info peerId found hfound part
        | some deleted =>
            rw [Option.elim_some, MyPeerButton.info_without, h.info peerId found hfound]
            exact if_congr Option.some_inj.symm rfl rfl

theorem exists_right_step (h : table.Right calls) (call : ButtonCall) :
    ∃ after, table.step call = some after ∧ after.Right (calls ++ [call]) := by
  cases call with
  | updatePeerButton peerId report => exact exists_right_updatePeerButton h peerId report
  | deletePeerButtonInfo peerId type => exact exists_right_deletePeerButtonInfo h peerId type
  | setHubPeers hubPeersTable =>
      have hsame (peerId : QString) (part : ButtonPart) :
          reported (calls ++ [.setHubPeers hubPeersTable]) peerId part = reported calls peerId part :=
        reported_of_not_about rfl
      refine ⟨_, rfl, ?_, ?_, h.inOrder, h.icon⟩
      · simp only [hsame]
        exact h.mem_iff
      · simp only [hsame]
        exact h.info

/-! ## The window without the checks -/

/-- The call in the window, where nothing can go wrong. -/
def windowStep (window : PeerWindow) : ButtonCall → PeerWindow
  | .updatePeerButton peerId (.ofMachine peer) => window.updateLocalButton peerId peer
  | .updatePeerButton peerId (.ofHub peer) => window.updateHubButton peerId peer
  | .updatePeerButton peerId (.ofNetwork peer) => window.updateNetworkButton peerId peer
  | .deletePeerButtonInfo peerId type =>
      (partOfType type).elim (window.updatePeerIcon peerId) fun part =>
        window.deletePeerButtonInfo peerId part
  | .setHubPeers hubPeersTable => { window with hubPeersTable := hubPeersTable }

variable {after : ButtonTable}

theorem window_updatePeerIcon (h : table.updatePeerIcon peerId = some after) :
    after.window = table.window.updatePeerIcon peerId := by
  obtain ⟨button, hfound, h⟩ := Option.bind_eq_some_iff.mp h
  obtain ⟨icon, -, h⟩ := Option.bind_eq_some_iff.mp h
  rw [PeerWindow.updatePeerIcon, hfound]
  dsimp only
  split at h
  · rename_i hunknown
    rw [if_pos hunknown]
    split at h
    · rename_i hgone
      rw [if_pos hgone, ← Option.some.inj h]
    · rename_i hknown
      obtain ⟨networkPeer, hpeer, rfl⟩ := Option.map_eq_some_iff.mp h
      rw [if_neg hknown, hpeer]
  · rename_i hknown
    rw [if_neg hknown, ← Option.some.inj h]

theorem setButton_self {window : PeerWindow} (hfound : window.myPeersButtonTable[peerId]? = some button) :
    window.setButton peerId button = window := by
  have htable : window.myPeersButtonTable.insert peerId button = window.myPeersButtonTable := by
    apply Std.ExtTreeMap.ext_getElem?
    intro other
    rw [Lookups.getElem?_insert]
    split
    · rename_i hother
      rw [hother, hfound]
    · rfl
  rw [PeerWindow.setButton, htable]

theorem partOfType_eq_ofMachine_iff (type : Int) : partOfType type = some .ofMachine ↔ type = 0 := by
  rw [partOfType]
  split
  · rename_i hzero
    exact iff_of_true rfl hzero
  · rename_i hzero
    refine iff_of_false ?_ hzero
    split
    · decide
    · split <;> decide

/-- With the checks a call does to the window what it does without them. -/
theorem window_step (h : table.step call = some after) : after.window = windowStep table.window call := by
  cases call with
  | updatePeerButton peerId report => cases report <;> exact window_updatePeerIcon h
  | deletePeerButtonInfo peerId type =>
      rw [step, deletePeerButtonInfo] at h
      cases hfound : table.window.myPeersButtonTable[peerId]? with
      | none =>
          rw [hfound, Option.some.injEq] at h
          rw [← h, windowStep]
          cases partOfType type with
          | none => rw [Option.elim_none, PeerWindow.updatePeerIcon, hfound]
          | some part => rw [Option.elim_some, PeerWindow.deletePeerButtonInfo, hfound]
      | some button =>
          rw [hfound] at h
          obtain ⟨refreshed, hrefreshed, rfl⟩ := Option.map_eq_some_iff.mp h
          have hwindow := window_updatePeerIcon hrefreshed
          have hmachine := partOfType_eq_ofMachine_iff type
          rw [windowStep, hwindow, PeerWindow.hubPeersTable_updatePeerIcon]
          cases hpart : partOfType type with
          | none =>
              rw [hpart] at hwindow hmachine
              have hzero : type ≠ 0 := fun hzero => Option.some_ne_none _ (hmachine.mpr hzero).symm
              rw [if_neg fun hnot => hzero hnot.1, hwindow, Option.elim_none, Option.elim_none,
                setButton_self hfound]
          | some part =>
              rw [hpart, Option.some.injEq] at hmachine
              have hhub : (table.window.setButton peerId (button.without part)).hubPeersTable =
                  table.window.hubPeersTable := rfl
              rw [hpart] at hwindow
              rw [Option.elim_some, Option.elim_some, PeerWindow.deletePeerButtonInfo, hfound, hhub]
              dsimp only
              by_cases hzero : type = 0
              · rw [if_pos (hmachine.mpr hzero)]
                split
                · rename_i hclears
                  rw [if_pos hclears.2]
                · rename_i hclears
                  rw [if_neg fun hboth => hclears ⟨hzero, hboth⟩, hwindow, Option.elim_some]
              · rw [if_neg fun hboth => hzero hboth.1, if_neg fun hsame => hzero (hmachine.mp hsame), hwindow,
                  Option.elim_some]
  | setHubPeers hubPeersTable =>
      rw [← Option.some.inj h]
      rfl

/-- No call of a run reads a null pointer or outside of the array. A button exists for just the
peers of which a part is known, and its states are those of what is known. -/
theorem exists_right_run (peerFingers : StdMap QString) (calls : List ButtonCall) :
    ∃ table, calls.foldlM step (new peerFingers) = some table ∧ table.Right calls := by
  induction calls using List.reverseRecOn with
  | nil =>
      refine ⟨new peerFingers, rfl, ?_, ?_, ?_, ?_⟩
      · intro peerId
        refine iff_of_false (fun hmem => Std.ExtTreeMap.not_mem_empty hmem) ?_
        rintro ⟨part, hpart⟩
        exact Bool.false_ne_true hpart
      · intro peerId found hat
        exact absurd hat Lookups.empty_ne_some
      · intro peerId found hat
        exact absurd hat Lookups.empty_ne_some
      · intro peerId
        rw [new, PeerWindow.new, Std.ExtTreeMap.getElem?_empty, Std.ExtTreeMap.getElem?_empty,
          Option.bind_none]
  | append_singleton calls call ih =>
      obtain ⟨table, hrun, hright⟩ := ih
      obtain ⟨after, hstep, hafter⟩ := exists_right_step hright call
      refine ⟨after, ?_, hafter⟩
      rw [Runs.foldlM_concat, hrun]
      exact hstep

end ButtonTable

end SubutaiTray.Peer
