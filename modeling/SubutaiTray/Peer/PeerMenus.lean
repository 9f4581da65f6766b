import Mathlib.Logic.Function.Basic
import SubutaiTray.Library.Menus
import SubutaiTray.Peer.ButtonTable

/-!
The peers in the tray menu: `m_hub_peer_menu` for those that the machine or the hub knows,
`m_local_peer_menu` for those that were only found in the network.

`update_peer_icon` makes the item of a button, gives it its text, and moves it between the menus.
-/
namespace SubutaiTray.Peer

/-- The `QAction` of a button: the number tells the actions of a peer apart. -/
structure PeerItem where
  number : Nat
  peerId : QString
  deriving DecidableEq

/-- The machine or the hub knows the peer. -/
def MyPeerButton.Claimed (button : MyPeerButton) : Prop :=
  (button.info .ofMachine).isSome = true ∨ (button.info .ofHub).isSome = true

/-- The window with the items of its buttons (`m_my_peers_item`). `none` in a menu is
`m_empty_action`. -/
structure PeerMenus where
  table : ButtonTable
  myPeersItems : StdMap PeerItem
  texts : Nat → QString
  created : Nat
  hubPeerMenu : List (Option PeerItem)
  localPeerMenu : List (Option PeerItem)

namespace PeerMenus

def new (peerFingers : StdMap QString) : PeerMenus where
  table := ButtonTable.new peerFingers
  myPeersItems := ∅
  texts := fun _ => []
  created := 0
  hubPeerMenu := [none]
  localPeerMenu := [none]

/-- The item of a button, made if there is none. -/
def item (peerId : QString) (menus : PeerMenus) : PeerItem :=
  (menus.myPeersItems[peerId]?).getD { number := menus.created, peerId := peerId }

def buttonAt (peerId : QString) (menus : PeerMenus) : Option MyPeerButton :=
  menus.table.window.myPeersButtonTable[peerId]?

/-- What `update_peer_icon` does to the item of a button and to the menus; `table` is what it makes
of the buttons. -/
def place (peerId : QString) (button : MyPeerButton) (table : ButtonTable) (menus : PeerMenus) :
    PeerMenus :=
  let item := menus.item peerId
  { table := table
    myPeersItems :=
      if peerId ∈ table.window.myPeersButtonTable then menus.myPeersItems.insert peerId item
      else menus.myPeersItems.erase peerId
    texts := Function.update menus.texts item.number
      ((table.window.myPeersButtonTable[peerId]?).getD button).peerName
    created := if menus.myPeersItems[peerId]? = none then menus.created + 1 else menus.created
    hubPeerMenu :=
      if button.localPeerState = 0 ∧ button.hubPeerState = 0 then Menus.leave item menus.hubPeerMenu
      else Menus.enter item menus.hubPeerMenu
    localPeerMenu :=
      if button.localPeerState = 0 ∧ button.hubPeerState = 0 then
        if button.networkPeerState = 0 then menus.localPeerMenu
        else Menus.enter item menus.localPeerMenu
      else Menus.leave item menus.localPeerMenu }

def updatePeerIcon (peerId : QString) (menus : PeerMenus) : Option PeerMenus :=
  (menus.buttonAt peerId).bind fun button =>
    (menus.table.updatePeerIcon peerId).map fun table => menus.place peerId button table

def setButton (peerId : QString) (button : MyPeerButton) (menus : PeerMenus) : PeerMenus :=
  { menus with table :=
      { menus.table with window := menus.table.window.setButton peerId button } }

def updatePeerButton (peerId : QString) (report : PeerReport) (menus : PeerMenus) :
    Option PeerMenus :=
  (menus.setButton peerId
    ((menus.table.window.button peerId report.name).withReport report)).updatePeerIcon peerId

def deletePeerButtonInfo (peerId : QString) (type : Int) (menus : PeerMenus) : Option PeerMenus :=
  match menus.buttonAt peerId with
  | none => some menus
  | some button =>
      ((menus.setButton peerId
        ((partOfType type).elim button fun part => button.without part)).updatePeerIcon peerId).map
          fun after : PeerMenus =>
            if type = 0 ∧ button.backupNames.1 ≠ peerId ∧
                after.table.window.hubPeersTable[peerId]? = none then
              { after with table :=
                  { after.table with
                    window := after.table.window.setPeerFinger button.backupNames.2 [] } }
            else after

def step (menus : PeerMenus) : ButtonCall → Option PeerMenus
  | .updatePeerButton peerId report => menus.updatePeerButton peerId report
  | .deletePeerButtonInfo peerId type => menus.deletePeerButtonInfo peerId type
  | .setHubPeers hubPeersTable =>
      some { menus with table :=
        { menus.table with window := { menus.table.window with hubPeersTable := hubPeersTable } } }

/-! ## What the menus are to show -/

/-- The items of the buttons that are to be shown. -/
def itemsWhere (shown : MyPeerButton → Prop) (menus : PeerMenus) : Set PeerItem :=
  {item | ∃ (peerId : QString) (button : MyPeerButton), menus.myPeersItems[peerId]? = some item ∧
    menus.buttonAt peerId = some button ∧ shown button}

def hubItems (menus : PeerMenus) : Set PeerItem :=
  menus.itemsWhere MyPeerButton.Claimed

def localItems (menus : PeerMenus) : Set PeerItem :=
  menus.itemsWhere fun button => ¬ button.Claimed

/-- The items and the texts of the buttons. -/
structure Itemised (menus : PeerMenus) : Prop where
  inOrder : ∀ peerId button, menus.buttonAt peerId = some button → button.InOrder
  known : ∀ peerId button, menus.buttonAt peerId = some button → ∃ part, (button.info part).isSome = true
  mem_iff : ∀ peerId, peerId ∈ menus.myPeersItems ↔ peerId ∈ menus.table.window.myPeersButtonTable
  peerId : ∀ (peerId : QString) (item : PeerItem), menus.myPeersItems[peerId]? = some item →
    item.peerId = peerId ∧ item.number < menus.created
  number : ∀ (peerId other : QString) (item found : PeerItem),
    menus.myPeersItems[peerId]? = some item → menus.myPeersItems[other]? = some found →
      item.number = found.number → peerId = other
  text : ∀ (peerId : QString) (item : PeerItem) (button : MyPeerButton),
    menus.myPeersItems[peerId]? = some item → menus.buttonAt peerId = some button →
      menus.texts item.number = button.peerName

/-- What holds of the menus in every run. -/
structure Inv (menus : PeerMenus) : Prop where
  itemised : menus.Itemised
  hub : Menus.Shows menus.hubPeerMenu menus.hubItems
  created : ∀ item, some item ∈ menus.localPeerMenu → item.number < menus.created

variable {menus after : PeerMenus} {peerId : QString} {button : MyPeerButton}

/-! ## The buttons are those of the table -/

theorem table_updatePeerIcon (menus : PeerMenus) (peerId : QString) :
    (menus.updatePeerIcon peerId).map table = menus.table.updatePeerIcon peerId := by
  rw [updatePeerIcon, buttonAt, ButtonTable.updatePeerIcon]
  cases menus.table.window.myPeersButtonTable[peerId]? with
  | none => rfl
  | some button =>
      rw [Option.bind_some, Option.bind_some, Option.map_map]
      exact Option.map_id'

theorem table_step (menus : PeerMenus) (call : ButtonCall) :
    (menus.step call).map table = menus.table.step call := by
  cases call with
  | updatePeerButton peerId report => exact table_updatePeerIcon _ peerId
  | deletePeerButtonInfo peerId type =>
      rw [step, deletePeerButtonInfo, ButtonTable.step, ButtonTable.deletePeerButtonInfo, buttonAt]
      cases menus.table.window.myPeersButtonTable[peerId]? with
      | none => rfl
      | some button =>
          have hicon := table_updatePeerIcon (menus.setButton peerId
            ((partOfType type).elim button fun part => button.without part)) peerId
          dsimp only
          rw [Option.map_map]
          refine Eq.trans ?_ (congrArg (Option.map _) hicon)
          rw [Option.map_map]
          apply congrArg fun f => Option.map f _
          funext after
          dsimp only [Function.comp_apply]
          split <;> rfl
  | setHubPeers hubPeersTable => rfl

/-! ## An item is placed -/

theorem states_eq_zero_iff (h : button.InOrder) :
    button.localPeerState = 0 ∧ button.hubPeerState = 0 ↔ ¬ button.Claimed := by
  have hmachine : button.localPeerState ≠ 0 ↔ (button.info .ofMachine).isSome = true := h.states .ofMachine
  have hhub : button.hubPeerState ≠ 0 ↔ (button.info .ofHub).isSome = true := h.states .ofHub
  rw [MyPeerButton.Claimed, ← hmachine, ← hhub, not_or, not_not, not_not]

theorem claimed_congr {first second : MyPeerButton} (h : first.info = second.info) :
    first.Claimed ↔ second.Claimed := by
  rw [MyPeerButton.Claimed, MyPeerButton.Claimed, h]

/-- The item of a button is its own. -/
structure Own (peerId : QString) (menus : PeerMenus) : Prop where
  opens : (menus.item peerId).peerId = peerId
  number : (menus.item peerId).number <
    if menus.myPeersItems[peerId]? = none then menus.created + 1 else menus.created
  item : ∀ found, menus.myPeersItems[peerId]? = some found → found = menus.item peerId
  other : ∀ (other : QString) (found : PeerItem), menus.myPeersItems[other]? = some found →
    other ≠ peerId → found.number ≠ (menus.item peerId).number

theorem Itemised.own (h : menus.Itemised) (peerId : QString) : menus.Own peerId := by
  cases hitem : menus.myPeersItems[peerId]? with
  | none =>
      have hnew : menus.item peerId = { number := menus.created, peerId := peerId } := by
        rw [item, hitem, Option.getD_none]
      refine ⟨?_, ?_, ?_, ?_⟩
      · rw [hnew]
      · rw [hnew, if_pos hitem]
        exact Nat.lt_succ_self menus.created
      · intro found hfound
        rw [hitem] at hfound
        exact absurd hfound.symm (Option.some_ne_none found)
      · intro other found hfound _
        rw [hnew]
        exact Nat.ne_of_lt (h.peerId other found hfound).2
  | some held =>
      have hheld : menus.item peerId = held := by
        rw [item, hitem, Option.getD_some]
      refine ⟨?_, ?_, ?_, ?_⟩
      · rw [hheld]
        exact (h.peerId peerId held hitem).1
      · rw [hheld, if_neg fun hnone => Option.some_ne_none held (hitem.symm.trans hnone)]
        exact (h.peerId peerId held hitem).2
      · intro found hfound
        rw [hheld]
        exact Option.some_inj.mp (hfound.symm.trans hitem)
      · intro other found hfound hother hnumber
        rw [hheld] at hnumber
        exact hother (h.number other peerId found held hfound hitem hnumber)

section
variable {table : ButtonTable}

theorem getElem?_place (menus : PeerMenus) (peerId other : QString) (button : MyPeerButton)
    (table : ButtonTable) :
    (menus.place peerId button table).myPeersItems[other]? =
      if other = peerId then
        if peerId ∈ table.window.myPeersButtonTable then some (menus.item peerId) else none
      else menus.myPeersItems[other]? := by
  rw [place]
  dsimp only
  by_cases hmem : peerId ∈ table.window.myPeersButtonTable
  · rw [if_pos hmem, if_pos hmem, Lookups.getElem?_insert]
  · rw [if_neg hmem, if_neg hmem, Lookups.getElem?_erase]

variable (hrefreshed : ButtonTable.Refreshed peerId button menus.table table)
include hrefreshed

theorem itemised_place (h : menus.Itemised) : (menus.place peerId button table).Itemised := by
  have hown := h.own peerId
  have hcreated : menus.created ≤ (menus.place peerId button table).created := by
    rw [place]
    dsimp only
    split
    · exact Nat.le_succ menus.created
    · exact Nat.le_refl menus.created
  -- An item of the table is the item that was placed, or stands as before.
  have hcases (other : QString) (found : PeerItem)
      (hfound : (menus.place peerId button table).myPeersItems[other]? = some found) :
      other = peerId ∧ found = menus.item peerId ∨
        other ≠ peerId ∧ menus.myPeersItems[other]? = some found := by
    rw [getElem?_place] at hfound
    by_cases hother : other = peerId
    · rw [if_pos hother] at hfound
      split at hfound
      · exact Or.inl ⟨hother, (Option.some_inj.mp hfound).symm⟩
      · exact absurd hfound.symm (Option.some_ne_none found)
    · rw [if_neg hother] at hfound
      exact Or.inr ⟨hother, hfound⟩
  refine ⟨?_, ?_, ?_, ?_, ?_, ?_⟩
  · intro other found hfound
    by_cases hother : other = peerId
    · rw [hother] at hfound
      exact (hrefreshed.info found hfound).2
    · exact h.inOrder other found ((hrefreshed.buttons other hother).symm.trans hfound)
  · intro other found hfound
    by_cases hother : other = peerId
    · rw [hother] at hfound
      rw [(hrefreshed.info found hfound).1]
      exact hrefreshed.mem_iff.mp ((Lookups.mem_iff_exists _ peerId).mpr ⟨found, hfound⟩)
    · exact h.known other found ((hrefreshed.buttons other hother).symm.trans hfound)
  · intro other
    rw [Lookups.mem_iff_exists, getElem?_place]
    by_cases hother : other = peerId
    · rw [if_pos hother, hother]
      show _ ↔ peerId ∈ table.window.myPeersButtonTable
      split
      · rename_i hmem
        exact iff_of_true ⟨_, rfl⟩ hmem
      · rename_i hmem
        exact iff_of_false (fun ⟨found, hfound⟩ => Option.some_ne_none found hfound.symm) hmem
    · rw [if_neg hother, ← Lookups.mem_iff_exists, h.mem_iff]
      show _ ↔ other ∈ table.window.myPeersButtonTable
      rw [Lookups.mem_iff_exists, Lookups.mem_iff_exists, hrefreshed.buttons other hother]
  · intro other found hfound
    cases hcases other found hfound with
    | inl hself =>
        rw [hself.1, hself.2]
        exact ⟨hown.opens, hown.number⟩
    | inr hbefore =>
        have hitem := h.peerId other found hbefore.2
        exact ⟨hitem.1, Nat.lt_of_lt_of_le hitem.2 hcreated⟩
  · intro first second item found hitem hfound hnumber
    rcases hcases first item hitem with hfirst | hfirst <;>
      rcases hcases second found hfound with hsecond | hsecond
    · rw [hfirst.1, hsecond.1]
    · rw [hfirst.2] at hnumber
      exact absurd hnumber.symm (hown.other second found hsecond.2 hsecond.1)
    · rw [hsecond.2] at hnumber
      exact absurd hnumber (hown.other first item hfirst.2 hfirst.1)
    · exact h.number first second item found hfirst.2 hsecond.2 hnumber
  · intro other found shown hfound hshown
    rw [buttonAt, place] at hshown
    dsimp only at hshown
    rw [place]
    dsimp only
    cases hcases other found hfound with
    | inl hself =>
        rw [hself.1] at hshown
        rw [hself.2, Function.update_self, hshown, Option.getD_some]
    | inr hbefore =>
        rw [Function.update_of_ne (hown.other other found hbefore.2 hbefore.1)]
        rw [hrefreshed.buttons other hbefore.1] at hshown
        exact h.text other found shown hbefore.2 hshown

/-- The item that is placed is shown when its button is, and the others are shown as before. -/
theorem mem_itemsWhere_place (h : menus.Itemised) {shown : MyPeerButton → Prop}
    (hshown : ∀ first second : MyPeerButton, first.info = second.info → (shown first ↔ shown second))
    (item : PeerItem) :
    item ∈ (menus.place peerId button table).itemsWhere shown ↔
      item = menus.item peerId ∧ shown button ∧ (∃ part, (button.info part).isSome = true) ∨
        item ≠ menus.item peerId ∧ item ∈ menus.itemsWhere shown := by
  have hown := h.own peerId
  constructor
  · rintro ⟨other, found, hitem, hfound, hyes⟩
    rw [getElem?_place] at hitem
    by_cases hother : other = peerId
    · rw [hother] at hfound
      rw [if_pos hother] at hitem
      split at hitem
      · rename_i hmem
        have hsame := (hrefreshed.info found hfound).1
        exact Or.inl ⟨(Option.some_inj.mp hitem).symm, (hshown _ _ hsame).mp hyes,
          hrefreshed.mem_iff.mp hmem⟩
      · exact absurd hitem.symm (Option.some_ne_none item)
    · rw [if_neg hother] at hitem
      refine Or.inr ⟨?_, other, found, hitem, (hrefreshed.buttons other hother).symm.trans hfound, hyes⟩
      intro heq
      exact hown.other other item hitem hother (congrArg PeerItem.number heq)
  · rintro (⟨hitem, hyes, hknown⟩ | ⟨hitem, other, found, hat, hfound, hyes⟩)
    · have hmem := hrefreshed.mem_iff.mpr hknown
      obtain ⟨found, hfound⟩ := (Lookups.mem_iff_exists _ peerId).mp hmem
      refine ⟨peerId, found, ?_, hfound, (hshown _ _ (hrefreshed.info found hfound).1).mpr hyes⟩
      rw [getElem?_place, if_pos rfl, if_pos hmem, hitem]
    · have hother : other ≠ peerId := by
        intro heq
        rw [heq] at hat
        exact hitem (hown.item item hat)
      refine ⟨other, found, ?_, (hrefreshed.buttons other hother).trans hfound, hyes⟩
      rw [getElem?_place, if_neg hother, hat]

theorem hubItems_place (h : menus.Itemised) :
    (menus.place peerId button table).hubItems =
      {item | item = menus.item peerId ∧ button.Claimed ∨
        item ≠ menus.item peerId ∧ item ∈ menus.hubItems} := by
  apply Set.ext
  intro item
  have hknown : button.Claimed → ∃ part, (button.info part).isSome = true :=
    fun hclaimed => hclaimed.elim (fun hpart => ⟨.ofMachine, hpart⟩) fun hpart => ⟨.ofHub, hpart⟩
  rw [hubItems, mem_itemsWhere_place hrefreshed h fun _ _ => claimed_congr, and_iff_left_of_imp hknown]
  rfl

theorem localItems_place (h : menus.Itemised) :
    (menus.place peerId button table).localItems =
      {item | item = menus.item peerId ∧ ¬ button.Claimed ∧ (button.info .ofNetwork).isSome = true ∨
        item ≠ menus.item peerId ∧ item ∈ menus.localItems} := by
  apply Set.ext
  intro item
  have hknown : ¬ button.Claimed →
      ((∃ part, (button.info part).isSome = true) ↔ (button.info .ofNetwork).isSome = true) := by
    intro hunclaimed
    constructor
    · rintro ⟨part, hpart⟩
      cases part with
      | ofMachine => exact absurd (Or.inl hpart) hunclaimed
      | ofHub => exact absurd (Or.inr hpart) hunclaimed
      | ofNetwork => exact hpart
    · exact fun hpart => ⟨.ofNetwork, hpart⟩
  rw [localItems, mem_itemsWhere_place hrefreshed h fun first second hsame => not_congr (claimed_congr hsame),
    and_congr_right hknown]
  rfl

theorem inv_place (h : menus.Inv) (hbutton : button.InOrder) :
    (menus.place peerId button table).Inv := by
  have hcreated : (menus.place peerId button table).created =
      if menus.myPeersItems[peerId]? = none then menus.created + 1 else menus.created := rfl
  have hle : menus.created ≤ (menus.place peerId button table).created := by
    rw [hcreated]
    split
    · exact Nat.le_succ menus.created
    · exact Nat.le_refl menus.created
  have hown := (h.itemised.own peerId).number
  rw [← hcreated] at hown
  refine ⟨itemised_place hrefreshed h.itemised, ?_, ?_⟩
  · rw [hubItems_place hrefreshed h.itemised, place]
    dsimp only
    by_cases hclaimed : button.Claimed
    · have hset : {item | item = menus.item peerId ∧ button.Claimed ∨
          item ≠ menus.item peerId ∧ item ∈ menus.hubItems} =
            insert (menus.item peerId) menus.hubItems := by
        apply Set.ext
        intro item
        rw [Set.mem_ofPred_eq, Set.mem_insert_iff, and_iff_left hclaimed]
        tauto
      rw [if_neg fun hstates => (states_eq_zero_iff hbutton).mp hstates hclaimed, hset]
      exact Menus.shows_enter h.hub _
    · have hset : {item | item = menus.item peerId ∧ button.Claimed ∨
          item ≠ menus.item peerId ∧ item ∈ menus.hubItems} =
            menus.hubItems \ {menus.item peerId} := by
        apply Set.ext
        intro item
        rw [Set.mem_ofPred_eq, Set.mem_sdiff, Set.mem_singleton_iff]
        tauto
      rw [if_pos ((states_eq_zero_iff hbutton).mpr hclaimed), hset]
      exact Menus.shows_leave h.hub _
  · intro item hitem
    have hcases : item = menus.item peerId ∨ some item ∈ menus.localPeerMenu := by
      rw [place] at hitem
      dsimp only at hitem
      split at hitem
      · split at hitem
        · exact Or.inr hitem
        · exact (Menus.some_mem_enter.mp hitem).symm
      · exact Or.inr (Menus.some_mem_leave.mp hitem).1
    cases hcases with
    | inl hself => rwa [hself]
    | inr hbefore => exact Nat.lt_of_lt_of_le (h.created item hbefore) hle

/-- The item of a button that goes was in the menu of those that only the network knows: there it
stays. -/
def Stale (peerId : QString) (button : MyPeerButton) (menus : PeerMenus) : Prop :=
  (∀ part, (button.info part).isSome = false) ∧ menus.item peerId ∈ menus.localItems

theorem shows_localItems_place_iff (h : menus.Itemised) (hbutton : button.InOrder)
    (hlocal : Menus.Shows menus.localPeerMenu menus.localItems) :
    Menus.Shows (menus.place peerId button table).localPeerMenu
        (menus.place peerId button table).localItems ↔ ¬ menus.Stale peerId button := by
  have hnetwork : button.networkPeerState ≠ 0 ↔ (button.info .ofNetwork).isSome = true :=
    hbutton.states .ofNetwork
  rw [localItems_place hrefreshed h, place]
  dsimp only
  have hleft (hnot : ¬ (¬ button.Claimed ∧ (button.info .ofNetwork).isSome = true)) :
      {item | item = menus.item peerId ∧ ¬ button.Claimed ∧ (button.info .ofNetwork).isSome = true ∨
        item ≠ menus.item peerId ∧ item ∈ menus.localItems} =
          menus.localItems \ {menus.item peerId} := by
    apply Set.ext
    intro item
    rw [Set.mem_ofPred_eq, Set.mem_sdiff, Set.mem_singleton_iff, or_iff_right fun hself => hnot hself.2]
    exact and_comm
  by_cases hclaimed : button.Claimed
  · rw [if_neg fun hstates => (states_eq_zero_iff hbutton).mp hstates hclaimed,
      hleft fun hboth => hboth.1 hclaimed]
    refine iff_of_true (Menus.shows_leave hlocal _) fun hstale => ?_
    have hnone (part : ButtonPart) : ¬ (button.info part).isSome = true :=
      Bool.eq_false_iff.mp (hstale.1 part)
    exact hclaimed.elim (hnone .ofMachine) (hnone .ofHub)
  · rw [if_pos ((states_eq_zero_iff hbutton).mpr hclaimed)]
    by_cases hgone : button.networkPeerState = 0
    · have hnone : ¬ (button.info .ofNetwork).isSome = true := fun hsome => hnetwork.mpr hsome hgone
      have hparts (part : ButtonPart) : (button.info part).isSome = false := by
        apply Bool.eq_false_iff.mpr
        cases part with
        | ofMachine => exact fun hpart => hclaimed (Or.inl hpart)
        | ofHub => exact fun hpart => hclaimed (Or.inr hpart)
        | ofNetwork => exact hnone
      rw [if_pos hgone, hleft fun hboth => hnone hboth.2]
      by_cases hmem : menus.item peerId ∈ menus.localItems
      · refine iff_of_false (fun hshows => ?_) (not_not.mpr ⟨hparts, hmem⟩)
        exact ((hshows.some_mem_iff _).mp ((hlocal.some_mem_iff _).mpr hmem)).2 rfl
      · rw [Set.sdiff_singleton_eq_self hmem]
        exact iff_of_true hlocal fun hstale => hmem hstale.2
    · have hset : {item | item = menus.item peerId ∧
          ¬ button.Claimed ∧ (button.info .ofNetwork).isSome = true ∨
            item ≠ menus.item peerId ∧ item ∈ menus.localItems} =
              insert (menus.item peerId) menus.localItems := by
        apply Set.ext
        intro item
        rw [Set.mem_ofPred_eq, Set.mem_insert_iff, and_iff_left ⟨hclaimed, hnetwork.mp hgone⟩]
        tauto
      rw [if_neg hgone, hset]
      refine iff_of_true (Menus.shows_enter hlocal _) fun hstale => ?_
      rw [hstale.1 .ofNetwork] at hnetwork
      exact Bool.false_ne_true (hnetwork.mp hgone)

end

/-! ## Runs -/

/-- The menus and the buttons are the same: only what else the window knows may differ. -/
structure SameMenus (menus after : PeerMenus) : Prop where
  buttons : after.table.window.myPeersButtonTable = menus.table.window.myPeersButtonTable
  rest : after = { menus with table := after.table }

theorem SameMenus.itemsWhere (h : SameMenus menus after) (shown : MyPeerButton → Prop) :
    after.itemsWhere shown = menus.itemsWhere shown := by
  rw [h.rest, PeerMenus.itemsWhere]
  simp only [buttonAt, h.buttons]
  rfl

theorem SameMenus.inv (h : SameMenus menus after) (hinv : menus.Inv) : after.Inv := by
  have hbuttonAt (peerId : QString) : after.buttonAt peerId = menus.buttonAt peerId := by
    rw [buttonAt, h.buttons, buttonAt]
  have hhub : after.hubItems = menus.hubItems := h.itemsWhere _
  have hitems : after.myPeersItems = menus.myPeersItems := by rw [h.rest]
  have hcreated : after.created = menus.created := by rw [h.rest]
  have htexts : after.texts = menus.texts := by rw [h.rest]
  have hhubMenu : after.hubPeerMenu = menus.hubPeerMenu := by rw [h.rest]
  have hlocalMenu : after.localPeerMenu = menus.localPeerMenu := by rw [h.rest]
  refine ⟨⟨?_, ?_, ?_, ?_, ?_, ?_⟩, ?_, ?_⟩
  · simp only [hbuttonAt]
    exact hinv.itemised.inOrder
  · simp only [hbuttonAt]
    exact hinv.itemised.known
  · rw [hitems, h.buttons]
    exact hinv.itemised.mem_iff
  · rw [hitems, hcreated]
    exact hinv.itemised.peerId
  · rw [hitems]
    exact hinv.itemised.number
  · simp only [hbuttonAt]
    rw [hitems, htexts]
    exact hinv.itemised.text
  · rw [hhub, hhubMenu]
    exact hinv.hub
  · rw [hlocalMenu, hcreated]
    exact hinv.created

/-- The network no longer finds a peer, and the machine or the hub knows it, or it has no button. -/
def Harmless (menus : PeerMenus) : ButtonCall → Prop
  | .deletePeerButtonInfo peerId type =>
      type = 2 → ∀ button, menus.buttonAt peerId = some button → button.Claimed
  | .updatePeerButton _ _ | .setHubPeers _ => True

theorem item_mem_localItems_iff (h : menus.Itemised) (hat : menus.buttonAt peerId = some button) :
    menus.item peerId ∈ menus.localItems ↔ ¬ button.Claimed := by
  have hown := h.own peerId
  constructor
  · rintro ⟨other, found, hitem, hfound, hunclaimed⟩
    have hother : other = peerId := by
      by_contra hne
      exact hown.other other _ hitem hne rfl
    rw [hother, hat] at hfound
    rw [Option.some_inj.mp hfound]
    exact hunclaimed
  · intro hunclaimed
    have hmem := (h.mem_iff peerId).mpr ((Lookups.mem_iff_exists _ peerId).mpr ⟨button, hat⟩)
    obtain ⟨held, hheld⟩ := (Lookups.mem_iff_exists _ peerId).mp hmem
    exact ⟨peerId, button, by rw [← hown.item held hheld, hheld], hat, hunclaimed⟩

/-- What a call does: it changes nothing in the menus, or it places the item of a button. -/
inductive StepCase (menus : PeerMenus) (call : ButtonCall) (after : PeerMenus) : Prop where
  | same (hsame : SameMenus menus after) (hharmless : menus.Harmless call)
  | placed (peerId : QString) (button : MyPeerButton) (table : ButtonTable) (hbutton : button.InOrder)
      (hrefreshed : ButtonTable.Refreshed peerId button menus.table table)
      (hsame : SameMenus (menus.place peerId button table) after)
      (hstale : ¬ menus.Stale peerId button ↔ menus.Harmless call)

/-- A button is set in the table, and its icon is updated. -/
theorem exists_place (hbutton : button.InOrder)
    (hafter : (menus.setButton peerId button).updatePeerIcon peerId = some after) :
    ∃ table, ButtonTable.Refreshed peerId button menus.table table ∧
      after = menus.place peerId button table := by
  have hat : (menus.setButton peerId button).buttonAt peerId = some button :=
    Lookups.getElem?_insert_self _ peerId button
  obtain ⟨table, htable, hrefreshed⟩ := ButtonTable.exists_refreshed hat hbutton
  rw [updatePeerIcon, hat, Option.bind_some, htable, Option.map_some, Option.some_inj] at hafter
  refine ⟨table, ⟨hrefreshed.mem_iff, hrefreshed.info, hrefreshed.icon, ?_, hrefreshed.icons⟩,
    hafter.symm⟩
  intro other hother
  rw [hrefreshed.buttons other hother]
  exact Lookups.getElem?_insert_of_ne _ hother button

theorem stepCase_updatePeerButton (h : menus.Itemised) {report : PeerReport}
    (hafter : menus.updatePeerButton peerId report = some after) :
    StepCase menus (.updatePeerButton peerId report) after := by
  have hbefore : (menus.table.window.button peerId report.name).InOrder := by
    rw [PeerWindow.button]
    cases hfound : menus.table.window.myPeersButtonTable[peerId]? with
    | none => exact MyPeerButton.inOrder_new peerId report.name
    | some found => exact h.inOrder peerId found hfound
  have hbutton := MyPeerButton.inOrder_withReport hbefore report
  obtain ⟨table, hrefreshed, hplace⟩ := exists_place hbutton hafter
  refine .placed peerId _ table hbutton hrefreshed ⟨by rw [hplace], by rw [hplace]⟩ ?_
  refine iff_of_true (fun hstale => ?_) trivial
  have hnone := hstale.1 report.part
  rw [MyPeerButton.info_withReport, if_pos rfl] at hnone
  exact Bool.false_ne_true hnone.symm

theorem partOfType_eq_ofNetwork_iff (type : Int) : partOfType type = some .ofNetwork ↔ type = 2 := by
  rw [partOfType]
  split
  · rename_i hzero
    exact iff_of_false (by decide) (by omega)
  · split
    · rename_i hone
      exact iff_of_false (by decide) (by omega)
    · split
      · rename_i htwo
        exact iff_of_true rfl htwo
      · rename_i htwo
        exact iff_of_false (by decide) htwo

/-- A button of the menu of the network loses its last part only when the network loses the peer. -/
theorem not_stale_iff_harmless (h : menus.Itemised) (hat : menus.buttonAt peerId = some button)
    (type : Int) :
    ¬ ((∀ part, ((((partOfType type).elim button fun part => button.without part).info part).isSome
      = false)) ∧ ¬ button.Claimed) ↔ menus.Harmless (.deletePeerButtonInfo peerId type) := by
  have htwo := partOfType_eq_ofNetwork_iff type
  constructor
  · intro hnot heq found hfound
    rw [hat] at hfound
    rw [← Option.some_inj.mp hfound]
    by_contra hunclaimed
    refine hnot ⟨?_, hunclaimed⟩
    intro part
    rw [htwo.mpr heq, Option.elim_some, MyPeerButton.info_without]
    apply Bool.eq_false_iff.mpr
    cases part with
    | ofMachine => exact fun hpart => hunclaimed (Or.inl hpart)
    | ofHub => exact fun hpart => hunclaimed (Or.inr hpart)
    | ofNetwork => exact Bool.false_ne_true
  · rintro hharmless ⟨hnone, hunclaimed⟩
    have hne : type ≠ 2 := fun heq => hunclaimed (hharmless heq button hat)
    have hnetwork : (button.info .ofNetwork).isSome = true := by
      obtain ⟨part, hpart⟩ := h.known peerId button hat
      cases part with
      | ofMachine => exact absurd (Or.inl hpart) hunclaimed
      | ofHub => exact absurd (Or.inr hpart) hunclaimed
      | ofNetwork => exact hpart
    have hgone := hnone .ofNetwork
    cases hpart : partOfType type with
    | none =>
        rw [hpart, Option.elim_none, hnetwork] at hgone
        exact Bool.false_ne_true hgone.symm
    | some part =>
        rw [hpart, Option.some_inj] at htwo
        rw [hpart, Option.elim_some, MyPeerButton.info_without, if_neg (mt htwo.mp hne), hnetwork] at hgone
        exact Bool.false_ne_true hgone.symm

theorem stepCase_deletePeerButtonInfo (h : menus.Itemised) {type : Int}
    (hafter : menus.deletePeerButtonInfo peerId type = some after) :
    StepCase menus (.deletePeerButtonInfo peerId type) after := by
  rw [deletePeerButtonInfo] at hafter
  cases hfound : menus.buttonAt peerId with
  | none =>
      rw [hfound, Option.some_inj] at hafter
      rw [← hafter]
      refine .same ⟨rfl, rfl⟩ ?_
      intro _ button hbutton
      rw [hfound] at hbutton
      exact absurd hbutton.symm (Option.some_ne_none button)
  | some found =>
      rw [hfound] at hafter
      obtain ⟨placed, hplaced, hafter⟩ := Option.map_eq_some_iff.mp hafter
      have hinOrder := h.inOrder peerId found hfound
      have hbutton : ((partOfType type).elim found fun part => found.without part).InOrder := by
        cases partOfType type with
        | none => exact hinOrder
        | some part => exact MyPeerButton.inOrder_without hinOrder part
      obtain ⟨table, hrefreshed, hplace⟩ := exists_place hbutton hplaced
      refine .placed peerId _ table hbutton hrefreshed ?_ ?_
      · rw [← hafter, ← hplace]
        split <;> exact ⟨rfl, rfl⟩
      · rw [Stale, item_mem_localItems_iff h hfound]
        exact not_stale_iff_harmless h hfound type

theorem stepCase (h : menus.Itemised) {call : ButtonCall} (hstep : menus.step call = some after) :
    StepCase menus call after := by
  cases call with
  | updatePeerButton peerId report => exact stepCase_updatePeerButton h hstep
  | deletePeerButtonInfo peerId type => exact stepCase_deletePeerButtonInfo h hstep
  | setHubPeers hubPeersTable =>
      rw [← Option.some.inj hstep]
      exact .same ⟨rfl, rfl⟩ trivial

theorem inv_step {call : ButtonCall} (h : menus.Inv) (hstep : menus.step call = some after) :
    after.Inv := by
  cases stepCase h.itemised hstep with
  | same hsame => exact hsame.inv h
  | placed peerId button table hbutton hrefreshed hsame =>
      exact hsame.inv (inv_place hrefreshed h hbutton)

theorem inv_new (peerFingers : StdMap QString) : (new peerFingers).Inv := by
  have hnone (peerId : QString) (button : MyPeerButton) :
      ¬ (new peerFingers).buttonAt peerId = some button := Lookups.empty_ne_some
  have hempty (shown : MyPeerButton → Prop) : (new peerFingers).itemsWhere shown = ∅ := by
    apply Set.eq_empty_of_forall_notMem
    rintro item ⟨peerId, button, -, hat, -⟩
    exact hnone peerId button hat
  refine ⟨⟨?_, ?_, ?_, ?_, ?_, ?_⟩, ?_, ?_⟩
  · exact fun peerId button hat => absurd hat (hnone peerId button)
  · exact fun peerId button hat => absurd hat (hnone peerId button)
  · exact fun peerId => iff_of_false Std.ExtTreeMap.not_mem_empty Std.ExtTreeMap.not_mem_empty
  · exact fun peerId item hat => absurd hat Lookups.empty_ne_some
  · exact fun peerId other item found hat => absurd hat Lookups.empty_ne_some
  · exact fun peerId item button hat => absurd hat Lookups.empty_ne_some
  · rw [hubItems, hempty]
    exact Menus.shows_empty
  · intro item hitem
    exact absurd (List.mem_singleton.mp hitem) (Option.some_ne_none item)

theorem shows_localItems_step_iff {call : ButtonCall} (h : menus.Inv)
    (hlocal : Menus.Shows menus.localPeerMenu menus.localItems)
    (hstep : menus.step call = some after) :
    Menus.Shows after.localPeerMenu after.localItems ↔ menus.Harmless call := by
  cases stepCase h.itemised hstep with
  | same hsame hharmless =>
      refine iff_of_true ?_ hharmless
      have hitems : after.localItems = menus.localItems := hsame.itemsWhere _
      have hmenu : after.localPeerMenu = menus.localPeerMenu := by rw [hsame.rest]
      rw [hitems, hmenu]
      exact hlocal
  | placed peerId button table hbutton hrefreshed hsame hstale =>
      have hitems : after.localItems = (menus.place peerId button table).localItems :=
        hsame.itemsWhere _
      have hmenu : after.localPeerMenu = (menus.place peerId button table).localPeerMenu := by
        rw [hsame.rest]
      rw [hitems, hmenu, shows_localItems_place_iff hrefreshed h.itemised hbutton hlocal]
      exact hstale

/-- The menu of those that only the network knows is right all along a run if and only if no peer is
lost by the network when nothing else is known of it. -/
theorem localPeerMenu_iff_harmless (peerFingers : StdMap QString) (calls : List ButtonCall) :
    Runs.AlwaysPartial step (fun menus => Menus.Shows menus.localPeerMenu menus.localItems)
        (new peerFingers) calls ↔
      Runs.EachStepPartial step Harmless (new peerFingers) calls := by
  refine Runs.alwaysPartial_iff_eachStepPartial (inv_new peerFingers)
    (fun _ _ _ => inv_step) ?_ (fun _ _ _ => shows_localItems_step_iff) calls
  have hempty : (new peerFingers).localItems = ∅ := by
    apply Set.eq_empty_of_forall_notMem
    rintro item ⟨peerId, button, -, hat, -⟩
    exact Lookups.empty_ne_some hat
  rw [hempty]
  exact Menus.shows_empty

/-- The machine or the hub has told of the peer, and has not taken it back. -/
def Told (calls : List ButtonCall) (peerId : QString) : Prop :=
  (reported calls peerId .ofMachine).isSome = true ∨ (reported calls peerId .ofHub).isSome = true

/-- The menu has one item for each peer of which is told, with the name of its button, and no other. -/
structure HubMenuRight (calls : List ButtonCall) (menus : PeerMenus) : Prop where
  nodup : menus.hubPeerMenu.Nodup
  mem_iff : ∀ peerId, (∃ item, some item ∈ menus.hubPeerMenu ∧ item.peerId = peerId) ↔ Told calls peerId
  once : ∀ item found, some item ∈ menus.hubPeerMenu → some found ∈ menus.hubPeerMenu →
    item.peerId = found.peerId → item = found
  text : ∀ item, some item ∈ menus.hubPeerMenu →
    ∃ button, menus.buttonAt item.peerId = some button ∧ menus.texts item.number = button.peerName
  empty : none ∈ menus.hubPeerMenu ↔ ∀ peerId, ¬ Told calls peerId

theorem claimed_iff_told {calls : List ButtonCall} (hright : menus.table.Right calls)
    (hat : menus.buttonAt peerId = some button) : button.Claimed ↔ Told calls peerId := by
  rw [MyPeerButton.Claimed, hright.info peerId button hat, hright.info peerId button hat, Told]

theorem hubMenuRight {calls : List ButtonCall} (h : menus.Inv) (hright : menus.table.Right calls) :
    menus.HubMenuRight calls := by
  have hmem (item : PeerItem) : some item ∈ menus.hubPeerMenu ↔
      menus.myPeersItems[item.peerId]? = some item ∧
        ∃ button, menus.buttonAt item.peerId = some button ∧ button.Claimed := by
    rw [h.hub.some_mem_iff]
    constructor
    · rintro ⟨peerId, button, hitem, hbutton, hclaimed⟩
      rw [(h.itemised.peerId peerId item hitem).1]
      exact ⟨hitem, button, hbutton, hclaimed⟩
    · rintro ⟨hitem, button, hbutton, hclaimed⟩
      exact ⟨item.peerId, button, hitem, hbutton, hclaimed⟩
  have htold (peerId : QString) :
      (∃ item, some item ∈ menus.hubPeerMenu ∧ item.peerId = peerId) ↔ Told calls peerId := by
    constructor
    · rintro ⟨item, hitem, rfl⟩
      obtain ⟨-, button, hbutton, hclaimed⟩ := (hmem item).mp hitem
      exact (claimed_iff_told hright hbutton).mp hclaimed
    · intro hpeer
      have hpart : ∃ part, (reported calls peerId part).isSome = true :=
        hpeer.elim (fun hsome => ⟨.ofMachine, hsome⟩) fun hsome => ⟨.ofHub, hsome⟩
      have hbutton := (hright.mem_iff peerId).mpr hpart
      obtain ⟨item, hitem⟩ := (Lookups.mem_iff_exists _ peerId).mp ((h.itemised.mem_iff peerId).mpr hbutton)
      obtain ⟨button, hbutton⟩ := (Lookups.mem_iff_exists _ peerId).mp hbutton
      have hopens := (h.itemised.peerId peerId item hitem).1
      refine ⟨item, (hmem item).mpr ?_, hopens⟩
      rw [hopens]
      exact ⟨hitem, button, hbutton, (claimed_iff_told hright hbutton).mpr hpeer⟩
  refine ⟨h.hub.nodup, htold, ?_, ?_, ?_⟩
  · intro item found hitem hfound heq
    have hat := ((hmem item).mp hitem).1
    rw [heq, ((hmem found).mp hfound).1, Option.some_inj] at hat
    exact hat.symm
  · intro item hitem
    obtain ⟨hat, button, hbutton, -⟩ := (hmem item).mp hitem
    exact ⟨button, hbutton, h.itemised.text _ item button hat hbutton⟩
  · rw [h.hub.none_mem_iff, Set.eq_empty_iff_forall_notMem]
    constructor
    · intro hnone peerId hpeer
      obtain ⟨item, hitem, -⟩ := (htold peerId).mpr hpeer
      exact hnone item ((h.hub.some_mem_iff item).mp hitem)
    · intro hnone item hitem
      exact hnone item.peerId ((htold item.peerId).mp ⟨item, (h.hub.some_mem_iff item).mpr hitem, rfl⟩)

/-- After every run of updates and deletions the menu shows the peers of which the machine or the hub
has told. -/
theorem exists_hubMenuRight_run (peerFingers : StdMap QString) (calls : List ButtonCall) :
    ∃ menus, calls.foldlM step (new peerFingers) = some menus ∧ menus.table.Right calls ∧
      menus.HubMenuRight calls := by
  suffices hrun : ∃ menus, calls.foldlM step (new peerFingers) = some menus ∧
      menus.table.Right calls ∧ menus.Inv by
    obtain ⟨menus, hrun, hright, hinv⟩ := hrun
    exact ⟨menus, hrun, hright, hubMenuRight hinv hright⟩
  induction calls using List.reverseRecOn with
  | nil =>
      obtain ⟨table, hrun, hright⟩ := ButtonTable.exists_right_run peerFingers []
      rw [← Option.some.inj hrun] at hright
      exact ⟨new peerFingers, rfl, hright, inv_new peerFingers⟩
  | append_singleton calls call ih =>
      obtain ⟨menus, hrun, hright, hinv⟩ := ih
      obtain ⟨table, htable, hright'⟩ := ButtonTable.exists_right_step hright call
      rw [← table_step] at htable
      obtain ⟨after, hstep, rfl⟩ := Option.map_eq_some_iff.mp htable
      refine ⟨after, ?_, hright', inv_step hinv hstep⟩
      rw [Runs.foldlM_concat, hrun]
      exact hstep

end PeerMenus

end SubutaiTray.Peer
