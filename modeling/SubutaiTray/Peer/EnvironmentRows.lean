import SubutaiTray.Library.Runs
import SubutaiTray.Library.Sweeping
import SubutaiTray.Qt.Numbers
import SubutaiTray.Qt.PlaceMarkers

/-!
The environments in the dialog of a peer (`DlgPeer::update_environments`).

A row is marked as deleted from one update to the next. An update takes the mark from the rows of
its environments; `removeEnvs` removes the marked rows and marks the others.
-/
namespace SubutaiTray.Peer

/-- `CMyPeerInfo::env_info` -/
structure EnvInfo where
  envId : Int
  envName : QString
  ownerId : Int
  ownerName : QString
  status : QString

/-- The texts of the labels of a row, and the mark. -/
structure EnvLabelInfo where
  envName : QString
  envUser : QString
  envStatus : QString
  isDeleted : Bool
  deriving DecidableEq

/-- What the dialog shows of environments. Over the rows stands their header or a text. -/
structure DlgPeerEnvs where
  hubAvailable : Bool
  envsAvailable : Bool
  header : Bool
  lblEnvInfo : Option QString
  envInfoTable : Std.ExtTreeMap Int EnvLabelInfo

/-- A call of `update_environments`, or of `addPeer`, in which a peer that is registered comes with
its environments. -/
inductive EnvEvent where
  | updateEnvironments (envs : List EnvInfo)
  | addPeer (hubPeer : Option (List EnvInfo))

namespace DlgPeerEnvs

def new : DlgPeerEnvs where
  hubAvailable := false
  envsAvailable := false
  header := true
  lblEnvInfo := some []
  envInfoTable := ∅

/-- The marked rows go, the others are marked. -/
def removeEnvs (d : DlgPeerEnvs) : DlgPeerEnvs :=
  { d with
    envInfoTable :=
      Sweeping.sweep EnvLabelInfo.isDeleted (fun row => { row with isDeleted := true }) d.envInfoTable }

def hideEnvs (d : DlgPeerEnvs) : DlgPeerEnvs :=
  if d.hubAvailable then
    { d with lblEnvInfo := some "No \"environments\" on this peer.".toList, header := false }
  else
    { d.removeEnvs with
      lblEnvInfo := some "This peer is not registered to your bazaar account".toList
      header := false }

/-- The row of an environment after its turn in the loop, be the row new or not. -/
def envRow (profileUrl : QString) (env : EnvInfo) : Int × EnvLabelInfo :=
  (env.envId,
    { envName := env.envName
      envUser := arg (arg "<a href=\"%1\">%2</a>".toList (profileUrl ++ number env.ownerId)) env.ownerName
      envStatus := env.status
      isDeleted := false })

def updateEnvironments (profileUrl : QString) (envs : List EnvInfo) (d : DlgPeerEnvs) : DlgPeerEnvs :=
  if envs ≠ [] then
    { d with
      header := true
      lblEnvInfo := none
      envsAvailable := true
      envInfoTable := Sweeping.note d.envInfoTable (envs.map (envRow profileUrl)) }.removeEnvs
  else { d with envsAvailable := false }.hideEnvs.removeEnvs

def addHubPeer (profileUrl : QString) (envs : List EnvInfo) (d : DlgPeerEnvs) : DlgPeerEnvs :=
  { d with hubAvailable := true }.updateEnvironments profileUrl envs

/-- Of the peer in the network and on the machine nothing is read here. -/
def addPeer (profileUrl : QString) (hubPeer : Option (List EnvInfo)) (d : DlgPeerEnvs) : DlgPeerEnvs :=
  match hubPeer with
  | some envs => d.addHubPeer profileUrl envs
  | none => { d with hubAvailable := false, envsAvailable := false }.hideEnvs

def step (profileUrl : QString) (d : DlgPeerEnvs) : EnvEvent → DlgPeerEnvs
  | .updateEnvironments envs => d.updateEnvironments profileUrl envs
  | .addPeer hubPeer => d.addPeer profileUrl hubPeer

/-! ## The rows after an event -/

/-- The rows are those of the environments, and all are marked again. -/
structure Shows (d : DlgPeerEnvs) (envs : List EnvInfo) : Prop where
  rows : ∀ id, id ∈ d.envInfoTable ↔ id ∈ envs.map EnvInfo.envId
  marked : ∀ (id : Int) (row : EnvLabelInfo), d.envInfoTable[id]? = some row → row.isDeleted = true

def Right (profileUrl : QString) (d : DlgPeerEnvs) (event : EnvEvent) : Prop :=
  match event with
  | .updateEnvironments envs | .addPeer (some envs) => (d.step profileUrl event).Shows envs
  | .addPeer none => (d.step profileUrl event).Shows []

/-- Between two events every row is marked. -/
def Marked (d : DlgPeerEnvs) : Prop := Sweeping.AllStale EnvLabelInfo.isDeleted d.envInfoTable

variable {d : DlgPeerEnvs}

theorem marked_removeEnvs : d.removeEnvs.Marked := by
  apply Sweeping.allStale_sweep
  intro _ _
  rfl

theorem shows_note (h : d.Marked) {profileUrl : QString} {envs : List EnvInfo} {d' : DlgPeerEnvs}
    (htable : d'.envInfoTable = Sweeping.note d.envInfoTable (envs.map (envRow profileUrl))) :
    d'.removeEnvs.Shows envs := by
  have hfresh : ∀ report ∈ envs.map (envRow profileUrl), report.2.isDeleted = false := by
    rw [List.forall_mem_map]
    intro _ _
    rfl
  refine ⟨fun id => ?_, fun id row hrow => marked_removeEnvs id row hrow⟩
  rw [← Std.ExtTreeMap.isSome_getElem?_iff_mem, removeEnvs, htable, Sweeping.getElem?_round h hfresh,
    Option.isSome_map]
  exact Sweeping.lastReport_map_isSome_iff (envRow profileUrl) envs id

theorem shows_removeEnvs (h : d.Marked) : d.removeEnvs.Shows [] :=
  @shows_note d h [] [] d rfl

/-- On an empty list the rows may be removed twice. -/
theorem shows_hideEnvs_removeEnvs (h : d.Marked) : d.hideEnvs.removeEnvs.Shows [] := by
  rw [hideEnvs]
  split
  · exact shows_removeEnvs h
  · exact shows_removeEnvs marked_removeEnvs

theorem shows_updateEnvironments (h : d.Marked) (profileUrl : QString) (envs : List EnvInfo) :
    (d.updateEnvironments profileUrl envs).Shows envs := by
  rw [updateEnvironments]
  split
  · exact shows_note h rfl
  · rename_i hnone
    rw [Ne, not_not] at hnone
    rw [hnone]
    exact shows_hideEnvs_removeEnvs h

theorem right_of_marked (h : d.Marked) (profileUrl : QString) (event : EnvEvent) :
    d.Right profileUrl event := by
  cases event with
  | updateEnvironments envs => exact shows_updateEnvironments h profileUrl envs
  | addPeer hubPeer =>
      cases hubPeer with
      | some envs => exact @shows_updateEnvironments { d with hubAvailable := true } h profileUrl envs
      | none =>
          have hempty := @shows_removeEnvs d h
          exact ⟨hempty.rows, hempty.marked⟩

theorem marked_step (profileUrl : QString) (d : DlgPeerEnvs) (event : EnvEvent) (h : d.Marked) :
    (d.step profileUrl event).Marked := by
  have hright := right_of_marked h profileUrl event
  cases event with
  | updateEnvironments envs => exact hright.marked
  | addPeer hubPeer =>
      cases hubPeer with
      | some envs => exact hright.marked
      | none => exact hright.marked

/-- After every event of a run the rows are those of the environments that came with it. -/
theorem rows_right (profileUrl : QString) (events : List EnvEvent) :
    Runs.EachStep (step profileUrl) (Right profileUrl) new events := by
  intro past event _
  apply right_of_marked
  refine Runs.invariant ?_ (marked_step profileUrl) past
  intro id row hrow
  exact absurd hrow Lookups.empty_ne_some

end DlgPeerEnvs

end SubutaiTray.Peer
