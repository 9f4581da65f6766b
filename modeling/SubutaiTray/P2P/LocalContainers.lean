import SubutaiTray.Library.Runs
import SubutaiTray.Library.Sweeping
import SubutaiTray.P2P.Connector
import SubutaiTray.P2P.Swarms
import SubutaiTray.Peer.ConfigFile
import SubutaiTray.Qt.StdMap

/-!
Which containers run on this machine (`P2PConnector::update_status`, `rh_local_tbl`).

A desktop peer has a directory for each of its containers, and the names of their hosts are compared with
the names of the containers at the hub. The table is kept by peers, while it is filled container by
container, and it is left as it is when there is no container on the machine. So it tells what was written
last (`isContInMachine_run`).
-/
namespace SubutaiTray.P2P

open SubutaiTray.Hub

/-- The file `rootfs/etc/hostname` of a container. -/
inductive Hostfile where
  | missing
  | unreadable
  | line (text : QString)

/-- What stands in `/var/lib/lxc`. -/
structure LxcDirectory where
  entryInfoList : List QString
  hostfile : QString → Hostfile

/-- A file that does not open ends the search. -/
def LxcDirectory.hostnames (directory : LxcDirectory) : List QString → List QString
  | [] => []
  | fileName :: rest =>
      if fileName = ".".toList ∨ fileName = "..".toList then directory.hostnames rest
      else
        match directory.hostfile (Peer.trimmed fileName) with
        | .missing => directory.hostnames rest
        | .unreadable => []
        | .line text => text :: directory.hostnames rest

def matchesLocal (localContainers : List QString) (cont : CHubContainer) : Bool :=
  localContainers.any fun localCont => (indexOf cont.name localCont).isSome

def hubContainers (hubEnvironments : List CEnvironment) : List CHubContainer :=
  hubEnvironments.flatMap CEnvironment.lstContainers

/-- What a round writes into the table, in its order. -/
def localReports (hubEnvironments : List CEnvironment) (localContainers : List QString) :
    List (QString × Bool) :=
  if localContainers = [] then []
  else (hubContainers hubEnvironments).map fun cont => (cont.peerId, matchesLocal localContainers cont)

/-- The table, with the containers at the hub and on the machine at the last round. -/
structure LocalTable where
  rhLocalTbl : StdMap Bool
  hubEnvironments : List CEnvironment
  localContainers : List QString

structure LocalRound where
  hubEnvironments : List CEnvironment
  isDesktopPeer : Bool
  directory : Option LxcDirectory

/-- `local_containers` -/
def LocalRound.onMachine (round : LocalRound) : List QString :=
  if round.isDesktopPeer then
    round.directory.elim [] fun directory => directory.hostnames directory.entryInfoList
  else []

namespace LocalTable

def new : LocalTable := { rhLocalTbl := ∅, hubEnvironments := [], localContainers := [] }

/-- `is_cont_in_machine` -/
def isContInMachine (table : LocalTable) (peerId : QString) : Bool :=
  (table.rhLocalTbl[peerId]?).getD false

/-- The first part of `update_status`. -/
def updateStatus (table : LocalTable) (round : LocalRound) : LocalTable :=
  { rhLocalTbl := Sweeping.note table.rhLocalTbl (localReports round.hubEnvironments round.onMachine)
    hubEnvironments := round.hubEnvironments
    localContainers := round.onMachine }

/-- A peer of a listed container counts as local when one of its containers runs on the machine. -/
def Right (table : LocalTable) : Prop :=
  ∀ peerId ∈ (hubContainers table.hubEnvironments).map CHubContainer.peerId,
    table.isContInMachine peerId = true ↔
      ∃ cont ∈ hubContainers table.hubEnvironments,
        cont.peerId = peerId ∧ matchesLocal table.localContainers cont = true

/-- With no container on the machine no listed peer is local yet; otherwise, of the containers of a peer
the last one is on the machine if any is. -/
def Harmless (table : LocalTable) (round : LocalRound) : Prop :=
  if round.onMachine = [] then
    ∀ cont ∈ hubContainers round.hubEnvironments, table.isContInMachine cont.peerId = false
  else
    ∀ cont ∈ hubContainers round.hubEnvironments, matchesLocal round.onMachine cont = true →
      ∀ last,
        ((hubContainers round.hubEnvironments).filter fun other =>
          other.peerId = cont.peerId).getLast? = some last → matchesLocal round.onMachine last = true

variable {table : LocalTable}

/-- The table tells what was written last, in whatever round that was. -/
theorem isContInMachine_run (rounds : List LocalRound) (peerId : QString) :
    (rounds.foldl updateStatus table).isContInMachine peerId =
      ((Sweeping.lastReport
          (rounds.flatMap fun round => localReports round.hubEnvironments round.onMachine) peerId).or
        (table.rhLocalTbl[peerId]?)).getD false := by
  rw [isContInMachine, ← Sweeping.getElem?_note]
  induction rounds generalizing table with
  | nil => rfl
  | cons round rounds ih =>
      rw [List.foldl_cons, ih, List.flatMap_cons, Sweeping.note, Sweeping.note, List.foldl_append]
      rfl

theorem isContInMachine_updateStatus (round : LocalRound) (peerId : QString) :
    (table.updateStatus round).isContInMachine peerId =
      ((Sweeping.lastReport (localReports round.hubEnvironments round.onMachine) peerId).or
        (table.rhLocalTbl[peerId]?)).getD false := by
  rw [isContInMachine, updateStatus, Sweeping.getElem?_note]

/-- Nobody is matched by an empty list. -/
theorem matchesLocal_nil (cont : CHubContainer) : matchesLocal [] cont = false := rfl

theorem lastReport_localReports {hubEnvironments : List CEnvironment} {localContainers : List QString}
    (hsome : localContainers ≠ []) (peerId : QString) :
    Sweeping.lastReport (localReports hubEnvironments localContainers) peerId =
      (((hubContainers hubEnvironments).filter fun cont => cont.peerId = peerId).getLast?).map
        (matchesLocal localContainers) := by
  rw [localReports, if_neg hsome, Sweeping.lastReport, List.filter_map, List.getLast?_map, Option.map_map]
  rfl

/-- With no container on the machine the table is left as it is, and should say no. -/
theorem right_updateStatus_of_nil {round : LocalRound}
    (hnone : round.onMachine = []) :
    (table.updateStatus round).Right ↔ table.Harmless round := by
  have hsame (peerId : QString) :
      (table.updateStatus round).isContInMachine peerId = table.isContInMachine peerId := by
    rw [isContInMachine_updateStatus, hnone]
    rfl
  have hnobody : ¬ ∃ cont ∈ hubContainers round.hubEnvironments,
      matchesLocal round.onMachine cont = true := by
    simp [hnone, matchesLocal_nil]
  rw [Right, Harmless, if_pos hnone, List.forall_mem_map]
  refine forall₂_congr ?_
  intro cont hmem
  rw [hsame, ← Bool.not_eq_true]
  constructor
  · intro hright hlocal
    obtain ⟨other, hother, -, hmatch⟩ := hright.mp hlocal
    exact hnobody ⟨other, hother, hmatch⟩
  · intro hnot
    refine iff_of_false hnot ?_
    rintro ⟨other, hother, -, hmatch⟩
    exact hnobody ⟨other, hother, hmatch⟩

theorem right_updateStatus_of_ne_nil {round : LocalRound}
    (hsome : round.onMachine ≠ []) :
    (table.updateStatus round).Right ↔ table.Harmless round := by
  rw [Harmless, if_neg hsome, Right, List.forall_mem_map]
  have hvalue (peerId : QString) (last : CHubContainer)
      (hlast : ((hubContainers round.hubEnvironments).filter fun cont =>
        cont.peerId = peerId).getLast? = some last) :
      (table.updateStatus round).isContInMachine peerId =
        matchesLocal round.onMachine last := by
    rw [isContInMachine_updateStatus, lastReport_localReports hsome, hlast]
    rfl
  constructor
  · intro hright cont hmem hmatch last hlast
    rw [← hvalue cont.peerId last hlast]
    exact (hright cont hmem).mpr ⟨cont, hmem, rfl, hmatch⟩
  · intro hharmless cont hmem
    have hlisted :
        ((hubContainers round.hubEnvironments).filter fun other => other.peerId = cont.peerId) ≠ [] :=
      List.ne_nil_of_mem (List.mem_filter.mpr ⟨hmem, decide_eq_true rfl⟩)
    have hlast := List.getLast?_eq_some_getLast hlisted
    have hlastMem := List.mem_filter.mp (List.getLast_mem hlisted)
    rw [hvalue cont.peerId _ hlast]
    constructor
    · intro hmatch
      exact ⟨_, hlastMem.1, of_decide_eq_true hlastMem.2, hmatch⟩
    · rintro ⟨other, hother, hpeer, hmatch⟩
      refine hharmless other hother hmatch _ ?_
      rw [hpeer]
      exact hlast

theorem right_updateStatus_iff (round : LocalRound) :
    (table.updateStatus round).Right ↔ table.Harmless round := by
  by_cases hnone : round.onMachine = []
  · exact right_updateStatus_of_nil hnone
  · exact right_updateStatus_of_ne_nil hnone

theorem right_new : new.Right := fun _ hmem => absurd hmem List.not_mem_nil

/-- The table is right after every round exactly in the runs of harmless rounds. -/
theorem tellsLocal_iff_harmless (rounds : List LocalRound) :
    Runs.Always updateStatus Right new rounds ↔ Runs.EachStep updateStatus Harmless new rounds :=
  Runs.always_iff_eachStep_of_turn right_new (fun _ round _ => right_updateStatus_iff round) rounds

end LocalTable

end SubutaiTray.P2P
