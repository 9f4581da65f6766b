import SubutaiTray.Hub.Controller
import Mathlib.Data.List.Forall2

/-!
The environment cache after a reply.

The reply is compared with the cached list before it is stored, and the comparison
does not look at all fields. What it takes for equal stays as it was.
-/
namespace SubutaiTray.Hub

structure HubController.Holds (hub : HubController) (lst : List CEnvironment) : Prop where
  lstEnvironments : hub.lstEnvironments = lst
  lstHealthyEnvironments : hub.lstHealthyEnvironments = lst.filter CEnvironment.healthy

structure HubController.SameLists (hub hub' : HubController) : Prop where
  lstEnvironments : hub'.lstEnvironments = hub.lstEnvironments
  lstHealthyEnvironments : hub'.lstHealthyEnvironments = hub.lstHealthyEnvironments

def EnvironmentsReply.Success (reply : EnvironmentsReply) : Prop :=
  reply.errCode = reSuccess ∧ reply.networkError = 0

/-- A successful reply is stored, and any other one leaves the lists alone. -/
structure HubController.CacheRight (reply : EnvironmentsReply) (hub hub' : HubController) :
    Prop where
  success : reply.Success → hub'.Holds reply.lstEnvironments
  failure : ¬ reply.Success → hub.SameLists hub'

/-- Equal but for the resource host's id, the peer and the desktop. -/
structure CHubContainer.Alike (a b : CHubContainer) : Prop where
  name : a.name = b.name
  ip : a.ip = b.ip
  id : a.id = b.id
  port : a.port = b.port
  rhIp : a.rhIp = b.rhIp
  isDesktop : a.isDesktop = b.isDesktop

/-- Equal but for the hub id, the interface, and containers that are as many and each
alike to one on the other side. -/
structure CEnvironment.Alike (a b : CEnvironment) : Prop where
  id : a.id = b.id
  name : a.name = b.name
  hash : a.hash = b.hash
  aesKey : a.aesKey = b.aesKey
  ttl : a.ttl = b.ttl
  status : a.status = b.status
  statusDescr : a.statusDescr = b.statusDescr
  containerCount : a.lstContainers.length = b.lstContainers.length
  containers : ∀ c ∈ a.lstContainers, ∃ d ∈ b.lstContainers, c.Alike d

theorem CHubContainer.operatorEq_iff (a b : CHubContainer) :
    a.operatorEq b = true ↔ a.Alike b := by
  simp only [CHubContainer.operatorEq, Bool.and_eq_true, decide_eq_true_eq, and_assoc]
  constructor
  · intro h
    obtain ⟨hname, hip, hid, hport, hrh, hdesktop⟩ := h
    exact ⟨hname, hip, hid, hport, hrh, hdesktop⟩
  · intro h
    exact ⟨h.name, h.ip, h.id, h.port, h.rhIp, h.isDesktop⟩

theorem vectorEq_iff {α : Type} (operatorEq : α → α → Bool) (as bs : List α) :
    vectorEq operatorEq as bs = true ↔
      as.length = bs.length ∧ ∀ a ∈ as, ∃ b ∈ bs, operatorEq a b = true := by
  simp [vectorEq]

theorem CEnvironment.operatorEq_iff (a b : CEnvironment) :
    a.operatorEq b = true ↔ a.Alike b := by
  simp only [CEnvironment.operatorEq, Bool.and_eq_true, decide_eq_true_eq, and_assoc,
    vectorEq_iff, CHubContainer.operatorEq_iff]
  constructor
  · intro h
    obtain ⟨hid, hname, hhash, hkey, httl, hstatus, hdescr, hcount, hall⟩ := h
    exact ⟨hid, hname, hhash, hkey, httl, hstatus, hdescr, hcount, hall⟩
  · intro h
    exact ⟨h.id, h.name, h.hash, h.aesKey, h.ttl, h.status, h.statusDescr, h.containerCount,
      h.containers⟩

theorem stdVectorEq_iff (as bs : List CEnvironment) :
    stdVectorEq CEnvironment.operatorEq as bs = true ↔
      List.Forall₂ CEnvironment.Alike as bs := by
  induction as generalizing bs with
  | nil => cases bs <;> simp [stdVectorEq]
  | cons a as ih =>
      cases bs with
      | nil => simp [stdVectorEq]
      | cons b bs => simp [stdVectorEq, ih, CEnvironment.operatorEq_iff]

variable (hub : HubController) (reply : EnvironmentsReply)

theorem HubController.storeEnvironments_of_success (h : reply.Success) :
    (hub.storeEnvironments reply).1.Holds reply.lstEnvironments ↔
      ¬ List.Forall₂ CEnvironment.Alike reply.lstEnvironments hub.lstEnvironmentsInternal ∨
        hub.Holds reply.lstEnvironments := by
  have hpass : ¬ (reply.errCode ≠ 0 ∨ reply.networkError ≠ 0) := by
    rw [h.1, h.2]
    decide
  rw [storeEnvironments, if_neg hpass]
  by_cases hsame : stdVectorEq CEnvironment.operatorEq reply.lstEnvironments
      hub.lstEnvironmentsInternal = true
  · rw [if_pos hsame]
    have halike := (stdVectorEq_iff _ _).mp hsame
    exact ⟨Or.inr, fun h => h.resolve_left (not_not.mpr halike)⟩
  · rw [if_neg hsame]
    have hdiffers := mt (stdVectorEq_iff _ _).mpr hsame
    exact ⟨fun _ => Or.inl hdiffers, fun _ => ⟨rfl, rfl⟩⟩

theorem HubController.storeEnvironments_of_failure (h : ¬ reply.Success) :
    hub.storeEnvironments reply = (hub, none) := by
  have hfail : reply.errCode ≠ 0 ∨ reply.networkError ≠ 0 := by
    by_contra hno
    rw [not_or, not_not, not_not] at hno
    exact h hno
  rw [storeEnvironments, if_pos hfail]

theorem HubController.environmentsLoginReturned_sameLists (lerr : Int) (h : ¬ reply.Success) :
    hub.SameLists (hub.environmentsLoginReturned reply lerr).1 := by
  rw [environmentsLoginReturned]
  split
  · rw [storeEnvironments_of_failure _ reply h]
    dsimp only
    split
    · exact ⟨rfl, rfl⟩
    · exact ⟨rfl, rfl⟩
  · exact ⟨rfl, rfl⟩

theorem HubController.handleEnvironmentsReply_of_failure (lerr : Int) (h : ¬ reply.Success) :
    hub.SameLists (hub.handleEnvironmentsReply reply lerr) := by
  rw [handleEnvironmentsReply, onEnvironmentsUpdatedSl]
  by_cases hjson : reply.errCode = reNotJsonDoc
  · rw [if_pos hjson, if_pos hjson]
    have hsame := HubController.environmentsLoginReturned_sameLists
      { hub.countUpdated with logins := hub.logins } reply lerr h
    exact ⟨hsame.lstEnvironments, hsame.lstHealthyEnvironments⟩
  · rw [if_neg hjson, if_neg hjson, storeEnvironments_of_failure _ reply h]
    exact ⟨rfl, rfl⟩

/-- The cache is right after a reply unless the reply is alike to the cached list
without being what the lists hold. -/
theorem HubController.cacheRight_iff (lerr : Int) :
    hub.CacheRight reply (hub.handleEnvironmentsReply reply lerr) ↔
      (reply.Success →
        ¬ List.Forall₂ CEnvironment.Alike reply.lstEnvironments hub.lstEnvironmentsInternal ∨
          hub.Holds reply.lstEnvironments) := by
  have hfailure : ¬ reply.Success → hub.SameLists (hub.handleEnvironmentsReply reply lerr) :=
    hub.handleEnvironmentsReply_of_failure reply lerr
  have hsuccess (h : reply.Success) :
      (hub.handleEnvironmentsReply reply lerr).Holds reply.lstEnvironments ↔
        ¬ List.Forall₂ CEnvironment.Alike reply.lstEnvironments hub.lstEnvironmentsInternal ∨
          hub.Holds reply.lstEnvironments := by
    have hjson : ¬ reply.errCode = reNotJsonDoc := by
      rw [h.1]
      decide
    have hholds : hub.countUpdated.Holds reply.lstEnvironments ↔ hub.Holds reply.lstEnvironments :=
      ⟨fun h => ⟨h.1, h.2⟩, fun h => ⟨h.1, h.2⟩⟩
    rw [handleEnvironmentsReply, onEnvironmentsUpdatedSl, if_neg hjson, if_neg hjson, ← hholds]
    exact hub.countUpdated.storeEnvironments_of_success reply h
  constructor
  · intro hright h
    exact (hsuccess h).mp (hright.success h)
  · intro hcond
    exact ⟨fun h => (hsuccess h).mpr (hcond h), hfailure⟩

def sampleEnvironment (hubId : Int) : CEnvironment :=
  { name := "env".toList, hash := "swarm".toList, aesKey := "key".toList, ttl := "60".toList,
    id := "e1".toList, hubId := hubId, status := "HEALTHY".toList, statusDescr := [],
    baseInterfaceId := -1, lstContainers := [] }

/-- The page of an environment is opened by its hub id; a new one is not stored. -/
theorem not_cacheRight_new_hubId :
    ¬ HubController.CacheRight ⟨[sampleEnvironment 2], 0, 0⟩
      (HubController.new.handleEnvironmentsReply ⟨[sampleEnvironment 1], 0, 0⟩ 0)
      ((HubController.new.handleEnvironmentsReply ⟨[sampleEnvironment 1], 0, 0⟩ 0).handleEnvironmentsReply
        ⟨[sampleEnvironment 2], 0, 0⟩ 0) := by
  intro hright
  have hholds := (hright.success ⟨rfl, rfl⟩).lstEnvironments
  exact absurd hholds (by decide +kernel)

end SubutaiTray.Hub
