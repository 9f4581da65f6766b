import Mathlib.Data.List.Perm.Subperm
import SubutaiTray.Hub.EnvironmentCache

/-!
Two vectors of containers compared without their order (`VectorEq`).

The vectors must have one size and each container of the first one must be in the second one. How
often a container is there is not looked at.
-/
namespace SubutaiTray.Hub

/-- What `operator==` compares. -/
structure ContainerKey where
  name : QString
  ip : QString
  id : QString
  port : QString
  rhIp : QString
  isDesktop : Bool
  deriving DecidableEq

def CHubContainer.key (c : CHubContainer) : ContainerKey where
  name := c.name
  ip := c.ip
  id := c.id
  port := c.port
  rhIp := c.rhIp
  isDesktop := c.isDesktop

theorem CHubContainer.operatorEq_iff_key (a b : CHubContainer) :
    a.operatorEq b = true ↔ a.key = b.key := by
  rw [CHubContainer.operatorEq_iff, key, key, ContainerKey.mk.injEq]
  constructor
  · intro h
    exact ⟨h.name, h.ip, h.id, h.port, h.rhIp, h.isDesktop⟩
  · rintro ⟨hname, hip, hid, hport, hrhIp, hisDesktop⟩
    exact ⟨hname, hip, hid, hport, hrhIp, hisDesktop⟩

/-- The containers as `operator==` sees them. -/
def keys (cs : List CHubContainer) : List ContainerKey := cs.map CHubContainer.key

/-- One vector is a permutation of the other just if they compare equal, from either side. -/
structure VectorEqRight (arg1 arg2 : List CHubContainer) : Prop where
  perm : vectorEq CHubContainer.operatorEq arg1 arg2 = true ↔ (keys arg1).Perm (keys arg2)
  symmetric : vectorEq CHubContainer.operatorEq arg1 arg2 =
    vectorEq CHubContainer.operatorEq arg2 arg1

/-- Unless the sizes or the containers tell the vectors apart anyway, no container is more often in
the first one. -/
def NoneMoreOften (arg1 arg2 : List CHubContainer) : Prop :=
  arg1.length = arg2.length → keys arg1 ⊆ keys arg2 →
    ∀ key ∈ keys arg1, (keys arg1).count key ≤ (keys arg2).count key

theorem length_keys (cs : List CHubContainer) : (keys cs).length = cs.length := List.length_map _

theorem vectorEq_iff_subset (arg1 arg2 : List CHubContainer) :
    vectorEq CHubContainer.operatorEq arg1 arg2 = true ↔
      arg1.length = arg2.length ∧ keys arg1 ⊆ keys arg2 := by
  rw [vectorEq_iff]
  refine and_congr_right fun _ => ?_
  simp only [CHubContainer.operatorEq_iff_key]
  constructor
  · intro h key hkey
    obtain ⟨a, ha, rfl⟩ := List.mem_map.mp hkey
    obtain ⟨b, hb, heq⟩ := h a ha
    exact List.mem_map.mpr ⟨b, hb, heq.symm⟩
  · intro h a ha
    obtain ⟨b, hb, heq⟩ := List.mem_map.mp (h (List.mem_map_of_mem ha))
    exact ⟨b, hb, heq.symm⟩

theorem vectorEq_perm_iff (arg1 arg2 : List CHubContainer) :
    (vectorEq CHubContainer.operatorEq arg1 arg2 = true ↔ (keys arg1).Perm (keys arg2)) ↔
      NoneMoreOften arg1 arg2 := by
  rw [vectorEq_iff_subset]
  constructor
  · intro h hlength hsubset key _
    exact Nat.le_of_eq ((h.mp ⟨hlength, hsubset⟩).count_eq key)
  · intro h
    constructor
    · rintro ⟨hlength, hsubset⟩
      have hsub := List.subperm_ext_iff.mpr (h hlength hsubset)
      apply hsub.perm_of_length_le
      rw [length_keys, length_keys, hlength]
    · intro hperm
      refine ⟨?_, hperm.subset⟩
      rw [← length_keys, ← length_keys]
      exact hperm.length_eq

/-- The comparison is that of multisets just for the vectors of which none has a container more
often than the other one, if their sizes and containers agree. -/
theorem vectorEq_right_iff (arg1 arg2 : List CHubContainer) :
    VectorEqRight arg1 arg2 ↔ NoneMoreOften arg1 arg2 ∧ NoneMoreOften arg2 arg1 := by
  rw [← vectorEq_perm_iff arg1 arg2, ← vectorEq_perm_iff arg2 arg1]
  constructor
  · intro h
    refine ⟨h.perm, ?_⟩
    rw [← h.symmetric, h.perm]
    exact List.perm_comm
  · rintro ⟨hperm, hback⟩
    refine ⟨hperm, ?_⟩
    rw [Bool.eq_iff_iff, hperm, hback]
    exact List.perm_comm

def containerNamed (name : QString) : CHubContainer :=
  { name := name, ip := [], id := name, port := [], isDesktop := false, rhIp := [], rhId := [],
    peerId := [], deskEnv := [] }

/-- Twice the same container is taken for it and another one, but not the other way around. -/
theorem not_right_twice :
    ¬ VectorEqRight [containerNamed "web".toList, containerNamed "web".toList]
      [containerNamed "web".toList, containerNamed "db".toList] := by
  intro hright
  exact absurd hright.symmetric (by decide)

end SubutaiTray.Hub
