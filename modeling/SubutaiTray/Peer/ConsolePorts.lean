import Mathlib.Data.List.Pairwise
import SubutaiTray.Library.LeastGap
import SubutaiTray.Library.Runs
import SubutaiTray.Process.SystemCall
import SubutaiTray.Qt.Numbers

/-!
The console ports of new peers (`DlgCreatePeer::reserve_new_port` and the reservation
in `DlgCreatePeer::create_button_pressed`).

The slot waits for `reserve_new_port`, so nothing is reserved or given back between
the choice of a port and its reservation.
-/
namespace SubutaiTray.Peer

open LeastGap

/-- What is left of a port without `[^0-9]`, as a number. -/
def curPort (curPortStr : QString) : Int := toInt (curPortStr.filter Char.isDigit)

/-- The folders of the global status. -/
def vagrantPeers (rs : SystemCallRes) : List QString :=
  if rs.res = .success ∧ rs.exitCode = 0 ∧ rs.out ≠ [] then rs.out else []

def usedPorts (rs : SystemCallRes) (vagrantPort : QString → QString) (reservedPorts : List Int) :
    List Int :=
  9998 :: (((vagrantPeers rs).map fun dir => curPort (vagrantPort dir)).filter (9999 ≤ ·) ++
    reservedPorts)

/-- The loop over the sorted ports. -/
def minimumNotUsed : List Int → Int
  | [] => 9999
  | p :: rest => gapAfter p rest

def reserveNewPort (rs : SystemCallRes) (vagrantPort : QString → QString)
    (reservedPorts : List Int) : Int :=
  minimumNotUsed ((usedPorts rs vagrantPort reservedPorts).insertionSort (· ≤ ·))

/-- A time-out of two minutes that has not come yet, and the port it will give back. -/
structure Reservation where
  creation : Nat
  port : Int
  deriving DecidableEq

def Reservation.Apart (a b : Reservation) : Prop := a.creation ≠ b.creation ∧ a.port ≠ b.port

instance : Std.Symm Reservation.Apart where
  symm _ _ h := ⟨h.1.symm, h.2.symm⟩

structure PortReservations where
  reservedPorts : List Int
  timeouts : List Reservation
  creations : Nat
  deriving DecidableEq

inductive PortEvent where
  | createButtonPressed (rs : SystemCallRes) (vagrantPort : QString → QString)
  | timeout (creation : Nat)

namespace PortReservations

def new : PortReservations where
  reservedPorts := []
  timeouts := []
  creations := 0

def createButtonPressed (rs : SystemCallRes) (vagrantPort : QString → QString)
    (s : PortReservations) : PortReservations :=
  let port := reserveNewPort rs vagrantPort s.reservedPorts
  { reservedPorts := s.reservedPorts.insert port
    timeouts := ⟨s.creations, port⟩ :: s.timeouts
    creations := s.creations + 1 }

def timeout (reservation : Reservation) (s : PortReservations) : PortReservations :=
  { s with
    reservedPorts := s.reservedPorts.filter (· ≠ reservation.port)
    timeouts := s.timeouts.filter (· ≠ reservation) }

def step (s : PortReservations) : PortEvent → Option PortReservations
  | .createButtonPressed rs vagrantPort => some (s.createButtonPressed rs vagrantPort)
  | .timeout creation =>
      (s.timeouts.find? (·.creation = creation)).map fun reservation => s.timeout reservation

end PortReservations

section
variable {rs : SystemCallRes} {vagrantPort : QString → QString} {reservedPorts : List Int}

theorem mem_usedPorts {k : Int} (h : 9998 < k) :
    k ∈ usedPorts rs vagrantPort reservedPorts ↔
      (∃ dir ∈ vagrantPeers rs, curPort (vagrantPort dir) = k) ∨ k ∈ reservedPorts := by
  have hfirst : k ≠ 9998 := by omega
  have hlarge : decide (9999 ≤ k) = true := decide_eq_true h
  rw [usedPorts, List.mem_cons, List.mem_append, List.mem_filter, List.mem_map, and_iff_left hlarge]
  exact or_iff_right hfirst

theorem le_of_mem_usedPorts (hreserved : ∀ port ∈ reservedPorts, 9999 ≤ port) {k : Int}
    (h : k ∈ usedPorts rs vagrantPort reservedPorts) : 9998 ≤ k := by
  rw [usedPorts, List.mem_cons, List.mem_append, List.mem_filter] at h
  obtain heq | ⟨-, hlarge⟩ | hmem := h
  · omega
  · have := of_decide_eq_true hlarge
    omega
  · have := hreserved k hmem
    omega

/-- Sorted, the used ports begin with the port before the first one. -/
theorem sorted_usedPorts (hreserved : ∀ port ∈ reservedPorts, 9999 ≤ port) :
    ∃ rest, (usedPorts rs vagrantPort reservedPorts).insertionSort (· ≤ ·) = 9998 :: rest := by
  have hsorted := List.pairwise_insertionSort (· ≤ · : Int → Int → Prop)
    (usedPorts rs vagrantPort reservedPorts)
  have hperm := List.perm_insertionSort (· ≤ · : Int → Int → Prop)
    (usedPorts rs vagrantPort reservedPorts)
  have hmem : (9998 : Int) ∈ (usedPorts rs vagrantPort reservedPorts).insertionSort (· ≤ ·) :=
    hperm.mem_iff.mpr List.mem_cons_self
  cases heq : (usedPorts rs vagrantPort reservedPorts).insertionSort (· ≤ ·) with
  | nil =>
      rw [heq] at hmem
      exact absurd hmem List.not_mem_nil
  | cons p rest =>
      rw [heq] at hmem hsorted hperm
      have hlow : 9998 ≤ p :=
        le_of_mem_usedPorts hreserved (hperm.mem_iff.mp List.mem_cons_self)
      have hhigh : p ≤ 9998 := by
        cases List.mem_cons.mp hmem with
        | inl hsame => omega
        | inr hlater => exact (List.pairwise_cons.mp hsorted).1 9998 hlater
      exact ⟨rest, congrArg (· :: rest) (Int.le_antisymm hhigh hlow)⟩

theorem isLeast_reserveNewPort (hreserved : ∀ port ∈ reservedPorts, 9999 ≤ port) :
    IsLeast {port : Int | 9999 ≤ port ∧ (∀ dir ∈ vagrantPeers rs, curPort (vagrantPort dir) ≠ port) ∧
      port ∉ reservedPorts} (reserveNewPort rs vagrantPort reservedPorts) := by
  obtain ⟨rest, heq⟩ := @sorted_usedPorts rs vagrantPort reservedPorts hreserved
  have hsorted := List.pairwise_insertionSort (· ≤ · : Int → Int → Prop)
    (usedPorts rs vagrantPort reservedPorts)
  have hperm := List.perm_insertionSort (· ≤ · : Int → Int → Prop)
    (usedPorts rs vagrantPort reservedPorts)
  rw [heq] at hsorted hperm
  have hset : {port : Int | 9999 ≤ port ∧
      (∀ dir ∈ vagrantPeers rs, curPort (vagrantPort dir) ≠ port) ∧ port ∉ reservedPorts} =
      {k | 9998 < k ∧ k ∉ rest} := by
    ext k
    refine and_congr_right fun hk => ?_
    have hfirst : k ≠ 9998 := by omega
    rw [← or_iff_right (a := k = 9998) (b := k ∈ rest) hfirst, ← List.mem_cons,
      hperm.mem_iff, mem_usedPorts hk, not_or, not_exists]
    refine and_congr_left' (forall_congr' fun dir => ?_)
    rw [not_and]
  rw [hset, reserveNewPort, heq]
  exact isLeast_gapAfter hsorted

theorem reserveNewPort_le (hreserved : ∀ port ∈ reservedPorts, 9999 ≤ port) :
    reserveNewPort rs vagrantPort reservedPorts ≤
      9998 + (usedPorts rs vagrantPort reservedPorts).length := by
  obtain ⟨rest, heq⟩ := @sorted_usedPorts rs vagrantPort reservedPorts hreserved
  have hlength := List.length_insertionSort (· ≤ · : Int → Int → Prop)
    (usedPorts rs vagrantPort reservedPorts)
  rw [heq, List.length_cons] at hlength
  have hgap := gapAfter_le 9998 rest
  rw [reserveNewPort, heq, minimumNotUsed]
  omega

end

namespace PortReservations

/-- What is reserved is what has not timed out, and no port is reserved twice. -/
structure Inv (s : PortReservations) : Prop where
  apart : s.timeouts.Pairwise Reservation.Apart
  reserved : ∀ port, port ∈ s.reservedPorts ↔ ∃ reservation ∈ s.timeouts, reservation.port = port
  large : ∀ port ∈ s.reservedPorts, 9999 ≤ port
  numbered : ∀ reservation ∈ s.timeouts, reservation.creation < s.creations

theorem inv_new : new.Inv where
  apart := List.Pairwise.nil
  reserved port := by simp [new]
  large port h := absurd h List.not_mem_nil
  numbered reservation h := absurd h List.not_mem_nil

variable {s s' : PortReservations}

theorem Inv.createButtonPressed (h : s.Inv) (rs : SystemCallRes) (vagrantPort : QString → QString) :
    (s.createButtonPressed rs vagrantPort).Inv := by
  obtain ⟨hlow, -, hfree⟩ := (@isLeast_reserveNewPort rs vagrantPort s.reservedPorts h.large).1
  rw [PortReservations.createButtonPressed]
  constructor
  · refine List.pairwise_cons.mpr ⟨?_, h.apart⟩
    intro reservation hmem
    constructor
    · exact Nat.ne_of_gt (h.numbered reservation hmem)
    · intro heq
      exact hfree ((h.reserved _).mpr ⟨reservation, hmem, heq.symm⟩)
  · intro port
    rw [List.mem_insert_iff, h.reserved]
    constructor
    · rintro (rfl | ⟨reservation, hmem, heq⟩)
      · exact ⟨_, List.mem_cons_self, rfl⟩
      · exact ⟨reservation, List.mem_cons_of_mem _ hmem, heq⟩
    · rintro ⟨reservation, hmem, rfl⟩
      cases List.mem_cons.mp hmem with
      | inl heq => exact Or.inl (congrArg Reservation.port heq)
      | inr hold => exact Or.inr ⟨reservation, hold, rfl⟩
  · intro port hmem
    cases List.mem_insert_iff.mp hmem with
    | inl heq => exact heq ▸ hlow
    | inr hold => exact h.large port hold
  · intro reservation hmem
    cases List.mem_cons.mp hmem with
    | inl heq =>
        rw [heq]
        exact Nat.lt_succ_self s.creations
    | inr hold => exact Nat.lt_succ_of_lt (h.numbered reservation hold)

theorem Inv.eq_of_port (h : s.Inv) {a b : Reservation} (ha : a ∈ s.timeouts) (hb : b ∈ s.timeouts)
    (hport : a.port = b.port) : a = b := by
  by_contra hne
  exact (h.apart.forall ha hb hne).2 hport

theorem mem_timeouts_timeout {reservation other : Reservation} :
    other ∈ (s.timeout reservation).timeouts ↔ other ∈ s.timeouts ∧ other ≠ reservation := by
  rw [timeout, List.mem_filter, decide_eq_true_eq]

theorem mem_reservedPorts_timeout {reservation : Reservation} {port : Int} :
    port ∈ (s.timeout reservation).reservedPorts ↔
      port ∈ s.reservedPorts ∧ port ≠ reservation.port := by
  rw [timeout, List.mem_filter, decide_eq_true_eq]

theorem Inv.timeout (h : s.Inv) {reservation : Reservation} (hmem : reservation ∈ s.timeouts) :
    (s.timeout reservation).Inv := by
  constructor
  · exact h.apart.filter _
  · intro port
    rw [mem_reservedPorts_timeout, h.reserved]
    constructor
    · rintro ⟨⟨other, hother, rfl⟩, hne⟩
      exact ⟨other, mem_timeouts_timeout.mpr ⟨hother, fun heq => hne (congrArg _ heq)⟩, rfl⟩
    · rintro ⟨other, hother, rfl⟩
      obtain ⟨hold, hne⟩ := mem_timeouts_timeout.mp hother
      exact ⟨⟨other, hold, rfl⟩, fun heq => hne (h.eq_of_port hold hmem heq)⟩
  · intro port hport
    exact h.large port (mem_reservedPorts_timeout.mp hport).1
  · intro other hother
    exact h.numbered other (mem_timeouts_timeout.mp hother).1

theorem step_timeout {creation : Nat} (hstep : s.step (.timeout creation) = some s') :
    ∃ reservation ∈ s.timeouts, reservation.creation = creation ∧ s' = s.timeout reservation := by
  obtain ⟨reservation, hfind, heq⟩ := Option.map_eq_some_iff.mp hstep
  have hcreation := List.find?_some hfind
  exact ⟨reservation, List.mem_of_find?_eq_some hfind, of_decide_eq_true hcreation, heq.symm⟩

theorem Inv.step (h : s.Inv) {event : PortEvent} (hstep : s.step event = some s') : s'.Inv := by
  cases event with
  | createButtonPressed rs vagrantPort =>
      rw [← Option.some.inj hstep]
      exact h.createButtonPressed rs vagrantPort
  | timeout creation =>
      obtain ⟨reservation, hmem, -, rfl⟩ := step_timeout hstep
      exact h.timeout hmem

theorem inv_of_run {events : List PortEvent}
    (hrun : events.foldlM PortReservations.step new = some s) : s.Inv :=
  Runs.invariant_of_foldlM inv_new (fun _ _ _ hinv hstep => hinv.step hstep) hrun

end PortReservations

/-- The port is the least from 9999 on that is neither reported nor reserved. No two
reservations that have not timed out are of one port, and a time-out gives back the
port of its own reservation and no other. -/
theorem console_ports_never_clash :
    (∀ (rs : SystemCallRes) (vagrantPort : QString → QString) (reservedPorts : List Int),
      (∀ port ∈ reservedPorts, 9999 ≤ port) →
      IsLeast {port : Int | 9999 ≤ port ∧
        (∀ dir ∈ vagrantPeers rs, curPort (vagrantPort dir) ≠ port) ∧ port ∉ reservedPorts}
        (reserveNewPort rs vagrantPort reservedPorts)) ∧
    ∀ (events : List PortEvent) (s : PortReservations),
      events.foldlM PortReservations.step PortReservations.new = some s →
      (∀ port ∈ s.reservedPorts, 9999 ≤ port) ∧
      s.timeouts.Pairwise Reservation.Apart ∧
      ∀ (creation : Nat) (s' : PortReservations), s.step (.timeout creation) = some s' →
        ∃ reservation ∈ s.timeouts, reservation.creation = creation ∧
          (∀ port, port ∈ s'.reservedPorts ↔
            port ∈ s.reservedPorts ∧ port ≠ reservation.port) ∧
          ∀ other ∈ s.timeouts, other.creation ≠ creation →
            other ∈ s'.timeouts ∧ other.port ∈ s'.reservedPorts := by
  refine ⟨fun rs vagrantPort reservedPorts => isLeast_reserveNewPort, ?_⟩
  intro events s hrun
  have hinv := PortReservations.inv_of_run hrun
  refine ⟨hinv.large, hinv.apart, ?_⟩
  intro creation s' hstep
  have hnext := hinv.step hstep
  obtain ⟨reservation, hmem, hcreation, rfl⟩ := PortReservations.step_timeout hstep
  refine ⟨reservation, hmem, hcreation, fun port => PortReservations.mem_reservedPorts_timeout, ?_⟩
  intro other hother hne
  have hkept : other ∈ (s.timeout reservation).timeouts := by
    rw [PortReservations.mem_timeouts_timeout]
    exact ⟨hother, fun heq => hne (heq ▸ hcreation)⟩
  exact ⟨hkept, (hnext.reserved other.port).mpr ⟨other, hkept, rfl⟩⟩

/-- A peer reports the port 10000; a port is created twice and the first reservation
times out. -/
theorem console_ports_never_clash_twice :
    let rs : SystemCallRes := ⟨.success, ["/peers/one".toList], 0⟩
    let vagrantPort : QString → QString := fun _ => "10000".toList
    let twice : PortReservations := ⟨[10001, 9999], [⟨1, 10001⟩, ⟨0, 9999⟩], 2⟩
    reserveNewPort rs vagrantPort [9999] = 10001 ∧
    (∀ dir ∈ vagrantPeers rs, curPort (vagrantPort dir) ≠ 10001) ∧
    [.createButtonPressed rs vagrantPort, .createButtonPressed rs vagrantPort].foldlM
      PortReservations.step PortReservations.new = some twice ∧
    twice.timeouts.Pairwise Reservation.Apart ∧
    twice.step (.timeout 0) = some ⟨[10001], [⟨1, 10001⟩], 2⟩ ∧
    ∃ reservation ∈ twice.timeouts, reservation.creation = 0 ∧
      ∀ port : Int, port ∈ [(10001 : Int)] ↔ port ∈ [(10001 : Int), 9999] ∧ port ≠ reservation.port := by
  intro rs vagrantPort twice
  have hport : reserveNewPort rs vagrantPort [9999] = 10001 := by decide
  have hrun : [.createButtonPressed rs vagrantPort, .createButtonPressed rs vagrantPort].foldlM
      PortReservations.step PortReservations.new = some twice := by decide
  have hstep : twice.step (.timeout 0) = some ⟨[10001], [⟨1, 10001⟩], 2⟩ := by decide
  have hleast := console_ports_never_clash.1 rs vagrantPort [9999] (by decide)
  obtain ⟨-, hapart, hback⟩ := console_ports_never_clash.2 _ twice hrun
  obtain ⟨reservation, hmem, hcreation, hports, -⟩ := hback 0 _ hstep
  rw [hport] at hleast
  exact ⟨hport, hleast.1.2.1, hrun, hapart, hstep, reservation, hmem, hcreation, hports⟩

/-- A reserved port below 9998 is not left out, unlike a reported one. -/
theorem not_isLeast_reserveNewPort_low :
    ¬ IsLeast {port : Int | 9999 ≤ port ∧
      (∀ dir ∈ vagrantPeers ⟨.success, [], 0⟩, curPort ((fun _ => []) dir) ≠ port) ∧ port ∉ [(80 : Int)]}
      (reserveNewPort ⟨.success, [], 0⟩ (fun _ => []) [80]) := by
  have hport : reserveNewPort ⟨.success, [], 0⟩ (fun _ => []) [80] = 81 := by decide
  rw [hport]
  exact fun h => absurd h.1.1 (by decide)

end SubutaiTray.Peer
