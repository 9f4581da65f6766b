import SubutaiTray.Library.Runs
import SubutaiTray.Notification.LogFile

/-!
The counters of the notification unions.

`clear_old_records` looks up the removed notifications in the places behind the
kept ones. `std::remove_if` has copied kept notifications away from there but
never put removed ones there, so the counters that go down are those of the last
notifications, whether these have expired or not.
-/
namespace SubutaiTray.Notification

open RemoveIf

section table
variable {unions : List CNotificationUnion} {msg msg' : QString}
  {change : CNotificationUnion → CNotificationUnion}

@[simp] theorem CNotificationUnion.incrementCount_msg (u : CNotificationUnion) :
    u.incrementCount.msg = u.msg := rfl

@[simp] theorem CNotificationUnion.decrementCount_msg (u : CNotificationUnion) :
    u.decrementCount.msg = u.msg := rfl

def unionsOf (unions : List CNotificationUnion) (msg : QString) : Nat :=
  unions.countP (·.msg = msg)

def findUnion (unions : List CNotificationUnion) (msg : QString) : Option CNotificationUnion :=
  unions.find? (·.msg = msg)

theorem unionsOf_updateFirst (keeps : ∀ u, (change u).msg = u.msg) (msg msg' : QString)
    (unions : List CNotificationUnion) :
    unionsOf (updateFirst (·.msg = msg) change unions) msg' = unionsOf unions msg' := by
  induction unions with
  | nil => rfl
  | cons u unions ih =>
      rw [updateFirst]
      split
      · simp [unionsOf, List.countP_cons, keeps]
      · simp only [unionsOf] at ih
        simp [unionsOf, List.countP_cons, ih]

theorem findUnion_updateFirst (keeps : ∀ u, (change u).msg = u.msg) (msg msg' : QString)
    (unions : List CNotificationUnion) :
    findUnion (updateFirst (·.msg = msg) change unions) msg' =
      if msg = msg' then (findUnion unions msg').map change else findUnion unions msg' := by
  induction unions with
  | nil => simp [findUnion, updateFirst]
  | cons u unions ih =>
      simp only [findUnion] at ih
      rw [updateFirst]
      by_cases hu : u.msg = msg
      · rw [if_pos (by simpa using hu)]
        by_cases hmsg : msg = msg'
        · simp [findUnion, hu, keeps, hmsg]
        · simp [findUnion, hu, keeps, hmsg]
      · rw [if_neg (by simpa using hu)]
        by_cases hu' : u.msg = msg'
        · have hmsg : msg ≠ msg' := fun h => hu (hu'.trans h.symm)
          simp [findUnion, hu', hmsg]
        · simpa [findUnion, hu'] using ih

theorem unionsOf_concat (unions : List CNotificationUnion) (u : CNotificationUnion)
    (msg : QString) :
    unionsOf (unions ++ [u]) msg = unionsOf unions msg + if u.msg = msg then 1 else 0 := by
  simp [unionsOf, List.countP_append, List.countP_singleton]

theorem findUnion_concat (unions : List CNotificationUnion) (u : CNotificationUnion)
    (msg : QString) :
    findUnion (unions ++ [u]) msg =
      (findUnion unions msg).or (if u.msg = msg then some u else none) := by
  rw [findUnion, List.find?_append, List.find?_singleton]
  simp [findUnion]

theorem exists_findUnion (h : 0 < unionsOf unions msg) : ∃ u, findUnion unions msg = some u := by
  rw [← Option.isSome_iff_exists, findUnion, List.find?_isSome]
  exact List.countP_pos_iff.mp h

theorem findUnion_eq_none (h : unionsOf unions msg = 0) : findUnion unions msg = none := by
  rw [findUnion, List.find?_eq_none]
  exact List.countP_eq_zero.mp h

theorem toNat_sub_ofNat (count : UInt32) {taken : Nat} (h : taken ≤ count.toNat) :
    (count - UInt32.ofNat taken).toNat = count.toNat - taken := by
  have htaken : (UInt32.ofNat taken).toNat = taken := by
    rw [UInt32.toNat_ofNat', Nat.mod_eq_of_lt (Nat.lt_of_le_of_lt h count.toNat_lt)]
  have hle : UInt32.ofNat taken ≤ count := by
    rw [UInt32.le_iff_toNat_le, htaken]
    exact h
  rw [UInt32.toNat_sub_of_le _ _ hle, htaken]

end table

section
variable {Date : Type}

def stored (lst : List (CNotification Date)) (msg : QString) : Nat :=
  lst.countP (·.msg = msg)

theorem unionsOf_decrementUnions (removed : List (CNotification Date))
    (unions : List CNotificationUnion) (msg : QString) :
    unionsOf (decrementUnions removed unions) msg = unionsOf unions msg := by
  induction removed generalizing unions with
  | nil => rfl
  | cons n removed ih =>
      rw [decrementUnions, List.foldl_cons]
      exact (ih _).trans (unionsOf_updateFirst CNotificationUnion.decrementCount_msg n.msg msg unions)

theorem findUnion_decrementUnions (removed : List (CNotification Date))
    (unions : List CNotificationUnion) (msg : QString) :
    findUnion (decrementUnions removed unions) msg =
      (findUnion unions msg).map fun u =>
        { u with count := u.count - UInt32.ofNat (stored removed msg) } := by
  induction removed generalizing unions with
  | nil => simp [decrementUnions, stored]
  | cons n removed ih =>
      have htail := ih (updateFirst (·.msg = n.msg) CNotificationUnion.decrementCount unions)
      rw [decrementUnions, List.foldl_cons]
      refine htail.trans ?_
      rw [findUnion_updateFirst CNotificationUnion.decrementCount_msg]
      by_cases hmsg : n.msg = msg
      · have hcount : stored (n :: removed) msg = stored removed msg + 1 := by
          simp [stored, hmsg]
        have hsub (c : UInt32) (k : Nat) :
            c - 1 - UInt32.ofNat k = c - UInt32.ofNat (k + 1) := by
          have hone : UInt32.ofNat 1 = 1 := rfl
          rw [UInt32.ofNat_add, hone]
          grind
        simp [hmsg, hcount, CNotificationUnion.decrementCount, Option.map_map, Function.comp_def, hsub]
      · have hcount : stored (n :: removed) msg = stored removed msg := by
          simp [stored, hmsg]
        simp [hmsg, hcount]

/-- One union for every stored message, and its count is right. -/
structure UnionsRight (lg : Logger Date) : Prop where
  unique : ∀ msg, unionsOf lg.lstNotificationUnions msg =
    if 0 < stored lg.lstNotifications msg then 1 else 0
  counts : ∀ u ∈ lg.lstNotificationUnions, u.count.toNat = stored lg.lstNotifications u.msg

theorem unionsRight_iff (lg : Logger Date) :
    UnionsRight lg ↔ ∀ msg,
      (unionsOf lg.lstNotificationUnions msg =
        if 0 < stored lg.lstNotifications msg then 1 else 0) ∧
      ∀ u, findUnion lg.lstNotificationUnions msg = some u →
        u.count.toNat = stored lg.lstNotifications msg := by
  constructor
  · intro h msg
    refine ⟨h.unique msg, ?_⟩
    intro u hu
    have hmsg : u.msg = msg := by simpa using List.find?_some hu
    rw [← hmsg]
    exact h.counts u (List.mem_of_find?_eq_some hu)
  · intro h
    refine ⟨fun msg => (h msg).1, ?_⟩
    intro u hu
    obtain ⟨hunique, hcount⟩ := h u.msg
    have hpos : 0 < unionsOf lg.lstNotificationUnions u.msg :=
      List.countP_pos_iff.mpr ⟨u, hu, by simp⟩
    have hone : (lg.lstNotificationUnions.filter (·.msg = u.msg)).length = 1 := by
      rw [← List.countP_eq_length_filter]
      change unionsOf lg.lstNotificationUnions u.msg = 1
      split at hunique <;> omega
    obtain ⟨u', hu'⟩ := List.length_eq_one_iff.mp hone
    have hmem : u ∈ lg.lstNotificationUnions.filter (·.msg = u.msg) :=
      List.mem_filter.mpr ⟨hu, by simp⟩
    have hsame : u = u' := by simpa [hu'] using hmem
    apply hcount u
    rw [findUnion, ← List.head?_filter, hu', hsame]
    rfl

theorem stored_concat (lst : List (CNotification Date)) (n : CNotification Date) (msg : QString) :
    stored (lst ++ [n]) msg = stored lst msg + if n.msg = msg then 1 else 0 := by
  simp [stored, List.countP_append, List.countP_singleton]

theorem UnionsRight.count_lt {lg : Logger Date} (h : UnionsRight lg) (msg : QString) :
    stored lg.lstNotifications msg < 2 ^ 32 := by
  by_cases hpos : 0 < stored lg.lstNotifications msg
  · have hone := h.unique msg
    rw [if_pos hpos] at hone
    have hpos : 0 < unionsOf lg.lstNotificationUnions msg := by omega
    obtain ⟨u, hu, hmsg⟩ := List.countP_pos_iff.mp hpos
    have hmsg : u.msg = msg := by simpa using hmsg
    have hlt := u.count.toNat_lt
    rw [h.counts u hu, hmsg] at hlt
    exact hlt
  · omega

/-- A message with a union: what is taken from its count has to be what has expired, and
not all of it. -/
theorem cleared_iff_of_stored {unions : List CNotificationUnion} {msg : QString}
    {lst removed : List (CNotification Date)} (hunique : unionsOf unions msg = 1)
    (hcount : ∀ u, findUnion unions msg = some u → u.count.toNat = stored lst msg)
    (htaken : stored removed msg ≤ stored lst msg) {left : Nat} (hleft : left ≤ stored lst msg) :
    (unionsOf unions msg = (if 0 < left then 1 else 0) ∧
      ∀ u, (findUnion unions msg).map (fun u =>
          { u with count := u.count - UInt32.ofNat (stored removed msg) }) = some u →
        u.count.toNat = left) ↔
      stored lst msg - left = stored removed msg ∧ 0 < left := by
  obtain ⟨u, hu⟩ := exists_findUnion (show 0 < unionsOf unions msg by omega)
  have hu' := hcount u hu
  have htoNat := toNat_sub_ofNat u.count (hu' ▸ htaken)
  constructor
  · intro hright
    have hpos : 0 < left := by
      by_contra hzero
      have := hright.1
      rw [hunique, if_neg hzero] at this
      exact absurd this Nat.one_ne_zero
    have hnew := hright.2 _ (by rw [hu, Option.map_some])
    rw [htoNat] at hnew
    exact ⟨by omega, hpos⟩
  · intro heven
    refine ⟨by rw [hunique, if_pos heven.2], ?_⟩
    intro u' hnew
    rw [hu, Option.map_some, Option.some_inj] at hnew
    rw [← hnew, htoNat]
    omega

theorem UnionsRight.addNotification_iff {lg : Logger Date} (h : UnionsRight lg)
    (n : CNotification Date) :
    UnionsRight (addNotification n lg) ↔ stored lg.lstNotifications n.msg + 1 < 2 ^ 32 := by
  constructor
  · intro hadd
    have := hadd.count_lt n.msg
    rw [addNotification, stored_concat, if_pos rfl] at this
    exact this
  · intro hroom
    have hany : lg.lstNotificationUnions.any (·.msg = n.msg) = true ↔
        0 < stored lg.lstNotifications n.msg := by
      have hunique := h.unique n.msg
      rw [List.any_eq_true, ← List.countP_pos_iff]
      change 0 < unionsOf lg.lstNotificationUnions n.msg ↔ _
      split at hunique <;> omega
    rw [unionsRight_iff]
    intro msg
    obtain ⟨hunique, hcount⟩ := (unionsRight_iff lg).mp h msg
    rw [addNotification, stored_concat]
    by_cases hfound : 0 < stored lg.lstNotifications n.msg
    · rw [if_pos (hany.mpr hfound), unionsOf_updateFirst CNotificationUnion.incrementCount_msg,
        findUnion_updateFirst CNotificationUnion.incrementCount_msg]
      by_cases hmsg : n.msg = msg
      · subst hmsg
        rw [if_pos hfound] at hunique
        refine ⟨by simp [hunique], ?_⟩
        intro u hu
        rw [if_pos rfl] at hu
        obtain ⟨u', hu', rfl⟩ := Option.map_eq_some_iff.mp hu
        have hu' := hcount u' hu'
        rw [if_pos rfl, CNotificationUnion.incrementCount, UInt32.toNat_add, UInt32.toNat_one, hu',
          Nat.mod_eq_of_lt hroom]
      · simpa [hmsg] using ⟨hunique, hcount⟩
    · rw [if_neg (fun h => hfound (hany.mp h)), unionsOf_concat, findUnion_concat]
      by_cases hmsg : n.msg = msg
      · subst hmsg
        rw [if_neg hfound] at hunique
        have hnone := findUnion_eq_none hunique
        have hzero : stored lg.lstNotifications n.msg = 0 := by omega
        refine ⟨by simp [hunique], ?_⟩
        intro u hu
        simp only [hnone, if_true, Option.none_or, Option.some_inj] at hu
        rw [← hu, hzero, if_pos rfl]
        rfl
      · simpa [hmsg] using ⟨hunique, hcount⟩

end

section
variable {Date : Type} [LT Date] [DecidableLT Date] (iso : IsoDate Date)

def expired (old : Date) (lst : List (CNotification Date)) : List (CNotification Date) :=
  lst.filter fun n => decide (n.dateTime < old)

/-- Every message has expired as often as it occurs among as many notifications at the
end of the list as have expired in all, and none has expired altogether. -/
def ClearsEvenly (old : Date) (lst : List (CNotification Date)) : Prop :=
  ∀ msg, stored (expired old lst) msg =
      stored (lst.drop (lst.length - (expired old lst).length)) msg ∧
    (0 < stored lst msg → stored (expired old lst) msg < stored lst msg)

theorem length_kept (old : Date) (lst : List (CNotification Date)) :
    (kept (fun n => decide (n.dateTime < old)) lst).length =
      lst.length - (expired old lst).length := by
  have := List.length_eq_length_filter_add (l := lst)
    fun n : CNotification Date => decide (n.dateTime < old)
  simp only [kept, expired]
  omega

theorem stored_kept_add_expired (old : Date) (lst : List (CNotification Date)) (msg : QString) :
    stored (kept (fun n => decide (n.dateTime < old)) lst) msg + stored (expired old lst) msg =
      stored lst msg := by
  have := List.countP_eq_countP_filter_add lst (fun n => decide (n.msg = msg))
    fun n => decide (n.dateTime < old)
  rw [Nat.add_comm]
  exact this.symm

/-- The loop of `clear_old_records` goes over the end of the list, expired or not. -/
theorem lstNotificationUnions_clearOldRecords (opened : Bool) (old : Date) (lg : Logger Date) :
    (clearOldRecords iso opened old lg).lstNotificationUnions =
      decrementUnions (lg.lstNotifications.drop
        (lg.lstNotifications.length - (expired old lg.lstNotifications).length))
        lg.lstNotificationUnions := by
  rw [clearOldRecords, removeIf_eq, ← length_kept]
  exact congrArg (decrementUnions · _) List.drop_left

/-- Clearing keeps the table right when the notifications at the end of the list have
the messages of the expired ones, and only then. -/
theorem UnionsRight.clearOldRecords_iff {lg : Logger Date} (h : UnionsRight lg) (opened : Bool)
    (old : Date) :
    UnionsRight (clearOldRecords iso opened old lg) ↔ ClearsEvenly old lg.lstNotifications := by
  rw [unionsRight_iff, ClearsEvenly]
  apply forall_congr'
  intro msg
  obtain ⟨hunique, hcount⟩ := (unionsRight_iff lg).mp h msg
  have hsum := stored_kept_add_expired old lg.lstNotifications msg
  have htail : stored (lg.lstNotifications.drop
      (lg.lstNotifications.length - (expired old lg.lstNotifications).length)) msg ≤
      stored lg.lstNotifications msg := List.Sublist.countP_le (List.drop_sublist _ _)
  rw [lstNotifications_clearOldRecords, lstNotificationUnions_clearOldRecords,
    unionsOf_decrementUnions, findUnion_decrementUnions]
  by_cases hpos : 0 < stored lg.lstNotifications msg
  · rw [if_pos hpos] at hunique
    rw [cleared_iff_of_stored hunique hcount htail (by omega)]
    omega
  · rw [if_neg hpos] at hunique
    rw [hunique, findUnion_eq_none hunique, if_neg (by omega)]
    constructor
    · intro _
      exact ⟨by omega, fun h => absurd h hpos⟩
    · intro _
      refine ⟨rfl, ?_⟩
      intro u hu
      exact absurd hu.symm (Option.some_ne_none u)

inductive UnionStep (Date : Type) where
  | addNotification (n : CNotification Date)
  | clearOldRecords (opened : Bool) (old : Date)

def Logger.unionStep (lg : Logger Date) : UnionStep Date → Logger Date
  | .addNotification n => Notification.addNotification n lg
  | .clearOldRecords opened old => Notification.clearOldRecords iso opened old lg

/-- Adding has room in the counter, and clearing is even. -/
def Logger.CountsOn (lg : Logger Date) : UnionStep Date → Prop
  | .addNotification n => stored lg.lstNotifications n.msg + 1 < 2 ^ 32
  | .clearOldRecords _ old => ClearsEvenly old lg.lstNotifications

/-- The table is right in every state of a run if and only if every clearing in it is
even and no counter runs full. -/
theorem unionsRight_iff_countsOn (file : Option QByteArray) (steps : List (UnionStep Date)) :
    Runs.Always (Logger.unionStep iso) UnionsRight (Logger.onFile file) steps ↔
      Runs.EachStep (Logger.unionStep iso) Logger.CountsOn (Logger.onFile file) steps := by
  have hstart : UnionsRight (Logger.onFile file : Logger Date) :=
    ⟨fun msg => rfl, fun u hu => absurd hu List.not_mem_nil⟩
  apply Runs.always_iff_eachStep_of_turn hstart
  intro lg step h
  cases step with
  | addNotification n => exact h.addNotification_iff n
  | clearOldRecords opened old => exact h.clearOldRecords_iff iso opened old

end

/-- An expired notification in front of one that stays: the counter of the latter
goes down instead. -/
theorem not_unionsRight_after_clear :
    ¬ Runs.Always (Logger.unionStep digitIso) UnionsRight (Logger.onFile none)
      [.addNotification (CNotification.new newYear .nlError "old".toList),
        .addNotification (CNotification.new january .nlInfo "new".toList),
        .clearOldRecords true january] := by
  intro always
  have hright := (always _ List.prefix_rfl).counts
    ⟨some .nlError, "error".toList, "old".toList, 1⟩ (by decide +kernel)
  exact absurd hright (by decide +kernel)

end SubutaiTray.Notification
