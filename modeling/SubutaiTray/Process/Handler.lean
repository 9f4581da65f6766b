import Mathlib.Data.List.Nodup
import Mathlib.Data.List.Perm.Subperm
import Mathlib.Data.List.Range
import SubutaiTray.Library.CyclicScan
import SubutaiTray.Library.Lookups
import SubutaiTray.Library.Runs

/-!
The table of the processes that run (`CProcessHandler`).

A process is found by a handle, which is the first free one from a counter on. The counter goes round
at a thousand, and looking for a free handle leaves an entry without a process where there was none.
-/
namespace SubutaiTray.Process

/-- `none` is a null pointer. -/
structure CProcessHandler (QProcess : Type) where
  procTable : Std.ExtTreeMap Int (Option QProcess)
  hashCounter : Int

/-- What `proc_controller` calls. -/
inductive ProcCall (QProcess : Type) where
  | startProc (proc : QProcess)
  | endProc (hash : Int)

variable {QProcess : Type}

namespace CProcessHandler

def new : CProcessHandler QProcess where
  procTable := ∅
  hashCounter := 0

/-- `m_proc_table[hash]` -/
def subscript (hash : Int) (handler : CProcessHandler QProcess) :
    Option QProcess × CProcessHandler QProcess :=
  match handler.procTable[hash]? with
  | some entry => (entry, handler)
  | none => (none, { handler with procTable := handler.procTable.insert hash none })

/-- Out of fuel, the loop has not ended. -/
def generateHash : Nat → CProcessHandler QProcess → Option (Int × CProcessHandler QProcess)
  | 0, _ => none
  | fuel + 1, handler =>
      match handler.subscript (handler.hashCounter.tmod 1000) with
      | (none, handler) => some (handler.hashCounter, handler)
      | (some _, handler) =>
          generateHash fuel { handler with hashCounter := (handler.hashCounter + 1).tmod 1000 }

/-- A thousand turns of the loop are enough or no number of them is. -/
def startProc (proc : QProcess) (handler : CProcessHandler QProcess) :
    Option (Int × CProcessHandler QProcess) :=
  (handler.generateHash 1000).map fun (hash, handler) =>
    (hash, { handler with procTable := handler.procTable.insert hash (some proc) })

def endProc (hash : Int) (handler : CProcessHandler QProcess) : CProcessHandler QProcess :=
  if hash ∈ handler.procTable then { handler with procTable := handler.procTable.erase hash }
  else handler

end CProcessHandler

/-- `live` remembers the processes that were started and not ended, with their handles. -/
structure ProcRun (QProcess : Type) where
  handler : CProcessHandler QProcess
  live : List (Int × QProcess)

namespace ProcRun

def init : ProcRun QProcess := ⟨.new, []⟩

def step (run : ProcRun QProcess) : ProcCall QProcess → Option (ProcRun QProcess)
  | .startProc proc =>
      (run.handler.startProc proc).map fun (hash, handler) =>
        ⟨handler, run.live ++ [(hash, proc)]⟩
  | .endProc hash =>
      some ⟨run.handler.endProc hash, run.live.filter fun entry => entry.1 ≠ hash⟩

/-- The entries with a process are those of the processes that live. -/
structure Inv (run : ProcRun QProcess) : Prop where
  counter : 0 ≤ run.handler.hashCounter ∧ run.handler.hashCounter < 1000
  entries : ∀ (hash : Int) (proc : QProcess),
    run.handler.procTable[hash]? = some (some proc) ↔ (hash, proc) ∈ run.live
  keys : ∀ entry ∈ run.live, 0 ≤ entry.1 ∧ entry.1 < 1000
  handles : (run.live.map Prod.fst).Nodup

/-- Besides, a process that is ended leaves all other entries alone, and a free handle is found as
long as there is one. -/
structure Right (run : ProcRun QProcess) : Prop extends Inv run where
  ends : ∀ hash other : Int, (run.handler.endProc hash).procTable[other]? =
    if other = hash then none else run.handler.procTable[other]?
  finds : run.live.length < 1000 → ∃ (hash : Int) (handler : CProcessHandler QProcess),
    (∀ fuel ≥ 1000, run.handler.generateHash fuel = some (hash, handler)) ∧
      0 ≤ hash ∧ hash < 1000 ∧ hash ∉ run.live.map Prod.fst

end ProcRun

/-! ## The loop -/

namespace CProcessHandler

/-- There is no process under the handle. -/
def free (table : Std.ExtTreeMap Int (Option QProcess)) (i : Nat) : Bool :=
  (table[(i : Int)]?).join.isNone

theorem free_eq_true_iff (table : Std.ExtTreeMap Int (Option QProcess)) (i : Nat) :
    free table i = true ↔ ∀ proc, table[(i : Int)]? ≠ some (some proc) := by
  rw [free]
  cases table[(i : Int)]? with
  | none => simp
  | some entry => cases entry <;> simp

theorem fst_subscript (hash : Int) (handler : CProcessHandler QProcess) :
    (handler.subscript hash).1 = (handler.procTable[hash]?).join := by
  rw [subscript]
  split
  · rename_i entry hentry
    rw [hentry]
    rfl
  · rename_i hnone
    rw [hnone]
    rfl

theorem hashCounter_subscript (hash : Int) (handler : CProcessHandler QProcess) :
    (handler.subscript hash).2.hashCounter = handler.hashCounter := by
  rw [subscript]
  split <;> rfl

/-- The entry that is made on the way has no process. -/
theorem join_subscript (hash other : Int) (handler : CProcessHandler QProcess) :
    ((handler.subscript hash).2.procTable[other]?).join = (handler.procTable[other]?).join := by
  rw [subscript]
  split
  · rfl
  · rename_i hnone
    dsimp only
    rw [Lookups.getElem?_insert]
    split
    · rename_i hother
      rw [hother, hnone]
      rfl
    · rfl

theorem subscript_of_busy {hash : Int} {handler : CProcessHandler QProcess} {proc : QProcess}
    (h : handler.procTable[hash]? = some (some proc)) :
    handler.subscript hash = (some proc, handler) := by
  rw [subscript, h]

/-- The loop has come to a free handle. -/
def found (table : Std.ExtTreeMap Int (Option QProcess)) (i : Nat) : Int × CProcessHandler QProcess :=
  (i, (subscript i ⟨table, i⟩).2)

/-- The loop is a scan over the handles, of which only the last look-up may change the table. -/
theorem generateHash_eq (table : Std.ExtTreeMap Int (Option QProcess)) (fuel counter : Nat)
    (hcounter : counter < 1000) :
    generateHash fuel ⟨table, counter⟩ =
      (CyclicScan.scan 1000 (free table) fuel counter).map fun k =>
        found table ((counter + k) % 1000) := by
  induction fuel generalizing counter with
  | zero => rfl
  | succ fuel ih =>
      have hmod : (counter : Int).tmod 1000 = (counter : Int) :=
        Int.tmod_eq_of_lt (Int.natCast_nonneg counter) (by omega)
      have hnext : ((counter : Int) + 1).tmod 1000 = ((counter + 1) % 1000 : Nat) := by
        rw [Int.tmod_eq_emod_of_nonneg (by omega)]
        omega
      have hfirst := fst_subscript (counter : Int) ⟨table, counter⟩
      rw [generateHash, CyclicScan.scan]
      dsimp only
      rw [hmod]
      cases hentry : (table[(counter : Int)]?).join with
      | none =>
          have hfree : free table counter = true := by rw [free, hentry]; rfl
          have hsame := hashCounter_subscript (counter : Int) ⟨table, counter⟩
          dsimp only at hfirst hsame
          rw [hentry] at hfirst
          rw [hfree, if_pos rfl, Option.map_some, Nat.add_zero, Nat.mod_eq_of_lt hcounter, found]
          split
          · rename_i handler heq
            rw [heq] at hsame ⊢
            rw [hsame]
          · rename_i proc handler heq
            rw [heq] at hfirst
            exact absurd hfirst (Option.some_ne_none proc)
      | some proc =>
          have hbusy : table[(counter : Int)]? = some (some proc) := Option.join_eq_some_iff.mp hentry
          have hshift (k : Nat) : ((counter + 1) % 1000 + k) % 1000 = (counter + (k + 1)) % 1000 := by omega
          have hnot : free table counter = false := by rw [free, hentry]; rfl
          rw [subscript_of_busy hbusy, hnot]
          dsimp only
          rw [hnext, ih _ (Nat.mod_lt _ (by decide)), if_neg Bool.false_ne_true, Option.map_map]
          congr 1
          funext k
          simp only [Function.comp_def, hshift]

theorem exists_counter {handler : CProcessHandler QProcess}
    (h : 0 ≤ handler.hashCounter ∧ handler.hashCounter < 1000) :
    ∃ counter < 1000, handler = ⟨handler.procTable, (counter : Nat)⟩ := by
  refine ⟨handler.hashCounter.toNat, by omega, ?_⟩
  rw [Int.toNat_of_nonneg h.1]

theorem exists_found_of_generateHash {handler handler' : CProcessHandler QProcess}
    (h : 0 ≤ handler.hashCounter ∧ handler.hashCounter < 1000) {fuel : Nat} {hash : Int}
    (hfound : handler.generateHash fuel = some (hash, handler')) :
    ∃ i < 1000, free handler.procTable i = true ∧ (hash, handler') = found handler.procTable i := by
  obtain ⟨counter, hcounter, heq⟩ := exists_counter h
  rw [heq, generateHash_eq _ fuel counter hcounter] at hfound
  obtain ⟨k, hk, hat⟩ := Option.map_eq_some_iff.mp hfound
  rw [CyclicScan.scan_eq_some_iff fuel k hcounter] at hk
  exact ⟨(counter + k) % 1000, Nat.mod_lt _ (by decide), hk.2.1, hat.symm⟩

/-- If a handle is free, the loop ends within a thousand turns. -/
theorem exists_found_of_free {handler : CProcessHandler QProcess}
    (h : 0 ≤ handler.hashCounter ∧ handler.hashCounter < 1000) {p : Nat} (hp : p < 1000)
    (hfree : free handler.procTable p = true) :
    ∃ i < 1000, free handler.procTable i = true ∧
      ∀ fuel ≥ 1000, handler.generateHash fuel = some (found handler.procTable i) := by
  obtain ⟨counter, hcounter, heq⟩ := exists_counter h
  obtain ⟨k, -, hscan⟩ := CyclicScan.exists_scan hcounter hp hfree (Nat.le_refl 1000)
  have hk := (CyclicScan.scan_eq_some_iff 1000 k hcounter).mp hscan
  refine ⟨(counter + k) % 1000, Nat.mod_lt _ (by decide), hk.2.1, ?_⟩
  intro fuel hfuel
  rw [heq, generateHash_eq _ fuel counter hcounter,
    CyclicScan.scan_eq_scan hcounter hfuel (Nat.le_refl 1000), hscan]
  rfl

/-- The loop never ends if a thousand turns are not enough. -/
theorem generateHash_eq_none {handler : CProcessHandler QProcess}
    (h : 0 ≤ handler.hashCounter ∧ handler.hashCounter < 1000)
    (hnone : handler.generateHash 1000 = none) (fuel : Nat) : handler.generateHash fuel = none := by
  rw [Option.eq_none_iff_forall_ne_some]
  rintro ⟨hash, handler'⟩ hsome
  obtain ⟨i, hi, hfree, -⟩ := exists_found_of_generateHash h hsome
  obtain ⟨_, -, -, hends⟩ := exists_found_of_free h hi hfree
  rw [hends 1000 (Nat.le_refl 1000)] at hnone
  exact absurd hnone (Option.some_ne_none _)

/-! ## The operations -/

theorem getElem?_endProc (handler : CProcessHandler QProcess) (hash other : Int) :
    (handler.endProc hash).procTable[other]? =
      if other = hash then none else handler.procTable[other]? := by
  rw [endProc]
  split
  · exact Lookups.getElem?_erase _ hash other
  · rename_i hmissing
    split
    · rename_i hother
      rw [hother, ← Option.not_isSome_iff_eq_none, Std.ExtTreeMap.isSome_getElem?_iff_mem]
      exact hmissing
    · rfl

theorem hashCounter_endProc (handler : CProcessHandler QProcess) (hash : Int) :
    (handler.endProc hash).hashCounter = handler.hashCounter := by
  rw [endProc]
  split <;> rfl

/-- A process is started under a handle that was free. -/
theorem exists_of_startProc {handler handler' : CProcessHandler QProcess}
    (h : 0 ≤ handler.hashCounter ∧ handler.hashCounter < 1000) {proc : QProcess} {hash : Int}
    (hstart : handler.startProc proc = some (hash, handler')) :
    ∃ i < 1000, hash = (i : Nat) ∧ free handler.procTable i = true ∧
      handler'.hashCounter = hash ∧
        ∀ other : Int, (handler'.procTable[other]?).join =
          if other = hash then some proc else (handler.procTable[other]?).join := by
  obtain ⟨⟨hash', between⟩, hgenerate, hafter⟩ := Option.map_eq_some_iff.mp hstart
  obtain ⟨i, hi, hfree, hfound⟩ := exists_found_of_generateHash h hgenerate
  obtain ⟨rfl, rfl⟩ := Prod.mk.inj hafter
  obtain ⟨rfl, rfl⟩ := Prod.mk.inj hfound
  refine ⟨i, hi, rfl, hfree, hashCounter_subscript _ _, ?_⟩
  intro other
  dsimp only
  rw [Lookups.getElem?_insert]
  split
  · rfl
  · rw [join_subscript]

end CProcessHandler

namespace ProcRun

variable {run run' : ProcRun QProcess}

theorem Inv.join_iff (h : run.Inv) (hash : Int) (proc : QProcess) :
    (run.handler.procTable[hash]?).join = some proc ↔ (hash, proc) ∈ run.live := by
  rw [Option.join_eq_some_iff]
  exact h.entries hash proc

theorem Inv.notMem_of_free (h : run.Inv) {i : Nat}
    (hfree : CProcessHandler.free run.handler.procTable i = true) :
    (i : Int) ∉ run.live.map Prod.fst := by
  rw [CProcessHandler.free_eq_true_iff] at hfree
  intro hmem
  obtain ⟨⟨hash, proc⟩, hentry, hhash⟩ := List.mem_map.mp hmem
  dsimp only at hhash
  rw [hhash] at hentry
  exact hfree proc ((h.entries i proc).mpr hentry)

/-- A thousand processes have a thousand handles. -/
theorem Inv.exists_free (h : run.Inv) (hroom : run.live.length < 1000) :
    ∃ p < 1000, CProcessHandler.free run.handler.procTable p = true := by
  by_contra hnone
  have hbusy : (List.range 1000).map (fun p : Nat => (p : Int)) ⊆ run.live.map Prod.fst := by
    intro hash hmem
    obtain ⟨p, hp, rfl⟩ := List.mem_map.mp hmem
    have hnot : ¬ CProcessHandler.free run.handler.procTable p = true := fun hfree =>
      hnone ⟨p, List.mem_range.mp hp, hfree⟩
    rw [CProcessHandler.free_eq_true_iff, not_forall] at hnot
    obtain ⟨proc, hentry⟩ := hnot
    rw [Ne, not_not] at hentry
    exact List.mem_map.mpr ⟨(p, proc), (h.entries p proc).mp hentry, rfl⟩
  have hnodup : ((List.range 1000).map fun p : Nat => (p : Int)).Nodup :=
    List.nodup_range.map fun _ _ heq => Int.ofNat.inj heq
  have hle := (List.subperm_of_subset hnodup hbusy).length_le
  rw [List.length_map, List.length_map, List.length_range] at hle
  omega

theorem Inv.right (h : run.Inv) : run.Right := by
  refine ⟨h, CProcessHandler.getElem?_endProc run.handler, ?_⟩
  intro hroom
  obtain ⟨p, hp, hfree⟩ := h.exists_free hroom
  obtain ⟨i, hi, hfree, hends⟩ := CProcessHandler.exists_found_of_free h.counter hp hfree
  exact ⟨i, _, hends, by omega, by omega, h.notMem_of_free hfree⟩

theorem inv_init : (init : ProcRun QProcess).Inv := by
  have hcounter : (0 : Int) ≤ 0 ∧ (0 : Int) < 1000 := by decide
  refine ⟨hcounter, ?_, fun _ hentry => absurd hentry List.not_mem_nil, List.nodup_nil⟩
  intro hash proc
  exact iff_of_false Lookups.empty_ne_some List.not_mem_nil

theorem inv_startProc (h : run.Inv) {proc : QProcess} {hash : Int}
    {handler' : CProcessHandler QProcess}
    (hstart : run.handler.startProc proc = some (hash, handler')) :
    Inv ⟨handler', run.live ++ [(hash, proc)]⟩ := by
  obtain ⟨i, hi, rfl, hfree, hcounter, htable⟩ := CProcessHandler.exists_of_startProc h.counter hstart
  have hnew := h.notMem_of_free hfree
  refine ⟨?_, ?_, ?_, ?_⟩
  · dsimp only
    rw [hcounter]
    omega
  · intro other proc'
    dsimp only
    rw [← Option.join_eq_some_iff, htable, List.mem_append, List.mem_singleton, Prod.mk.injEq]
    split
    · rename_i hother
      have hold : (other, proc') ∉ run.live := fun hmem =>
        hnew (hother ▸ List.mem_map.mpr ⟨(other, proc'), hmem, rfl⟩)
      rw [Option.some.injEq]
      exact ⟨fun hproc => Or.inr ⟨hother, hproc.symm⟩, fun hmem => (hmem.resolve_left hold).2.symm⟩
    · rename_i hother
      rw [h.join_iff]
      exact (or_iff_left fun hlast => hother hlast.1).symm
  · intro entry hentry
    cases List.mem_append.mp hentry with
    | inl hold => exact h.keys entry hold
    | inr hlast =>
        rw [List.mem_singleton.mp hlast]
        dsimp only
        omega
  · dsimp only
    rw [List.map_append, List.nodup_append]
    refine ⟨h.handles, List.nodup_singleton _, ?_⟩
    intro other hother last hlast
    rw [List.mem_singleton.mp hlast]
    rintro rfl
    exact hnew hother

theorem inv_endProc (h : run.Inv) (hash : Int) :
    Inv ⟨run.handler.endProc hash, run.live.filter fun entry => entry.1 ≠ hash⟩ := by
  refine ⟨?_, ?_, ?_, ?_⟩
  · dsimp only
    rw [CProcessHandler.hashCounter_endProc]
    exact h.counter
  · intro other proc
    dsimp only
    rw [CProcessHandler.getElem?_endProc, List.mem_filter, decide_eq_true_eq]
    split
    · rename_i hother
      exact iff_of_false (Option.some_ne_none _).symm fun hmem => hmem.2 hother
    · rename_i hother
      rw [h.entries]
      exact (and_iff_left hother).symm
  · intro entry hentry
    exact h.keys entry (List.mem_filter.mp hentry).1
  · exact h.handles.sublist (List.filter_sublist.map Prod.fst)

theorem inv_step (run : ProcRun QProcess) (call : ProcCall QProcess) (run' : ProcRun QProcess)
    (h : run.Inv) (hstep : run.step call = some run') : run'.Inv := by
  cases call with
  | startProc proc =>
      obtain ⟨⟨hash, handler'⟩, hstart, rfl⟩ := Option.map_eq_some_iff.mp hstep
      exact inv_startProc h hstart
  | endProc hash =>
      rw [← Option.some.inj hstep]
      exact inv_endProc h hash

/-- In every state of a run the handles are in order, and as long as fewer than a thousand processes
live, the next one gets a handle. -/
theorem handles_right (calls : List (ProcCall QProcess)) :
    Runs.AlwaysPartial step Right init calls := by
  intro past run _ hrun
  exact (Runs.invariant_of_foldlM inv_init inv_step hrun).right

end ProcRun

end SubutaiTray.Process
