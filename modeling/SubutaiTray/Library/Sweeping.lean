import Mathlib.Data.List.Induction
import Mathlib.Data.List.Nodup
import SubutaiTray.Library.Lookups

/-!
Tables that follow reports by marks.

Reported entries are put in fresh. A sweep then removes the entries that are stale and makes the
others stale, so that they go at the next sweep unless they are reported again. A table of stale
entries has after a round exactly the entries of the reports, and they are stale again.
-/
namespace Sweeping

universe u v
variable {K : Type u} {V : Type v}

section
variable [DecidableEq K]

/-- The last report of a key. -/
def lastReport (reports : List (K × V)) (k : K) : Option V :=
  ((reports.filter fun report => report.1 = k).getLast?).map Prod.snd

theorem lastReport_isSome_iff (reports : List (K × V)) (k : K) :
    (lastReport reports k).isSome = true ↔ k ∈ reports.map Prod.fst := by
  rw [lastReport, Option.isSome_map, Option.isSome_iff_ne_none, Ne, List.getLast?_eq_none_iff,
    List.filter_eq_nil_iff, List.mem_map]
  simp

theorem lastReport_map_isSome_iff {A : Type v} (report : A → K × V) (reported : List A) (k : K) :
    (lastReport (reported.map report) k).isSome = true ↔ k ∈ reported.map fun a => (report a).1 := by
  rw [lastReport_isSome_iff, List.map_map]
  rfl

theorem lastReport_map_eq_none {A : Type v} {report : A → K × V} {reported : List A} {k : K}
    (h : k ∉ reported.map fun a => (report a).1) : lastReport (reported.map report) k = none := by
  rw [← lastReport_map_isSome_iff, Option.not_isSome_iff_eq_none] at h
  exact h

/-- What a key has is one of its reports. -/
theorem mem_of_lastReport {reports : List (K × V)} {k : K} {v : V} (h : lastReport reports k = some v) :
    (k, v) ∈ reports := by
  obtain ⟨report, hlast, rfl⟩ := Option.map_eq_some_iff.mp h
  have hmem := List.mem_of_getLast? hlast
  rw [List.mem_filter, decide_eq_true_eq] at hmem
  rw [← hmem.2]
  exact hmem.1

/-- A report takes the place of those before. -/
theorem lastReport_concat (reports : List (K × V)) (report : K × V) (k : K) :
    lastReport (reports ++ [report]) k = if k = report.1 then some report.2 else lastReport reports k := by
  rw [lastReport, lastReport, List.filter_append, List.filter_singleton]
  by_cases hkey : k = report.1
  · simp [hkey]
  · simp [hkey, Ne.symm hkey]

theorem lastReport_map {W : Type v} (f : V → W) (reports : List (K × V)) (k : K) :
    lastReport (reports.map fun report => (report.1, f report.2)) k = (lastReport reports k).map f := by
  rw [lastReport, lastReport, List.filter_map, List.getLast?_map, Option.map_map, Option.map_map]
  rfl

end

variable [Ord K] [Std.TransOrd K] [Std.LawfulEqOrd K]

def note (table : Std.ExtTreeMap K V) (reports : List (K × V)) : Std.ExtTreeMap K V :=
  reports.foldl (fun table report => table.insert report.1 report.2) table

variable (stale : V → Bool) (settle : V → V) (table : Std.ExtTreeMap K V)

def staleKeys : List K := (table.toList.filter fun entry => stale entry.2).map Prod.fst

def settled : Std.ExtTreeMap K V :=
  table.toList.foldl
    (fun table entry => if stale entry.2 then table else table.insert entry.1 (settle entry.2)) table

def sweep : Std.ExtTreeMap K V :=
  (staleKeys stale table).foldl (fun table key => table.erase key) (settled stale settle table)

theorem mem_staleKeys (k : K) :
    k ∈ staleKeys stale table ↔ ∃ v, table[k]? = some v ∧ stale v = true := by
  rw [staleKeys, List.mem_map]
  constructor
  · rintro ⟨⟨key, v⟩, hmem, rfl⟩
    rw [List.mem_filter, Std.ExtTreeMap.mem_toList_iff_getElem?_eq_some] at hmem
    exact ⟨v, hmem⟩
  · rintro ⟨v, hfound, hstale⟩
    refine ⟨(k, v), ?_, rfl⟩
    rw [List.mem_filter, Std.ExtTreeMap.mem_toList_iff_getElem?_eq_some]
    exact ⟨hfound, hstale⟩

variable [DecidableEq K]

/-- The entries of the list are settled, each key once. -/
theorem getElem?_foldl_settle (entries : List (K × V)) (hnodup : (entries.map Prod.fst).Nodup)
    (k : K) :
    (entries.foldl
        (fun table entry => if stale entry.2 then table else table.insert entry.1 (settle entry.2))
        table)[k]? =
      (entries.find? fun entry => entry.1 = k).elim (table[k]?) fun entry =>
        if stale entry.2 then table[k]? else some (settle entry.2) := by
  induction entries generalizing table with
  | nil => rfl
  | cons entry entries ih =>
      rw [List.map_cons, List.nodup_cons] at hnodup
      rw [List.foldl_cons, ih _ hnodup.2, List.find?_cons]
      by_cases hkey : entry.1 = k
      · have hnone : (entries.find? fun other => other.1 = k) = none := by
          rw [List.find?_eq_none]
          intro other hmem heq
          rw [decide_eq_true_eq] at heq
          exact hnodup.1 (List.mem_map.mpr ⟨other, hmem, heq.trans hkey.symm⟩)
        rw [hnone, decide_eq_true hkey]
        dsimp only [Option.elim]
        split
        · rfl
        · rw [Lookups.getElem?_insert, if_pos hkey.symm]
      · have hsame : (if stale entry.2 = true then table
            else table.insert entry.1 (settle entry.2))[k]? = table[k]? := by
          split
          · rfl
          · rw [Lookups.getElem?_insert, if_neg (Ne.symm hkey)]
        rw [decide_eq_false hkey, hsame]

theorem find?_toList (k : K) :
    (table.toList.find? fun entry => entry.1 = k) = (table[k]?).map fun v => (k, v) := by
  cases hfound : table[k]? with
  | none =>
      rw [Option.map_none, List.find?_eq_none]
      intro entry hmem hkey
      rw [decide_eq_true_eq] at hkey
      rw [← hkey, Std.ExtTreeMap.mem_toList_iff_getElem?_eq_some.mp hmem] at hfound
      exact absurd hfound (Option.some_ne_none _)
  | some v =>
      have hmem : (k, v) ∈ table.toList := Std.ExtTreeMap.mem_toList_iff_getElem?_eq_some.mpr hfound
      obtain ⟨entry, hentry⟩ : ∃ entry, (table.toList.find? fun entry => entry.1 = k) = some entry := by
        rw [← Option.isSome_iff_exists, List.find?_isSome]
        exact ⟨(k, v), hmem, decide_eq_true rfl⟩
      have hkey := List.find?_some hentry
      rw [decide_eq_true_eq] at hkey
      have hat := Std.ExtTreeMap.mem_toList_iff_getElem?_eq_some.mp (List.mem_of_find?_eq_some hentry)
      rw [hkey, hfound, Option.some.injEq] at hat
      rw [hentry, Option.map_some, hat, ← hkey]

theorem getElem?_settled (k : K) :
    (settled stale settle table)[k]? =
      (table[k]?).map fun v => if stale v then v else settle v := by
  have hnodup : (table.toList.map Prod.fst).Nodup := by
    rw [Std.ExtTreeMap.map_fst_toList_eq_keys]
    exact Std.ExtTreeMap.nodup_keys
  rw [settled, getElem?_foldl_settle stale settle table _ hnodup, find?_toList]
  cases table[k]? with
  | none => rfl
  | some v =>
      dsimp only [Option.map, Option.elim]
      split
      · rfl
      · rfl

theorem getElem?_sweep (k : K) :
    (sweep stale settle table)[k]? =
      (table[k]?).bind fun v => if stale v then none else some (settle v) := by
  rw [sweep, Lookups.getElem?_foldl_erase, getElem?_settled]
  simp only [mem_staleKeys]
  cases table[k]? with
  | none => simp
  | some v => cases hstale : stale v <;> simp [hstale]

theorem getElem?_note (reports : List (K × V)) (k : K) :
    (note table reports)[k]? = (lastReport reports k).or (table[k]?) := by
  induction reports using List.reverseRecOn with
  | nil => rfl
  | append_singleton reports report ih =>
      rw [note, List.foldl_append, List.foldl_cons, List.foldl_nil, ← note, Lookups.getElem?_insert, ih,
        lastReport, lastReport, List.filter_append, List.filter_singleton]
      by_cases hkey : k = report.1
      · simp [hkey]
      · simp [hkey, Ne.symm hkey]

/-- Everything is stale, and goes at the next sweep unless it is reported. -/
def AllStale : Prop := ∀ (k : K) (v : V), table[k]? = some v → stale v = true

variable {stale settle table}

theorem getElem?_round (h : AllStale stale table) {reports : List (K × V)}
    (hfresh : ∀ report ∈ reports, stale report.2 = false) (k : K) :
    (sweep stale settle (note table reports))[k]? = (lastReport reports k).map settle := by
  rw [getElem?_sweep, getElem?_note]
  cases hlast : lastReport reports k with
  | some v =>
      have hv := hfresh _ (mem_of_lastReport hlast)
      dsimp only at hv
      simp [hv]
  | none =>
      cases hfound : table[k]? with
      | none => rfl
      | some v => simp [h k v hfound]

theorem allStale_sweep (hsettle : ∀ v, stale v = false → stale (settle v) = true) :
    AllStale stale (sweep stale settle table) := by
  intro k v hv
  rw [getElem?_sweep] at hv
  obtain ⟨before, -, hafter⟩ := Option.bind_eq_some_iff.mp hv
  split at hafter
  · exact absurd hafter.symm (Option.some_ne_none v)
  · rename_i hstale
    rw [← Option.some.inj hafter]
    exact hsettle before (by simpa using hstale)

end Sweeping
