import Mathlib.Data.List.Nodup
import Mathlib.Order.BooleanAlgebra.Set

/-!
Menus with a placeholder.

An entry that is added again moves to the end, and one that is removed is removed wherever it
stands. `none` is the placeholder of a menu that has no entries.
-/
namespace Menus

universe u
variable {α : Type u}

/-- Each of the entries stands in the menu once, and the placeholder when there are none. -/
structure Shows (menu : List (Option α)) (entries : Set α) : Prop where
  nodup : menu.Nodup
  some_mem_iff : ∀ entry, some entry ∈ menu ↔ entry ∈ entries
  none_mem_iff : none ∈ menu ↔ entries = ∅

theorem shows_empty : Shows ([none] : List (Option α)) ∅ := by
  refine ⟨List.nodup_singleton none, ?_, ?_⟩
  · intro entry
    exact iff_of_false (fun hmem => Option.some_ne_none entry (List.mem_singleton.mp hmem))
      (Set.notMem_empty entry)
  · exact iff_of_true (List.mem_singleton.mpr rfl) rfl

variable [DecidableEq α]

def removeAction (action : α) (actions : List α) : List α :=
  actions.filter fun other => decide (other ≠ action)

def addAction (action : α) (actions : List α) : List α :=
  removeAction action actions ++ [action]

/-- The placeholder goes when an entry comes. -/
def enter (entry : α) (menu : List (Option α)) : List (Option α) :=
  if some entry ∈ menu then menu else removeAction none (addAction (some entry) menu)

/-- The placeholder comes when the last entry has gone. -/
def leave (entry : α) (menu : List (Option α)) : List (Option α) :=
  if removeAction (some entry) menu = [] then addAction none (removeAction (some entry) menu)
  else removeAction (some entry) menu

variable {menu : List (Option α)} {entries : Set α} {entry : α}

theorem mem_removeAction {action other : α} {actions : List α} :
    other ∈ removeAction action actions ↔ other ∈ actions ∧ other ≠ action := by
  rw [removeAction, List.mem_filter, decide_eq_true_eq]

theorem mem_addAction {action other : α} {actions : List α} :
    other ∈ addAction action actions ↔ other ∈ actions ∨ other = action := by
  rw [addAction, List.mem_append, mem_removeAction, List.mem_singleton]
  tauto

theorem some_mem_enter {entry other : α} {menu : List (Option α)} :
    some other ∈ enter entry menu ↔ some other ∈ menu ∨ other = entry := by
  rw [enter]
  split
  · rename_i hmem
    refine (or_iff_left_of_imp ?_).symm
    rintro rfl
    exact hmem
  · rw [mem_removeAction, mem_addAction, Option.some_inj, and_iff_left (Option.some_ne_none other)]

theorem some_mem_leave {entry other : α} {menu : List (Option α)} :
    some other ∈ leave entry menu ↔ some other ∈ menu ∧ other ≠ entry := by
  have hmem : some other ∈ removeAction (some entry) menu ↔ some other ∈ menu ∧ other ≠ entry := by
    rw [mem_removeAction, ne_eq, Option.some_inj]
  rw [leave]
  split
  · rw [mem_addAction, or_iff_left (Option.some_ne_none other), hmem]
  · exact hmem

theorem nodup_removeAction {action : α} {actions : List α} (h : actions.Nodup) :
    (removeAction action actions).Nodup :=
  h.filter _

theorem erase_eq_removeAction [BEq α] [LawfulBEq α] {actions : List α} (h : actions.Nodup)
    (action : α) : actions.erase action = removeAction action actions := by
  rw [h.erase_eq_filter, removeAction]
  apply List.filter_congr
  intro other _
  by_cases heq : other = action
  · simp [heq]
  · simp [heq]

theorem removeAction_of_notMem {action : α} {actions : List α} (h : action ∉ actions) :
    removeAction action actions = actions := by
  rw [removeAction, List.filter_eq_self]
  intro other hother
  exact decide_eq_true fun heq => h (heq ▸ hother)

theorem nodup_addAction {action : α} {actions : List α} (h : actions.Nodup) :
    (addAction action actions).Nodup := by
  rw [addAction, List.nodup_append]
  refine ⟨nodup_removeAction h, List.nodup_singleton action, ?_⟩
  intro other hother found hfound heq
  rw [List.mem_singleton.mp hfound] at heq
  exact (mem_removeAction.mp hother).2 heq

theorem shows_enter (h : Shows menu entries) (entry : α) :
    Shows (enter entry menu) (insert entry entries) := by
  have hnonempty : insert entry entries ≠ ∅ := (Set.insert_nonempty entry entries).ne_empty
  rw [enter]
  split
  · rename_i hmem
    have hentry : entry ∈ entries := (h.some_mem_iff entry).mp hmem
    rw [Set.insert_eq_of_mem hentry] at hnonempty ⊢
    exact h
  · refine ⟨nodup_removeAction (nodup_addAction h.nodup), ?_, ?_⟩
    · intro other
      rw [mem_removeAction, mem_addAction, h.some_mem_iff, Option.some_inj, Set.mem_insert_iff,
        and_iff_left (Option.some_ne_none other), or_comm]
    · exact iff_of_false (fun hmem => (mem_removeAction.mp hmem).2 rfl) hnonempty

theorem removeAction_eq_nil_iff (h : Shows menu entries) (entry : α) :
    removeAction (some entry) menu = [] ↔ entries = {entry} := by
  rw [List.eq_nil_iff_forall_not_mem]
  simp only [mem_removeAction, not_and, not_not]
  constructor
  · intro honly
    have hnone : none ∉ menu := fun hmem => Option.some_ne_none entry (honly none hmem).symm
    have hnonempty := Set.nonempty_iff_ne_empty.mpr (mt h.none_mem_iff.mpr hnone)
    refine Set.eq_singleton_iff_nonempty_unique_mem.mpr ⟨hnonempty, ?_⟩
    intro other hother
    exact Option.some_inj.mp (honly (some other) ((h.some_mem_iff other).mpr hother))
  · rintro hentries (- | other) hmem
    · rw [h.none_mem_iff, hentries] at hmem
      exact absurd hmem (Set.singleton_ne_empty entry)
    · rw [h.some_mem_iff, hentries, Set.mem_singleton_iff] at hmem
      rw [hmem]

theorem shows_leave (h : Shows menu entries) (entry : α) :
    Shows (leave entry menu) (entries \ {entry}) := by
  have hempty : entries \ {entry} = ∅ ↔ entries = ∅ ∨ entries = {entry} := by
    rw [Set.sdiff_eq_empty, Set.subset_singleton_iff_eq]
  rw [leave]
  split
  · rename_i hnil
    have hentries := (removeAction_eq_nil_iff h entry).mp hnil
    rw [hnil, hempty.mpr (Or.inr hentries)]
    exact shows_empty
  · rename_i hnil
    rw [removeAction_eq_nil_iff h entry] at hnil
    refine ⟨nodup_removeAction h.nodup, ?_, ?_⟩
    · intro other
      rw [mem_removeAction, h.some_mem_iff, Set.mem_sdiff, Set.mem_singleton_iff, ne_eq, Option.some_inj]
    · rw [mem_removeAction, h.none_mem_iff, hempty, or_iff_left hnil]
      exact and_iff_left (Option.some_ne_none entry).symm

end Menus
