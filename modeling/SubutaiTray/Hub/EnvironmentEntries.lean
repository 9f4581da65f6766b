import SubutaiTray.Hub.EnvironmentMenu
import SubutaiTray.Library.Menus
import SubutaiTray.Library.Runs

/-!
The entries of `m_hub_menu` along a run of `environments_updated_sl`: one for each button, with the
name and the icon of the environment when it was last seen.
-/
namespace SubutaiTray.Hub

namespace EnvironmentMenu

/-- When the environment was last seen. -/
def lastSeen (seen : List CEnvironment) (id : QString) : Option CEnvironment :=
  Sweeping.lastReport (seen.map fun env => (env.id, env)) id

/-- The menu shows the buttons, and each button shows its environment as it was last seen. -/
structure EntriesRight (seen : List CEnvironment) (menu : EnvironmentMenu) : Prop where
  shows : Menus.Shows menu.hubMenu {id | id ∈ menu.myEnvsButtonTable}
  action : ∀ (id : QString) (action : EnvAction), menu.myEnvsButtonTable[id]? = some action →
    ∃ env, lastSeen seen id = some env ∧ action = { text := env.name, icon := env.icon }

variable {seen : List CEnvironment} {menu : EnvironmentMenu}

theorem lastSeen_concat (seen : List CEnvironment) (env : CEnvironment) (id : QString) :
    lastSeen (seen ++ [env]) id = if env.id = id then some env else lastSeen seen id := by
  rw [lastSeen, List.map_append, List.map_singleton, Sweeping.lastReport_concat]
  exact if_congr eq_comm rfl rfl

/-- An entry that is not in the menu comes in. -/
theorem enter_eq {id : QString} {hubMenu : List (Option QString)} (hnodup : hubMenu.Nodup)
    (hmem : some id ∉ hubMenu) : (hubMenu ++ [some id]).erase none = Menus.enter id hubMenu := by
  have hadd : Menus.addAction (some id) hubMenu = hubMenu ++ [some id] := by
    rw [Menus.addAction, Menus.removeAction_of_notMem hmem]
  have hnodup' := @Menus.nodup_addAction (Option QString) _ (some id) hubMenu hnodup
  rw [Menus.enter, if_neg hmem, hadd]
  rw [hadd] at hnodup'
  exact Menus.erase_eq_removeAction hnodup' none

theorem leave_eq {hubMenu : List (Option QString)} (hnodup : hubMenu.Nodup) (id : QString) :
    removeAction id hubMenu = Menus.leave id hubMenu := by
  rw [removeAction, Menus.leave, Menus.erase_eq_removeAction hnodup]
  split
  · rename_i hnil
    rw [hnil]
    rfl
  · rfl

theorem notMem_of_eq_none {id : QString} (hnone : menu.myEnvsButtonTable[id]? = none) :
    id ∉ {id | id ∈ menu.myEnvsButtonTable} := by
  rw [Set.mem_ofPred_eq, ← Std.ExtTreeMap.isSome_getElem?_iff_mem, hnone]
  exact Bool.false_ne_true

theorem entriesRight_updateEnvironment (h : menu.EntriesRight seen) (env : CEnvironment) :
    (menu.updateEnvironment env).EntriesRight (seen ++ [env]) := by
  refine ⟨?_, ?_⟩
  · have hset : {id | id ∈ (menu.updateEnvironment env).myEnvsButtonTable} =
        insert env.id {id | id ∈ menu.myEnvsButtonTable} := by
      apply Set.ext
      intro id
      exact Lookups.mem_insert _ env.id id _
    rw [hset, updateEnvironment]
    dsimp only
    by_cases hnone : menu.myEnvsButtonTable[env.id]? = none
    · have hmem : some env.id ∉ menu.hubMenu := by
        rw [h.shows.some_mem_iff]
        exact notMem_of_eq_none hnone
      rw [if_pos hnone, enter_eq h.shows.nodup hmem]
      exact Menus.shows_enter h.shows env.id
    · have hmem : env.id ∈ {id | id ∈ menu.myEnvsButtonTable} :=
        (Lookups.mem_iff_exists _ env.id).mpr (Option.ne_none_iff_exists'.mp hnone)
      rw [if_neg hnone, Set.insert_eq_of_mem hmem]
      exact h.shows
  · intro id action haction
    rw [updateEnvironment, Lookups.getElem?_insert] at haction
    rw [lastSeen_concat]
    by_cases hid : id = env.id
    · rw [if_pos hid] at haction
      rw [if_pos hid.symm]
      exact ⟨env, rfl, (Option.some_inj.mp haction).symm⟩
    · rw [if_neg hid] at haction
      rw [if_neg (Ne.symm hid)]
      exact h.action id action haction

theorem entriesRight_markDeleted (h : menu.EntriesRight seen) (newEnvs : StdMap Int) (id : QString) :
    (menu.markDeleted newEnvs id).EntriesRight seen := by
  rw [markDeleted]
  split
  · exact h
  · rename_i env hentry
    split
    · refine ⟨?_, ?_⟩
      · have hset : {id | id ∈ menu.myEnvsButtonTable.erase env.id} =
            {id | id ∈ menu.myEnvsButtonTable} \ {env.id} := by
          apply Set.ext
          intro other
          rw [Set.mem_ofPred_eq, Lookups.mem_erase, and_comm]
          rfl
        dsimp only
        rw [hset]
        split
        · rename_i hnone
          rw [Set.sdiff_singleton_eq_self (notMem_of_eq_none hnone)]
          exact h.shows
        · rw [leave_eq h.shows.nodup]
          exact Menus.shows_leave h.shows env.id
      · intro other action haction
        dsimp only at haction
        rw [Lookups.getElem?_erase] at haction
        split at haction
        · exact absurd haction.symm (Option.some_ne_none action)
        · exact h.action other action haction
    · exact h

theorem entriesRight_environmentsUpdated (h : menu.EntriesRight seen) (envs : List CEnvironment) :
    (menu.environmentsUpdated envs).EntriesRight (seen ++ envs) := by
  have hseen : (envs.foldl updateEnvironment menu).EntriesRight (seen ++ envs) := by
    induction envs using List.reverseRecOn with
    | nil =>
        rw [List.append_nil]
        exact h
    | append_singleton envs env ih =>
        rw [List.foldl_append, ← List.append_assoc]
        exact entriesRight_updateEnvironment ih env
  rw [environmentsUpdated]
  exact Runs.invariant hseen (fun menu id h => entriesRight_markDeleted h (newEnvs envs) id) _

/-- After any lists of the hub the menu has an entry for each button and no other, each as its
environment was last seen, and the placeholder when there is no button. -/
theorem entriesRight_run (updates : List (List CEnvironment)) :
    (updates.foldl (fun menu envs => environmentsUpdated envs menu) new).EntriesRight updates.flatten := by
  induction updates using List.reverseRecOn with
  | nil =>
      have hempty : {id | id ∈ new.myEnvsButtonTable} = ∅ :=
        Set.eq_empty_of_forall_notMem fun id hmem => Std.ExtTreeMap.not_mem_empty hmem
      refine ⟨?_, ?_⟩
      · rw [List.foldl_nil, hempty]
        exact Menus.shows_empty
      · intro id action haction
        exact absurd haction Lookups.empty_ne_some
  | append_singleton updates envs ih =>
      rw [List.foldl_append, List.flatten_append, List.flatten_singleton]
      exact entriesRight_environmentsUpdated ih envs

end EnvironmentMenu

end SubutaiTray.Hub
