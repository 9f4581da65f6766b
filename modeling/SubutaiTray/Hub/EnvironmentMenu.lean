import SubutaiTray.Hub.Controller
import SubutaiTray.Library.Sweeping
import SubutaiTray.Qt.StdMap

/-!
The environments in the tray menu (`environments_updated_sl`).

An environment has its button and its entry under its id. Which environments are gone is decided by
the names of those that exist; the entry of one that is gone stays, with another status.
-/
namespace SubutaiTray.Hub

inductive EnvIcon where
  | unhealthy
  | healthy
  | modification
  deriving DecidableEq

/-- The `QAction` of an environment. -/
structure EnvAction where
  text : QString
  icon : EnvIcon
  deriving DecidableEq

def deletedString : QString := "DELETED".toList

/-- The actions of `m_hub_menu` are given by the ids; `none` is `m_empty_action`. -/
structure EnvironmentMenu where
  environmentsTable : StdMap CEnvironment
  myEnvsButtonTable : StdMap EnvAction
  hubMenu : List (Option QString)
  keyed : ∀ (id : QString) (env : CEnvironment), environmentsTable[id]? = some env → env.id = id

def CEnvironment.icon (env : CEnvironment) : EnvIcon :=
  if env.status = "HEALTHY".toList then .healthy
  else if env.status = "UNHEALTHY".toList then .unhealthy
  else .modification

/-- The names that exist. -/
def newEnvs (envs : List CEnvironment) : StdMap Int :=
  envs.foldl (fun table env => table.insert env.name 1) ∅

namespace EnvironmentMenu

def new : EnvironmentMenu where
  environmentsTable := ∅
  myEnvsButtonTable := ∅
  hubMenu := [none]
  keyed := by
    intro id env hat
    exact absurd hat Lookups.empty_ne_some

/-- The turn of an environment in the first loop. -/
def updateEnvironment (menu : EnvironmentMenu) (env : CEnvironment) : EnvironmentMenu where
  environmentsTable := menu.environmentsTable.insert env.id env
  myEnvsButtonTable := menu.myEnvsButtonTable.insert env.id { text := env.name, icon := env.icon }
  hubMenu :=
    if menu.myEnvsButtonTable[env.id]? = none then (menu.hubMenu ++ [some env.id]).erase none
    else menu.hubMenu
  keyed := by
    intro id found hat
    rw [Lookups.getElem?_insert] at hat
    split at hat
    · rename_i hid
      rw [← Option.some.inj hat, hid]
    · exact menu.keyed id found hat

/-- An action leaves the menu; an empty menu gets `m_empty_action`. -/
def removeAction (id : QString) (hubMenu : List (Option QString)) : List (Option QString) :=
  if hubMenu.erase (some id) = [] then [none] else hubMenu.erase (some id)

/-- The turn of an entry in the last loop. -/
def markDeleted (newEnvs : StdMap Int) (menu : EnvironmentMenu) (id : QString) : EnvironmentMenu :=
  match hentry : menu.environmentsTable[id]? with
  | none => menu
  | some env =>
      if (newEnvs[env.name]?).getD 0 = 0 then
        { environmentsTable := menu.environmentsTable.insert id { env with status := deletedString }
          myEnvsButtonTable := menu.myEnvsButtonTable.erase env.id
          hubMenu :=
            if menu.myEnvsButtonTable[env.id]? = none then menu.hubMenu
            else removeAction env.id menu.hubMenu
          keyed := by
            intro key found hat
            rw [Lookups.getElem?_insert] at hat
            split at hat
            · rename_i hkey
              rw [← Option.some.inj hat, hkey]
              exact menu.keyed id env hentry
            · exact menu.keyed key found hat }
      else menu

def environmentsUpdated (envs : List CEnvironment) (menu : EnvironmentMenu) : EnvironmentMenu :=
  let menu := envs.foldl updateEnvironment menu
  menu.environmentsTable.keys.foldl (markDeleted (newEnvs envs)) menu

/-! ## What the menu is to show -/

/-- The buttons are those of the environments that exist, and just the others are deleted. -/
structure Mirrors (envs : List CEnvironment) (menu : EnvironmentMenu) : Prop where
  buttons : ∀ id, id ∈ menu.myEnvsButtonTable ↔ id ∈ envs.map CEnvironment.id
  deleted : ∀ (id : QString) (env : CEnvironment), menu.environmentsTable[id]? = some env →
    (env.status = deletedString ↔ id ∉ envs.map CEnvironment.id)

/-- The environment that stands under an id after the first loop, if it exists. -/
def current (envs : List CEnvironment) (id : QString) : Option CEnvironment :=
  Sweeping.lastReport (envs.map fun env => (env.id, env)) id

/-- No environment that exists has the status of a deleted one, and none that is gone has the name of
one that exists, unless it is deleted already. -/
structure NamesTell (envs : List CEnvironment) (menu : EnvironmentMenu) : Prop where
  status : ∀ id env, current envs id = some env → env.status ≠ deletedString
  entries : ∀ (id : QString) (env : CEnvironment), menu.environmentsTable[id]? = some env →
    id ∉ envs.map CEnvironment.id →
      env.name ∉ envs.map CEnvironment.name ∨ env.status = deletedString
  buttons : ∀ id ∈ menu.myEnvsButtonTable, id ∉ envs.map CEnvironment.id →
    ∃ env, menu.environmentsTable[id]? = some env ∧ env.name ∉ envs.map CEnvironment.name

variable {envs : List CEnvironment} {menu : EnvironmentMenu}

/-! ## The loops -/

theorem newEnvs_eq_zero_iff (envs : List CEnvironment) (name : QString) :
    ((newEnvs envs)[name]?).getD 0 = 0 ↔ name ∉ envs.map CEnvironment.name := by
  have hnote : newEnvs envs = Sweeping.note ∅ (envs.map fun env => (env.name, 1)) := by
    rw [newEnvs, Sweeping.note, List.foldl_map]
  have hsome := Sweeping.lastReport_map_isSome_iff (fun env => (env.name, (1 : Int))) envs name
  rw [hnote, Sweeping.getElem?_note, Std.ExtTreeMap.getElem?_empty, Option.or_none, ← hsome]
  cases hlast : Sweeping.lastReport (envs.map fun env => (env.name, (1 : Int))) name with
  | none => exact iff_of_true rfl Bool.false_ne_true
  | some count =>
      obtain ⟨env, -, hcount⟩ := List.mem_map.mp (Sweeping.mem_of_lastReport hlast)
      rw [← (Prod.mk.inj hcount).2]
      exact iff_of_false Int.one_ne_zero (not_not.mpr rfl)

theorem environmentsTable_foldl (envs : List CEnvironment) (menu : EnvironmentMenu) :
    (envs.foldl updateEnvironment menu).environmentsTable =
      Sweeping.note menu.environmentsTable (envs.map fun env => (env.id, env)) := by
  induction envs generalizing menu with
  | nil => rfl
  | cons env envs ih => exact ih (menu.updateEnvironment env)

theorem mem_buttons_foldl (envs : List CEnvironment) (menu : EnvironmentMenu) (id : QString) :
    id ∈ (envs.foldl updateEnvironment menu).myEnvsButtonTable ↔
      id ∈ envs.map CEnvironment.id ∨ id ∈ menu.myEnvsButtonTable := by
  induction envs generalizing menu with
  | nil => simp
  | cons env envs ih =>
      rw [List.foldl_cons, ih, updateEnvironment, List.map_cons, List.mem_cons]
      dsimp only
      rw [Lookups.mem_insert]
      tauto

/-- The entry of an environment after the last loop. -/
def marked (newEnvs : StdMap Int) (env : CEnvironment) : CEnvironment :=
  if (newEnvs[env.name]?).getD 0 = 0 then { env with status := deletedString } else env

theorem name_marked (newEnvs : StdMap Int) (env : CEnvironment) :
    (marked newEnvs env).name = env.name := by
  rw [marked]
  split <;> rfl

theorem marked_marked (newEnvs : StdMap Int) (env : CEnvironment) :
    marked newEnvs (marked newEnvs env) = marked newEnvs env := by
  by_cases hgone : (newEnvs[env.name]?).getD 0 = 0
  · simp [marked, hgone]
  · simp [marked, hgone]

theorem getElem?_markDeleted (newEnvs : StdMap Int) (menu : EnvironmentMenu) (id a : QString) :
    (menu.markDeleted newEnvs id).environmentsTable[a]? =
      if a = id then (menu.environmentsTable[a]?).map (marked newEnvs)
      else menu.environmentsTable[a]? := by
  rw [markDeleted]
  split
  · rename_i hnone
    split
    · rename_i ha
      rw [ha, hnone, Option.map_none]
    · rfl
  · rename_i env hentry
    split
    · rename_i hgone
      dsimp only
      rw [Lookups.getElem?_insert]
      refine if_ctx_congr Iff.rfl (fun ha => ?_) fun _ => rfl
      rw [ha, hentry, Option.map_some, marked, if_pos hgone]
    · rename_i hstays
      split
      · rename_i ha
        rw [ha, hentry, Option.map_some, marked, if_neg hstays]
      · rfl

theorem mem_buttons_markDeleted (newEnvs : StdMap Int) (menu : EnvironmentMenu) (id a : QString) :
    a ∈ (menu.markDeleted newEnvs id).myEnvsButtonTable ↔
      a ∈ menu.myEnvsButtonTable ∧
        ¬ (a = id ∧ ∃ env, menu.environmentsTable[a]? = some env ∧ (newEnvs[env.name]?).getD 0 = 0) := by
  rw [markDeleted]
  split
  · rename_i hnone
    refine (and_iff_left ?_).symm
    rintro ⟨rfl, env, hentry, -⟩
    rw [hnone] at hentry
    exact absurd hentry.symm (Option.some_ne_none env)
  · rename_i env hentry
    split
    · rename_i hgone
      dsimp only
      rw [menu.keyed id env hentry, Lookups.mem_erase, and_comm]
      refine and_congr_right fun _ => not_congr ?_
      constructor
      · rintro rfl
        exact ⟨rfl, env, hentry, hgone⟩
      · exact And.left
    · rename_i hstays
      refine (and_iff_left ?_).symm
      rintro ⟨rfl, found, hfound, hgone⟩
      rw [hentry, Option.some.injEq] at hfound
      rw [← hfound] at hgone
      exact hstays hgone

theorem getElem?_foldl_markDeleted (newEnvs : StdMap Int) (keys : List QString)
    (menu : EnvironmentMenu) (a : QString) :
    (keys.foldl (markDeleted newEnvs) menu).environmentsTable[a]? =
      if a ∈ keys then (menu.environmentsTable[a]?).map (marked newEnvs)
      else menu.environmentsTable[a]? := by
  induction keys generalizing menu with
  | nil => exact (if_neg List.not_mem_nil).symm
  | cons id keys ih =>
      rw [List.foldl_cons, ih, getElem?_markDeleted]
      by_cases hid : a = id
      · have hboth : marked newEnvs ∘ marked newEnvs = marked newEnvs := funext (marked_marked newEnvs)
        rw [if_pos hid, if_pos (List.mem_cons.mpr (Or.inl hid)), Option.map_map, hboth, ite_self]
      · rw [if_neg hid]
        refine if_congr ?_ rfl rfl
        rw [List.mem_cons]
        exact (or_iff_right hid).symm

theorem mem_buttons_foldl_markDeleted (newEnvs : StdMap Int) (keys : List QString)
    (menu : EnvironmentMenu) (a : QString) :
    a ∈ (keys.foldl (markDeleted newEnvs) menu).myEnvsButtonTable ↔
      a ∈ menu.myEnvsButtonTable ∧
        ¬ (a ∈ keys ∧
          ∃ env, menu.environmentsTable[a]? = some env ∧ (newEnvs[env.name]?).getD 0 = 0) := by
  induction keys generalizing menu with
  | nil => simp
  | cons id keys ih =>
      have hnames : (∃ env, (menu.markDeleted newEnvs id).environmentsTable[a]? = some env ∧
          (newEnvs[env.name]?).getD 0 = 0) ↔
          ∃ env, menu.environmentsTable[a]? = some env ∧ (newEnvs[env.name]?).getD 0 = 0 := by
        rw [getElem?_markDeleted]
        split
        · cases menu.environmentsTable[a]? with
          | none => simp
          | some env => simp [name_marked]
        · rfl
      rw [List.foldl_cons, ih, hnames, mem_buttons_markDeleted, List.mem_cons, and_assoc, ← not_or,
        ← or_and_right]

/-- What stands under an id after the first loop. -/
theorem getElem?_foldl_updateEnvironment (envs : List CEnvironment) (menu : EnvironmentMenu)
    (id : QString) :
    (envs.foldl updateEnvironment menu).environmentsTable[id]? =
      (current envs id).or (menu.environmentsTable[id]?) := by
  rw [environmentsTable_foldl, Sweeping.getElem?_note]
  rfl

theorem getElem?_environmentsUpdated (envs : List CEnvironment) (menu : EnvironmentMenu)
    (id : QString) :
    (menu.environmentsUpdated envs).environmentsTable[id]? =
      ((current envs id).or (menu.environmentsTable[id]?)).map (marked (newEnvs envs)) := by
  rw [environmentsUpdated, getElem?_foldl_markDeleted, getElem?_foldl_updateEnvironment]
  split
  · rfl
  · rename_i hkey
    rw [Std.ExtTreeMap.mem_keys, Lookups.mem_iff_exists, getElem?_foldl_updateEnvironment] at hkey
    cases hfound : (current envs id).or (menu.environmentsTable[id]?) with
    | none => rfl
    | some env => exact absurd ⟨env, hfound⟩ hkey

theorem mem_buttons_environmentsUpdated (envs : List CEnvironment) (menu : EnvironmentMenu)
    (id : QString) :
    id ∈ (menu.environmentsUpdated envs).myEnvsButtonTable ↔
      (id ∈ envs.map CEnvironment.id ∨ id ∈ menu.myEnvsButtonTable) ∧
        ¬ ∃ env, (current envs id).or (menu.environmentsTable[id]?) = some env ∧
          env.name ∉ envs.map CEnvironment.name := by
  rw [environmentsUpdated, mem_buttons_foldl_markDeleted, mem_buttons_foldl, Std.ExtTreeMap.mem_keys,
    Lookups.mem_iff_exists (envs.foldl updateEnvironment menu).environmentsTable,
    getElem?_foldl_updateEnvironment]
  simp only [newEnvs_eq_zero_iff]
  refine and_congr_right fun _ => not_congr ?_
  exact and_iff_right_of_imp fun ⟨env, henv, _⟩ => ⟨env, henv⟩

theorem current_isSome_iff (envs : List CEnvironment) (id : QString) :
    (current envs id).isSome = true ↔ id ∈ envs.map CEnvironment.id :=
  Sweeping.lastReport_map_isSome_iff _ envs id

theorem name_mem_of_current {id : QString} {env : CEnvironment} (h : current envs id = some env) :
    env.name ∈ envs.map CEnvironment.name := by
  obtain ⟨found, hmem, hfound⟩ := List.mem_map.mp (Sweeping.mem_of_lastReport h)
  rw [← (Prod.mk.inj hfound).2]
  exact List.mem_map.mpr ⟨found, hmem, rfl⟩

/-! ## When the names tell what is gone -/

theorem marked_of_mem {env : CEnvironment} (h : env.name ∈ envs.map CEnvironment.name) :
    marked (newEnvs envs) env = env := by
  rw [marked, if_neg]
  exact fun hzero => (newEnvs_eq_zero_iff envs env.name).mp hzero h

theorem status_marked {env : CEnvironment} (h : env.name ∉ envs.map CEnvironment.name) :
    (marked (newEnvs envs) env).status = deletedString := by
  rw [marked, if_pos ((newEnvs_eq_zero_iff envs env.name).mpr h)]

theorem current_eq_none {id : QString} (h : id ∉ envs.map CEnvironment.id) : current envs id = none :=
  Sweeping.lastReport_map_eq_none h

theorem Mirrors.namesTell (h : Mirrors envs (menu.environmentsUpdated envs)) : NamesTell envs menu := by
  refine ⟨?_, ?_, ?_⟩
  · intro id env hcurrent hstatus
    have hentry : (menu.environmentsUpdated envs).environmentsTable[id]? = some env := by
      rw [getElem?_environmentsUpdated, hcurrent, Option.some_or, Option.map_some,
        marked_of_mem (name_mem_of_current hcurrent)]
    apply (h.deleted id env hentry).mp hstatus
    rw [← current_isSome_iff, hcurrent]
    rfl
  · intro id env hentry hgone
    have hafter : (menu.environmentsUpdated envs).environmentsTable[id]? =
        some (marked (newEnvs envs) env) := by
      rw [getElem?_environmentsUpdated, current_eq_none hgone, Option.none_or, hentry, Option.map_some]
    have hstatus := (h.deleted id _ hafter).mpr hgone
    by_cases hname : env.name ∈ envs.map CEnvironment.name
    · rw [marked_of_mem hname] at hstatus
      exact Or.inr hstatus
    · exact Or.inl hname
  · intro id hbutton hgone
    have hafter := mt (h.buttons id).mp hgone
    rw [mem_buttons_environmentsUpdated, not_and, not_not, current_eq_none hgone, Option.none_or] at hafter
    exact hafter (Or.inr hbutton)

theorem NamesTell.mirrors (h : NamesTell envs menu) : Mirrors envs (menu.environmentsUpdated envs) := by
  refine ⟨?_, ?_⟩
  · intro id
    rw [mem_buttons_environmentsUpdated]
    constructor
    · rintro ⟨hbutton, hkept⟩
      by_contra hgone
      rw [current_eq_none hgone, Option.none_or] at hkept
      exact hkept (h.buttons id (hbutton.resolve_left hgone) hgone)
    · intro hmem
      refine ⟨Or.inl hmem, ?_⟩
      rintro ⟨env, hentry, hname⟩
      obtain ⟨found, hcurrent⟩ := Option.isSome_iff_exists.mp ((current_isSome_iff envs id).mpr hmem)
      rw [hcurrent, Option.some_or, Option.some.injEq] at hentry
      rw [← hentry] at hname
      exact hname (name_mem_of_current hcurrent)
  · intro id env hentry
    rw [getElem?_environmentsUpdated] at hentry
    cases hcurrent : current envs id with
    | some found =>
        rw [hcurrent, Option.some_or, Option.map_some, Option.some.injEq,
          marked_of_mem (name_mem_of_current hcurrent)] at hentry
        rw [← hentry]
        refine iff_of_false (h.status id found hcurrent) (not_not.mpr ?_)
        rw [← current_isSome_iff, hcurrent]
        rfl
    | none =>
        have hgone : id ∉ envs.map CEnvironment.id := by
          rw [← current_isSome_iff, hcurrent]
          exact Bool.false_ne_true
        rw [hcurrent, Option.none_or] at hentry
        obtain ⟨found, hfound, rfl⟩ := Option.map_eq_some_iff.mp hentry
        refine iff_of_true ?_ hgone
        by_cases hname : found.name ∈ envs.map CEnvironment.name
        · rw [marked_of_mem hname]
          exact (h.entries id found hfound hgone).resolve_left (not_not.mpr hname)
        · exact status_marked hname

/-- The menu shows what the hub has when the names tell which environments are gone. -/
theorem mirrors_iff_namesTell (envs : List CEnvironment) (menu : EnvironmentMenu) :
    Mirrors envs (menu.environmentsUpdated envs) ↔ NamesTell envs menu :=
  ⟨Mirrors.namesTell, NamesTell.mirrors⟩

def namedEnvironment (id name : QString) : CEnvironment :=
  { name := name, hash := [], aesKey := [], ttl := [], id := id, hubId := 1,
    status := "HEALTHY".toList, statusDescr := [], baseInterfaceId := -1, lstContainers := [] }

/-- An environment was replaced by another of the same name: its button stays. -/
theorem not_mirrors_replaced :
    ¬ Mirrors [namedEnvironment "e2".toList "web".toList]
      ((new.environmentsUpdated [namedEnvironment "e1".toList "web".toList]).environmentsUpdated
        [namedEnvironment "e2".toList "web".toList]) := by
  intro hmirrors
  have hbutton := (hmirrors.buttons "e1".toList).mp (by decide)
  exact absurd hbutton (by decide)

end EnvironmentMenu

end SubutaiTray.Hub
