import SubutaiTray.Hub.Controller
import SubutaiTray.Library.Lookups
import SubutaiTray.Library.Runs
import SubutaiTray.Qt.Numbers
import SubutaiTray.Qt.PlaceMarkers
import SubutaiTray.Qt.StdMap
import Mathlib.Data.List.Induction

/-!
What the tray tells about the health of the environments (`environments_updated_sl`).

An environment is kept in `lst_checked_unhealthy_env` from the list in which it was first seen to be
unhealthy until it is seen to be healthy. Those that are new there are told by their status, those
that leave it one by one. The texts are as meant where no name has a place marker of its own
(`text_changedStatus`, `text_becameHealthy`).
-/
namespace SubutaiTray.Hub

/-- A notification: of an environment, or of all that have got a status. -/
inductive HealthNotice where
  | becameHealthy (name : QString) (hubId : Int)
  | changedStatus (status : QString) (named : List (QString × Int))
  deriving DecidableEq

namespace HealthNotice

/-- `env_url` -/
def envUrl (hubBillingUrl userId : QString) : QString :=
  arg hubBillingUrl userId ++ "/environments/%1".toList

def link (hubBillingUrl userId : QString) (env : QString × Int) : QString :=
  arg "<a href=%1>".toList (arg (envUrl hubBillingUrl userId) (number env.2)) ++ env.1 ++ "</a>".toList

def text (hubBillingUrl userId : QString) : HealthNotice → QString
  | .becameHealthy name hubId =>
      multiArg "Environment <a href=%1>%2</a> became healthy".toList
        [arg hubBillingUrl userId ++ arg "/environments/%1".toList (number hubId), name]
  | .changedStatus status named =>
      arg
        (arg
          (arg (arg "Environment%1 %2 %3 %4".toList (if named.length > 1 then "s".toList else []))
            (", ".toList.intercalate (named.map (link hubBillingUrl userId))))
          (if named.length > 1 then "are".toList else "is".toList))
        status

end HealthNotice

/-- What a call has noted so far; the list outlives it. -/
structure HealthRound where
  lstCheckedUnhealthyEnv : List QString
  tblEnvs : StdMap (List QString)
  tblEnvIds : StdMap (List Int)
  notices : List HealthNotice

namespace HealthRound

def start (lstCheckedUnhealthyEnv : List QString) : HealthRound where
  lstCheckedUnhealthyEnv := lstCheckedUnhealthyEnv
  tblEnvs := ∅
  tblEnvIds := ∅
  notices := []

/-- `push_back` to the vector under a key. -/
def pushBack {V : Type} (key : QString) (value : V) (table : StdMap (List V)) : StdMap (List V) :=
  table.insert key ((table[key]?).getD [] ++ [value])

/-- The turn of an environment. -/
def check (round : HealthRound) (env : CEnvironment) : HealthRound :=
  if env.healthy then
    if env.id ∈ round.lstCheckedUnhealthyEnv then
      { round with
        lstCheckedUnhealthyEnv := round.lstCheckedUnhealthyEnv.erase env.id
        notices := round.notices ++ [.becameHealthy env.name env.hubId] }
    else round
  else if env.id ∈ round.lstCheckedUnhealthyEnv then round
  else
    { round with
      lstCheckedUnhealthyEnv := round.lstCheckedUnhealthyEnv ++ [env.id]
      tblEnvs := pushBack env.status env.name round.tblEnvs
      tblEnvIds := pushBack env.status env.hubId round.tblEnvIds }

/-- The names under a status with the ids at the same indices; `none` is an index outside of the
vector of the ids. -/
def statusNotice (round : HealthRound) (entry : QString × List QString) : Option HealthNotice :=
  (entry.2.zipIdx.mapM fun named =>
    (((round.tblEnvIds[entry.1]?).getD [])[named.2]?).map fun hubId => (named.1, hubId)).map
      (.changedStatus entry.1)

def statusNotices (round : HealthRound) : Option (List HealthNotice) :=
  (round.tblEnvs.toList.filter fun entry => !entry.2.isEmpty).mapM round.statusNotice

end HealthRound

/-- The part of `environments_updated_sl` that is about the health: the new list, and what is told. -/
def announceHealth (envs : List CEnvironment) (lstCheckedUnhealthyEnv : List QString) :
    Option (List QString × List HealthNotice) :=
  let round := envs.foldl HealthRound.check (.start lstCheckedUnhealthyEnv)
  round.statusNotices.map fun notices => (round.lstCheckedUnhealthyEnv, round.notices ++ notices)

/-! ## What is to be told -/

/-- When the environment was last seen, it was not healthy. -/
def wasUnhealthy (seen : List CEnvironment) (id : QString) : Bool :=
  ((seen.filter fun env => env.id = id).getLast?).any fun env => !env.healthy

/-- The environments that are not healthy, and were healthy or not seen before. -/
def fallen (seen : List CEnvironment) : List CEnvironment → List CEnvironment
  | [] => []
  | env :: envs =>
      if !env.healthy && !wasUnhealthy seen env.id then env :: fallen (seen ++ [env]) envs
      else fallen (seen ++ [env]) envs

/-- The environments that are healthy again. -/
def recovered (seen : List CEnvironment) : List CEnvironment → List CEnvironment
  | [] => []
  | env :: envs =>
      if env.healthy && wasUnhealthy seen env.id then env :: recovered (seen ++ [env]) envs
      else recovered (seen ++ [env]) envs

def CEnvironment.named (env : CEnvironment) : QString × Int := (env.name, env.hubId)

namespace HealthNotice

def recovery : HealthNotice → Option (QString × Int)
  | .becameHealthy name hubId => some (name, hubId)
  | .changedStatus _ _ => none

def status : HealthNotice → Option QString
  | .becameHealthy _ _ => none
  | .changedStatus status _ => some status

end HealthNotice

/-- An environment is told when its health is not what it was when it was last seen. Those that got
the same status are told together. -/
structure Tells (seen envs : List CEnvironment) (notices : List HealthNotice) : Prop where
  recovered : notices.filterMap HealthNotice.recovery = (recovered seen envs).map CEnvironment.named
  statuses : (notices.filterMap HealthNotice.status).Nodup
  fallen : ∀ status named, .changedStatus status named ∈ notices ↔
    named ≠ [] ∧ named = ((fallen seen envs).filter fun env => env.status = status).map CEnvironment.named

variable {seen : List CEnvironment} {round : HealthRound}

theorem wasUnhealthy_concat (seen : List CEnvironment) (env : CEnvironment) (id : QString) :
    wasUnhealthy (seen ++ [env]) id = if env.id = id then !env.healthy else wasUnhealthy seen id := by
  rw [wasUnhealthy, List.filter_append, List.filter_singleton]
  by_cases hid : env.id = id
  · simp [hid]
  · simp [hid, wasUnhealthy]

theorem fallen_concat (seen envs : List CEnvironment) (env : CEnvironment) :
    fallen seen (envs ++ [env]) =
      fallen seen envs ++ if !env.healthy && !wasUnhealthy (seen ++ envs) env.id then [env] else [] := by
  induction envs generalizing seen with
  | nil =>
      rw [List.nil_append, fallen, fallen, fallen, List.append_nil, List.nil_append]
  | cons first envs ih =>
      rw [List.cons_append, fallen, fallen, ih, List.append_assoc, List.singleton_append]
      split
      · rw [List.cons_append]
      · rfl

theorem recovered_concat (seen envs : List CEnvironment) (env : CEnvironment) :
    recovered seen (envs ++ [env]) =
      recovered seen envs ++ if env.healthy && wasUnhealthy (seen ++ envs) env.id then [env] else [] := by
  induction envs generalizing seen with
  | nil =>
      rw [List.nil_append, recovered, recovered, recovered, List.append_nil, List.nil_append]
  | cons first envs ih =>
      rw [List.cons_append, recovered, recovered, ih, List.append_assoc, List.singleton_append]
      split
      · rw [List.cons_append]
      · rfl

/-! ## The loop -/

/-- The list has the environments that were unhealthy when they were last seen. -/
structure Watches (seen : List CEnvironment) (lstCheckedUnhealthyEnv : List QString) : Prop where
  nodup : lstCheckedUnhealthyEnv.Nodup
  mem_iff : ∀ id, id ∈ lstCheckedUnhealthyEnv ↔ wasUnhealthy seen id = true

/-- What the loop has noted of the environments up to here. -/
structure Noted (seen envs : List CEnvironment) (round : HealthRound) : Prop where
  watches : Watches (seen ++ envs) round.lstCheckedUnhealthyEnv
  notices : round.notices = (recovered seen envs).map fun env => .becameHealthy env.name env.hubId
  names : ∀ status : QString, (round.tblEnvs[status]?).getD [] =
    ((fallen seen envs).filter fun env => env.status = status).map CEnvironment.name
  ids : ∀ status : QString, (round.tblEnvIds[status]?).getD [] =
    ((fallen seen envs).filter fun env => env.status = status).map CEnvironment.hubId

theorem noted_start {watched : List QString} (h : Watches seen watched) :
    Noted seen [] (.start watched) := by
  refine ⟨?_, rfl, ?_, ?_⟩
  · rw [List.append_nil]
    exact h
  · intro status
    rw [HealthRound.start, Std.ExtTreeMap.getElem?_empty]
    rfl
  · intro status
    rw [HealthRound.start, Std.ExtTreeMap.getElem?_empty]
    rfl

theorem getD_pushBack {V : Type} (key other : QString) (value : V) (table : StdMap (List V)) :
    ((HealthRound.pushBack key value table)[other]?).getD [] =
      (table[other]?).getD [] ++ if key = other then [value] else [] := by
  rw [HealthRound.pushBack, Lookups.getElem?_insert]
  by_cases hother : other = key
  · rw [if_pos hother, if_pos hother.symm, hother, Option.getD_some]
  · rw [if_neg hother, if_neg (Ne.symm hother), List.append_nil]

/-- A vector under each status. -/
theorem vectors_pushBack {V : Type} {table : StdMap (List V)} {f : CEnvironment → V}
    {noted : List CEnvironment} (env : CEnvironment)
    (h : ∀ status : QString, (table[status]?).getD [] =
      (noted.filter fun env => env.status = status).map f) (status : QString) :
    ((HealthRound.pushBack env.status (f env) table)[status]?).getD [] =
      ((noted ++ [env]).filter fun env => env.status = status).map f := by
  rw [getD_pushBack, h, List.filter_append, List.map_append, List.filter_singleton]
  by_cases hstatus : env.status = status
  · simp [hstatus]
  · simp [hstatus]

theorem watches_concat {watched next : List QString} (h : Watches seen watched) (env : CEnvironment)
    (hnodup : next.Nodup)
    (hmem : ∀ id, id ∈ next ↔ if env.id = id then env.healthy = false else id ∈ watched) :
    Watches (seen ++ [env]) next := by
  refine ⟨hnodup, ?_⟩
  intro id
  rw [hmem, wasUnhealthy_concat]
  split
  · rw [Bool.not_eq_true']
  · exact h.mem_iff id

theorem noted_check {envs : List CEnvironment} (h : Noted seen envs round) (env : CEnvironment) :
    Noted seen (envs ++ [env]) (round.check env) := by
  have hwas := h.watches.mem_iff env.id
  rw [HealthRound.check]
  by_cases hhealthy : env.healthy = true
  · have hfallen : fallen seen (envs ++ [env]) = fallen seen envs := by
      rw [fallen_concat, hhealthy]
      exact List.append_nil _
    rw [if_pos hhealthy]
    by_cases hmem : env.id ∈ round.lstCheckedUnhealthyEnv
    · rw [if_pos hmem]
      refine ⟨?_, ?_, ?_, ?_⟩
      · rw [← List.append_assoc]
        refine watches_concat h.watches env (h.watches.nodup.erase _) ?_
        intro id
        rw [h.watches.nodup.mem_erase_iff]
        by_cases hid : env.id = id
        · rw [if_pos hid]
          exact iff_of_false (fun hboth => hboth.1 hid.symm) (Bool.not_eq_false _ ▸ hhealthy)
        · rw [if_neg hid]
          exact and_iff_right (Ne.symm hid)
      · rw [recovered_concat, hhealthy, hwas.mp hmem, List.map_append, ← h.notices]
        rfl
      · rw [hfallen]
        exact h.names
      · rw [hfallen]
        exact h.ids
    · rw [if_neg hmem]
      refine ⟨?_, ?_, ?_, ?_⟩
      · rw [← List.append_assoc]
        refine watches_concat h.watches env h.watches.nodup ?_
        intro id
        split
        · rename_i hid
          rw [← hid]
          exact iff_of_false hmem (Bool.not_eq_false _ ▸ hhealthy)
        · exact Iff.rfl
      · rw [recovered_concat, Bool.eq_false_iff.mpr (mt hwas.mpr hmem), Bool.and_false]
        exact h.notices.trans (congrArg _ (List.append_nil _).symm)
      · rw [hfallen]
        exact h.names
      · rw [hfallen]
        exact h.ids
  · have hrecovered : recovered seen (envs ++ [env]) = recovered seen envs := by
      rw [recovered_concat, Bool.eq_false_iff.mpr hhealthy]
      exact List.append_nil _
    rw [if_neg hhealthy]
    rw [Bool.not_eq_true] at hhealthy
    by_cases hmem : env.id ∈ round.lstCheckedUnhealthyEnv
    · have hfallen : fallen seen (envs ++ [env]) = fallen seen envs := by
        rw [fallen_concat, hhealthy, hwas.mp hmem]
        exact List.append_nil _
      rw [if_pos hmem]
      refine ⟨?_, ?_, ?_, ?_⟩
      · rw [← List.append_assoc]
        refine watches_concat h.watches env h.watches.nodup ?_
        intro id
        split
        · rename_i hid
          rw [← hid]
          exact iff_of_true hmem hhealthy
        · exact Iff.rfl
      · rw [hrecovered]
        exact h.notices
      · rw [hfallen]
        exact h.names
      · rw [hfallen]
        exact h.ids
    · have hfallen : fallen seen (envs ++ [env]) = fallen seen envs ++ [env] := by
        rw [fallen_concat, hhealthy, Bool.eq_false_iff.mpr (mt hwas.mpr hmem)]
        rfl
      rw [if_neg hmem]
      refine ⟨?_, ?_, ?_, ?_⟩
      · rw [← List.append_assoc]
        refine watches_concat h.watches env ?_ ?_
        · exact List.nodup_append.mpr ⟨h.watches.nodup, List.nodup_singleton _, fun a ha b hb =>
            fun heq => hmem (List.mem_singleton.mp hb ▸ heq ▸ ha)⟩
        · intro id
          rw [List.mem_append, List.mem_singleton]
          by_cases hid : env.id = id
          · rw [if_pos hid]
            exact iff_of_true (Or.inr hid.symm) hhealthy
          · rw [if_neg hid]
            exact or_iff_left (Ne.symm hid)
      · rw [hrecovered]
        exact h.notices
      · rw [hfallen]
        exact vectors_pushBack env h.names
      · rw [hfallen]
        exact vectors_pushBack env h.ids

theorem noted_foldl {watched : List QString} (h : Watches seen watched) (envs : List CEnvironment) :
    Noted seen envs (envs.foldl HealthRound.check (.start watched)) := by
  induction envs using List.reverseRecOn with
  | nil => exact noted_start h
  | append_singleton envs env ih =>
      rw [List.foldl_append]
      exact noted_check ih env

/-! ## The messages -/

theorem mapM_eq_some_map {A B : Type} {f : A → Option B} {g : A → B} {as : List A}
    (h : ∀ a ∈ as, f a = some (g a)) : as.mapM f = some (as.map g) := by
  induction as with
  | nil => rfl
  | cons a as ih =>
      rw [List.mapM_cons, h a List.mem_cons_self, ih fun other hother => h other (List.mem_cons_of_mem a hother)]
      rfl

theorem mapM_zipIdx {A B C : Type} (f : A → B) (g : A → C) (as : List A) :
    ((as.map f).zipIdx.mapM fun (b, i) => ((as.map g)[i]?).map fun c => (b, c)) =
      some (as.map fun a => (f a, g a)) := by
  rw [List.zipIdx_map, List.mapM_map]
  have hzip : as.map (fun a => (f a, g a)) = as.zipIdx.map fun (a, _) => (f a, g a) := by
    have hmap := congrArg (List.map fun a => (f a, g a)) (List.zipIdx_map_fst 0 as)
    rw [List.map_map] at hmap
    exact hmap.symm
  rw [hzip]
  apply mapM_eq_some_map
  rintro ⟨a, i⟩ hmem
  rw [List.mem_zipIdx_iff_getElem?] at hmem
  show ((as.map g)[i]?).map _ = _
  rw [List.getElem?_map, hmem]
  rfl

section
variable {envs : List CEnvironment} (h : Noted seen envs round)
include h

/-- The vectors under a status are of one length. -/
theorem statusNotice_eq {entry : QString × List QString}
    (hentry : round.tblEnvs[entry.1]? = some entry.2) :
    round.statusNotice entry = some (.changedStatus entry.1
      (((fallen seen envs).filter fun env => env.status = entry.1).map CEnvironment.named)) := by
  have hnames := h.names entry.1
  rw [hentry, Option.getD_some] at hnames
  have haligned := mapM_zipIdx CEnvironment.name CEnvironment.hubId
    ((fallen seen envs).filter fun env => env.status = entry.1)
  rw [HealthRound.statusNotice, hnames, h.ids entry.1, haligned]
  rfl

/-- Each status of those that fell has its message. -/
theorem exists_tells :
    ∃ notices, round.statusNotices = some notices ∧ Tells seen envs (round.notices ++ notices) := by
  have hentries (entry : QString × List QString) :
      entry ∈ round.tblEnvs.toList.filter (fun entry => !entry.2.isEmpty) ↔
        round.tblEnvs[entry.1]? = some entry.2 ∧ entry.2 ≠ [] := by
    rw [List.mem_filter, Std.ExtTreeMap.mem_toList_iff_getElem?_eq_some, Bool.not_eq_true',
      List.isEmpty_eq_false_iff]
  refine ⟨_, mapM_eq_some_map fun entry hentry => statusNotice_eq h ((hentries entry).mp hentry).1, ?_⟩
  have hrecovery : (round.notices.filterMap HealthNotice.recovery) =
      (recovered seen envs).map CEnvironment.named := by
    rw [h.notices, List.filterMap_map, ← List.filterMap_eq_map]
    rfl
  have hstatus : round.notices.filterMap HealthNotice.status = [] := by
    rw [h.notices, List.filterMap_map]
    exact List.filterMap_eq_nil_iff.mpr fun _ _ => rfl
  refine ⟨?_, ?_, ?_⟩
  · have hnone (entries : List (QString × List QString)) :
        entries.filterMap (HealthNotice.recovery ∘ fun entry => .changedStatus entry.1
          (((fallen seen envs).filter fun env => env.status = entry.1).map CEnvironment.named)) = [] :=
      List.filterMap_eq_nil_iff.mpr fun _ _ => rfl
    rw [List.filterMap_append, hrecovery, List.filterMap_map, hnone, List.append_nil]
  · have hkeys (entries : List (QString × List QString)) :
        entries.filterMap (HealthNotice.status ∘ fun entry => .changedStatus entry.1
          (((fallen seen envs).filter fun env => env.status = entry.1).map CEnvironment.named)) =
            entries.map Prod.fst :=
      congrFun (List.filterMap_eq_map (f := Prod.fst)) entries
    rw [List.filterMap_append, hstatus, List.nil_append, List.filterMap_map, hkeys]
    refine List.Nodup.sublist ((List.filter_sublist).map Prod.fst) ?_
    rw [Std.ExtTreeMap.map_fst_toList_eq_keys]
    exact Std.ExtTreeMap.nodup_keys
  · intro status named
    have hnames := h.names status
    rw [List.mem_append, List.mem_map]
    constructor
    · rintro (hbefore | ⟨entry, hentry, heq⟩)
      · rw [h.notices] at hbefore
        obtain ⟨env, -, heq⟩ := List.mem_map.mp hbefore
        exact HealthNotice.noConfusion heq
      · obtain ⟨hat, hnonempty⟩ := (hentries entry).mp hentry
        obtain ⟨rfl, rfl⟩ := HealthNotice.changedStatus.inj heq
        refine ⟨?_, rfl⟩
        rw [hat, Option.getD_some] at hnames
        rw [hnames, ne_eq, List.map_eq_nil_iff] at hnonempty
        rwa [ne_eq, List.map_eq_nil_iff]
    · rintro ⟨hnonempty, rfl⟩
      rw [ne_eq, List.map_eq_nil_iff] at hnonempty
      cases hat : round.tblEnvs[status]? with
      | none =>
          rw [hat, Option.getD_none] at hnames
          exact absurd (List.map_eq_nil_iff.mp hnames.symm) hnonempty
      | some names =>
          rw [hat, Option.getD_some] at hnames
          refine Or.inr ⟨(status, names), (hentries _).mpr ⟨hat, ?_⟩, rfl⟩
          rwa [hnames, ne_eq, List.map_eq_nil_iff]

end

/-! ### Their texts -/

namespace HealthNotice

section
variable {base userId : QString} (hbase : '%' ∉ base) (huser : '%' ∉ userId)
include hbase huser

theorem link_eq (env : QString × Int) :
    link (base ++ "%1".toList) userId env =
      "<a href=".toList ++ (base ++ userId ++ "/environments/".toList ++ number env.2) ++ ">".toList ++
        env.1 ++ "</a>".toList := by
  have hopen (a : QString) : arg "<a href=%1>".toList a = "<a href=".toList ++ a ++ ">".toList := by
    rw [List.append_assoc]
    rfl
  have hurl : arg (envUrl (base ++ "%1".toList) userId) (number env.2) =
      base ++ userId ++ "/environments/".toList ++ number env.2 := by
    have hfront : '%' ∉ base ++ userId ++ "/environments/".toList := by
      rw [List.mem_append, List.mem_append, not_or, not_or]
      exact ⟨⟨hbase, huser⟩, by decide⟩
    have hsplit : "/environments/%1".toList = "/environments/".toList ++ "%1".toList := rfl
    rw [envUrl, arg_append hbase, arg_one, hsplit, ← List.append_assoc, arg_append hfront, arg_one]
  rw [link, hurl, hopen]

theorem percent_notMem_link {env : QString × Int} (hname : '%' ∉ env.1) :
    '%' ∉ link (base ++ "%1".toList) userId env := by
  have hnumber : '%' ∉ number env.2 := notMem_number (by decide) (by decide) env.2
  rw [link_eq hbase huser]
  simp only [List.mem_append, not_or]
  exact ⟨⟨⟨⟨by decide, ⟨⟨hbase, huser⟩, by decide⟩, hnumber⟩, by decide⟩, hname⟩, by decide⟩

end

theorem notMem_intercalate {c : Char} {separator : QString} (hseparator : c ∉ separator)
    {parts : List QString} (hparts : ∀ part ∈ parts, c ∉ part) : c ∉ separator.intercalate parts := by
  induction parts with
  | nil => exact List.not_mem_nil
  | cons part parts ih =>
      have hpart := hparts part List.mem_cons_self
      have hrest := ih fun other hother => hparts other (List.mem_cons_of_mem part hother)
      by_cases hnil : parts = []
      · rw [hnil, List.intercalate_singleton]
        exact hpart
      · rw [List.intercalate_cons_of_ne_nil hnil, List.mem_append, List.mem_append]
        tauto

/-- The texts are put in one after the other; a name with a place marker of its own would get the texts
that come after it. -/
theorem text_changedStatus {base userId : QString} (hbase : '%' ∉ base) (huser : '%' ∉ userId)
    (status : QString) {named : List (QString × Int)} (hnames : ∀ env ∈ named, '%' ∉ env.1) :
    text (base ++ "%1".toList) userId (.changedStatus status named) =
      "Environment".toList ++ (if named.length > 1 then "s".toList else []) ++ " ".toList ++
        ", ".toList.intercalate (named.map (link (base ++ "%1".toList) userId)) ++ " ".toList ++
          (if named.length > 1 then "are".toList else "is".toList) ++ " ".toList ++ status := by
  have hlinks : '%' ∉ ", ".toList.intercalate (named.map (link (base ++ "%1".toList) userId)) := by
    apply notMem_intercalate (by decide)
    intro part hpart
    obtain ⟨env, henv, rfl⟩ := List.mem_map.mp hpart
    exact percent_notMem_link hbase huser (hnames env henv)
  rw [text]
  generalize ", ".toList.intercalate (named.map (link (base ++ "%1".toList) userId)) = links at hlinks ⊢
  have hsecond (a : QString) : arg "%2 %3 %4".toList a = a ++ " ".toList ++ "%3 %4".toList := by
    rw [List.append_assoc]
    rfl
  have hthird (a : QString) : arg "%3 %4".toList a = a ++ " ".toList ++ "%4".toList := by
    rw [List.append_assoc]
    rfl
  have hlast (a : QString) : arg "%4".toList a = a := List.append_nil a
  have hfill (first verb : QString) (hfirst : '%' ∉ first) (hverb : '%' ∉ verb) :
      arg (arg (arg (first ++ "%2 %3 %4".toList) links) verb) status =
        first ++ links ++ " ".toList ++ verb ++ " ".toList ++ status := by
    have hfront : '%' ∉ first ++ (links ++ " ".toList) := by
      rw [List.mem_append, List.mem_append, not_or, not_or]
      exact ⟨hfirst, hlinks, by decide⟩
    have hfront' : '%' ∉ first ++ (links ++ " ".toList) ++ (verb ++ " ".toList) := by
      rw [List.mem_append, List.mem_append (s := verb), not_or, not_or]
      exact ⟨hfront, hverb, by decide⟩
    rw [arg_append hfirst, hsecond, ← List.append_assoc first, arg_append hfront, hthird,
      ← List.append_assoc (first ++ _), arg_append hfront', hlast]
    simp only [List.append_assoc]
  split
  · exact hfill "Environments ".toList "are".toList (by decide) (by decide)
  · exact hfill "Environment ".toList "is".toList (by decide) (by decide)

/-- Here both texts are put in at once, so the name may be any. -/
theorem text_becameHealthy {base userId : QString} (hbase : '%' ∉ base) (name : QString) (hubId : Int) :
    text (base ++ "%1".toList) userId (.becameHealthy name hubId) =
      "Environment <a href=".toList ++ (base ++ userId ++ "/environments/".toList ++ number hubId) ++
        ">".toList ++ name ++ "</a> became healthy".toList := by
  have hboth (url : QString) :
      multiArg "Environment <a href=%1>%2</a> became healthy".toList [url, name] =
        "Environment <a href=".toList ++ (url ++ (">".toList ++ (name ++ "</a> became healthy".toList))) :=
    rfl
  have hurl : arg "/environments/%1".toList (number hubId) = "/environments/".toList ++ number hubId := by
    have hsplit : "/environments/%1".toList = "/environments/".toList ++ "%1".toList := rfl
    rw [hsplit, arg_append (by decide), arg_one]
  rw [text, hboth, hurl, arg_append hbase, arg_one]
  simp only [List.append_assoc]

end HealthNotice

/-! ## Runs -/

theorem exists_announceHealth {watched : List QString} (h : Watches seen watched)
    (envs : List CEnvironment) :
    ∃ next notices, announceHealth envs watched = some (next, notices) ∧
      Watches (seen ++ envs) next ∧ Tells seen envs notices := by
  have hnoted := noted_foldl h envs
  obtain ⟨notices, hnotices, htells⟩ := exists_tells hnoted
  refine ⟨_, _, ?_, hnoted.watches, htells⟩
  rw [announceHealth, hnotices, Option.map_some]

/-- The list after some calls. -/
def watchedAfter (updates : List (List CEnvironment)) : Option (List QString) :=
  updates.foldlM (fun watched envs => (announceHealth envs watched).map Prod.fst) []

theorem exists_watchedAfter (updates : List (List CEnvironment)) :
    ∃ watched, watchedAfter updates = some watched ∧ Watches updates.flatten watched := by
  induction updates using List.reverseRecOn with
  | nil => exact ⟨[], rfl, List.nodup_nil, fun id => iff_of_false List.not_mem_nil Bool.false_ne_true⟩
  | append_singleton updates envs ih =>
      obtain ⟨watched, hrun, hwatches⟩ := ih
      obtain ⟨next, notices, hnext, hwatches', -⟩ := exists_announceHealth hwatches envs
      refine ⟨next, ?_, ?_⟩
      · rw [watchedAfter, Runs.foldlM_concat, ← watchedAfter, hrun, Option.bind_some, hnext,
          Option.map_some]
      · rw [List.flatten_append, List.flatten_singleton]
        exact hwatches'

/-- After any updates, an update tells of just those environments whose health is not what it was when
they were last seen, however long ago, each under the status that it has got. -/
theorem exists_tells_run (updates : List (List CEnvironment)) (envs : List CEnvironment) :
    ∃ watched next notices, watchedAfter updates = some watched ∧
      announceHealth envs watched = some (next, notices) ∧ Tells updates.flatten envs notices := by
  obtain ⟨watched, hrun, hwatches⟩ := exists_watchedAfter updates
  obtain ⟨next, notices, hnext, -, htells⟩ := exists_announceHealth hwatches envs
  exact ⟨watched, next, notices, hrun, hnext, htells⟩

end SubutaiTray.Hub
