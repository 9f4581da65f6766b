import Mathlib.Data.List.Nodup
import Mathlib.Data.List.Perm.Basic
import SubutaiTray.Hub.SshKeyIndex

/-!
Which key the loops of `check_environment_keys` address.

One counter stands for the position in the keys, in the reply of the hub and in the list of an
environment. The keys and the list are two different selections, and the list loses an entry
each time a file is gone.
-/
namespace SubutaiTray.Hub.SshKeyController

/-- A turn of the loop over the keys, in an environment that is known: the counter is the
position of the key, and the key gets the environment, or its content goes from the list. -/
def KeyAddressed (fileExists : QString → Bool) (envId : QString)
    (found : List SshKey × List QString) (turn : SshKey × Nat) : Prop :=
  turn.1.content ∈ found.2 → counter turn.2 = turn.2 ∧
    if fileExists turn.1.path = true then
      checkKey fileExists envId found turn = some (found.1.modify turn.2 (addEnvId envId), found.2)
    else
      found.2[turn.2]? = some turn.1.content ∧
        checkKey fileExists envId found turn = some (found.1, found.2.eraseIdx turn.2)

/-- A turn of the loop over the reply: the key at the position of the answer is saved. -/
def ReplyAddressed (found : List SshKey × Envs) (turn : Bool × Nat) : Prop :=
  turn.1 = true → counter turn.2 = turn.2 ∧ ∃ key, found.1[turn.2]? = some key ∧
    saveKey found turn =
      some
        (found.1.modify turn.2 (addEnvId found.2.id),
          { found.2 with
            keys := found.2.keys ++ [key]
            lstSshContents := found.2.lstSshContents ++ [key.content] })

def EnvironmentAddressed (response : QString → List Bool) (fileExists : QString → Bool)
    (run : SshKeyController) (env : QString × QString) : Prop :=
  match run.envs[env.1]? with
  | some known =>
      Runs.EachTurn (checkKey fileExists env.1) (KeyAddressed fileExists env.1)
        (run.keys, known.lstSshContents) run.keys.zipIdx
  | none =>
      Runs.EachTurn saveKey ReplyAddressed (run.keys, ⟨env.1, env.2, [], []⟩)
        (response env.1).zipIdx

/-- No access of the check is out of range, and all turns of its loops address the right key. -/
def CheckAddressed (response : QString → List Bool) (fileExists : QString → Bool)
    (run : SshKeyController) : Prop :=
  (run.checkEnvironmentKeys response fileExists).isSome = true ∧
    ∀ past env t, past ++ [env] <+: run.lstHealthyEnvironments.toList →
      past.foldlM (checkEnvironment response fileExists) run.cleanUp = some t →
        EnvironmentAddressed response fileExists t env

/-! ## Conditions on the state before -/

/-- The contents of the keys whose files are gone. -/
def missing (fileExists : QString → Bool) (keys : List SshKey) : List QString :=
  (keys.filter fun key => fileExists key.path = false).map SshKey.content

/-- What the list should be when the loop is at the position. -/
def left (fileExists : QString → Bool) (keys : List SshKey) (lst : List QString) (i : Nat) :
    List QString :=
  lst.diff (missing fileExists (keys.take i))

/-- The counter reaches every key that is listed, and of a key whose file is gone the content
stands behind as many entries that stay as there are keys before it. -/
def Reached (fileExists : QString → Bool) (keys : List SshKey) (lst : List QString) (i : Nat)
    (key : SshKey) : Prop :=
  key.content ∈ left fileExists keys lst i → i < 256 ∧
    (fileExists key.path = false →
      lst[i + (lst.length - (left fileExists keys lst i).length)]? = some key.content)

/-- The counter reaches every positive answer, and there is a key for it. -/
def Answerable (keys : List SshKey) (i : Nat) (answer : Bool) : Prop :=
  answer = true → i < 256 ∧ i < keys.length

def EnvironmentAddressable (response : QString → List Bool) (fileExists : QString → Bool)
    (run : SshKeyController) (id : QString) : Prop :=
  match run.envs[id]? with
  | some known =>
      ∀ i key, run.keys[i]? = some key → Reached fileExists run.keys known.lstSshContents i key
  | none => ∀ i answer, (response id)[i]? = some answer → Answerable run.keys i answer

/-! ## A known environment -/

theorem missing_eq (fileExists : QString → Bool) (keys : List SshKey) :
    missing fileExists keys =
      ((keys.map addressed).filter fun key => fileExists key.2 = false).map Prod.fst := by
  rw [missing, List.filter_map, List.map_map]
  rfl

theorem left_succ {fileExists : QString → Bool} {keys : List SshKey} {key : SshKey} {i : Nat}
    (hget : keys[i]? = some key) (lst : List QString) :
    left fileExists keys lst (i + 1) =
      if fileExists key.path = true then left fileExists keys lst i
      else (left fileExists keys lst i).erase key.content := by
  obtain ⟨hi, rfl⟩ := List.getElem?_eq_some_iff.mp hget
  rw [left, List.take_succ_eq_append_getElem hi, missing, List.filter_append, List.map_append,
    List.diff_append]
  by_cases hfile : fileExists keys[i].path = true
  · rw [if_pos hfile, List.filter_cons_of_neg (by simp [hfile])]
    rfl
  · rw [if_neg hfile, List.filter_cons_of_pos (by simpa using hfile), List.filter_nil, List.map_cons,
      List.map_nil, List.diff_cons, List.diff_nil]
    rfl

/-- After as many turns as keys: the contents of the missing ones are gone, and what the next
turns can erase has moved by as many places. -/
structure AfterKeys (fileExists : QString → Bool) (keys : List SshKey) (lst : List QString) (i : Nat)
    (found : List SshKey × List QString) : Prop where
  same : found.1.map addressed = keys.map addressed
  listed : found.2.Perm (left fileExists keys lst i)
  behind : ∀ j, i ≤ j → found.2[j]? = lst[j + (lst.length - found.2.length)]?

section
variable {fileExists : QString → Bool} {envId : QString} {keys : List SshKey} {lst : List QString}
  {found : List SshKey × List QString} {key : SshKey} {i : Nat}

theorem AfterKeys.start (keys : List SshKey) (lst : List QString) :
    AfterKeys fileExists keys lst 0 (keys, lst) where
  same := rfl
  listed := .refl _
  behind j _ := by
    dsimp only
    rw [Nat.sub_self, Nat.add_zero]

theorem AfterKeys.getElem? (h : AfterKeys fileExists keys lst i found) (hget : keys[i]? = some key) :
    ∃ key', found.1[i]? = some key' ∧ key'.path = key.path := by
  obtain ⟨key', hkey', -, hpath⟩ := getElem?_congr h.same hget
  exact ⟨key', hkey', hpath⟩

/-- The turn of a key that is listed, once the counter reaches it. -/
theorem AfterKeys.checkKey_eq (h : AfterKeys fileExists keys lst i found) (hget : keys[i]? = some key)
    (hlisted : key.content ∈ found.2) (hi : counter i = i) :
    checkKey fileExists envId found (key, i) =
      if fileExists key.path = true then some (found.1.modify i (addEnvId envId), found.2)
      else if i < found.2.length then some (found.1, found.2.eraseIdx i)
      else none := by
  obtain ⟨key', hkey', hpath⟩ := h.getElem? hget
  rw [checkKey, if_pos hlisted]
  dsimp only
  rw [hi, hkey']
  dsimp only
  rw [hpath]

theorem AfterKeys.keyAddressed_iff (h : AfterKeys fileExists keys lst i found)
    (hget : keys[i]? = some key) :
    KeyAddressed fileExists envId found (key, i) ↔ Reached fileExists keys lst i key := by
  rw [KeyAddressed, Reached, h.listed.mem_iff, ← counter_eq_iff]
  refine imp_congr_right fun hleft => and_congr_right fun hi => ?_
  have hlisted := h.listed.mem_iff.mpr hleft
  rw [h.checkKey_eq hget hlisted hi]
  by_cases hfile : fileExists key.path = true
  · rw [if_pos hfile, if_pos hfile, hfile]
    exact iff_of_true rfl fun hgone => absurd hgone.symm Bool.false_ne_true
  · rw [if_neg hfile, if_neg hfile, ← h.listed.length_eq, ← h.behind i (Nat.le_refl i)]
    rw [Bool.not_eq_true] at hfile
    rw [hfile, imp_iff_right rfl]
    refine and_iff_left_of_imp fun hentry => ?_
    rw [if_pos (List.getElem?_eq_some_iff.mp hentry).1]

/-- The list after a right turn is the one that the next turn expects. -/
theorem AfterKeys.next (h : AfterKeys fileExists keys lst i found) (hget : keys[i]? = some key)
    (haddressed : KeyAddressed fileExists envId found (key, i)) :
    ∃ found', checkKey fileExists envId found (key, i) = some found' ∧
      AfterKeys fileExists keys lst (i + 1) found' := by
  have hsucc := @left_succ fileExists keys key i hget lst
  by_cases hlisted : key.content ∈ found.2
  · obtain ⟨hi, hturn⟩ := haddressed hlisted
    dsimp only at hi hturn
    by_cases hfile : fileExists key.path = true
    · rw [if_pos hfile] at hturn hsucc
      refine ⟨_, hturn, (map_addressed_modify envId found.1 i).trans h.same, ?_, ?_⟩
      · rw [hsucc]
        exact h.listed
      · exact fun j hj => h.behind j (Nat.le_of_succ_le hj)
    · rw [if_neg hfile] at hturn hsucc
      obtain ⟨hentry, hstep⟩ := hturn
      obtain ⟨hlt, hcontent⟩ := List.getElem?_eq_some_iff.mp hentry
      have hle : found.2.length ≤ lst.length := by
        rw [h.listed.length_eq, left]
        exact (List.diff_sublist _ _).length_le
      refine ⟨_, hstep, h.same, ?_, ?_⟩
      · rw [hsucc]
        have hperm := List.getElem_cons_eraseIdx_perm hlt
        rw [hcontent] at hperm
        have hmem := h.listed.mem_iff.mp hlisted
        exact List.Perm.cons_inv (hperm.trans (h.listed.trans (List.perm_cons_erase hmem)))
      · intro j hj
        dsimp only
        rw [List.getElem?_eraseIdx_of_ge (Nat.le_of_succ_le hj), h.behind (j + 1) (by omega),
          List.length_eraseIdx_of_lt hlt]
        congr 1
        omega
  · refine ⟨found, ?_, h.same, ?_, ?_⟩
    · rw [checkKey, if_neg hlisted]
    · rw [hsucc]
      split
      · exact h.listed
      · rw [List.erase_of_not_mem (mt h.listed.mem_iff.mpr hlisted)]
        exact h.listed
    · exact fun j hj => h.behind j (Nat.le_of_succ_le hj)

theorem getElem?_zipIdx_iff {α : Type} {xs : List α} {turn : α × Nat} :
    xs.zipIdx[i]? = some turn ↔ xs[i]? = some turn.1 ∧ turn.2 = i := by
  rw [List.getElem?_zipIdx, Option.map_eq_some_iff]
  constructor
  · rintro ⟨x, hx, rfl⟩
    exact ⟨hx, Nat.zero_add i⟩
  · rintro ⟨hx, rfl⟩
    exact ⟨turn.1, hx, by rw [Nat.zero_add]⟩

theorem keysAddressed_iff (fileExists : QString → Bool) (envId : QString) (keys : List SshKey)
    (lst : List QString) :
    Runs.EachTurn (checkKey fileExists envId) (KeyAddressed fileExists envId) (keys, lst) keys.zipIdx ↔
      ∀ i key, keys[i]? = some key → Reached fileExists keys lst i key := by
  refine (@Runs.eachTurn_iff _ _ _ _ (AfterKeys fileExists keys lst) _
    (fun i turn => Reached fileExists keys lst i turn.1) _ (.start keys lst) ?_ ?_).trans ?_
  · rintro i ⟨key, j⟩ found hget hafter
    obtain ⟨hkey, rfl⟩ := getElem?_zipIdx_iff.mp hget
    exact hafter.keyAddressed_iff hkey
  · rintro i ⟨key, j⟩ found hget hafter haddressed
    obtain ⟨hkey, rfl⟩ := getElem?_zipIdx_iff.mp hget
    exact hafter.next hkey haddressed
  · constructor
    · exact fun h i key hkey => h i (key, i) (getElem?_zipIdx_iff.mpr ⟨hkey, rfl⟩)
    · exact fun h i turn hget => h i turn.1 (getElem?_zipIdx_iff.mp hget).1

end

/-! ## A new environment -/

theorem repliesAddressed_iff (keys : List SshKey) (env : Envs) (response : List Bool) :
    Runs.EachTurn saveKey ReplyAddressed (keys, env) response.zipIdx ↔
      ∀ i answer, response[i]? = some answer → Answerable keys i answer := by
  refine (@Runs.eachTurn_iff _ _ _ _ (fun _ found => found.1.length = keys.length) _
    (fun i turn => Answerable keys i turn.1) _ rfl ?_ ?_).trans ?_
  · rintro i ⟨answer, j⟩ found hget hlength
    obtain ⟨-, rfl⟩ := getElem?_zipIdx_iff.mp hget
    rw [ReplyAddressed, Answerable, counter_eq_iff]
    dsimp only
    refine imp_congr_right fun hanswer => and_congr_right fun hj => ?_
    rw [← hlength]
    constructor
    · rintro ⟨key, hkey, -⟩
      exact (List.getElem?_eq_some_iff.mp hkey).1
    · intro hlt
      refine ⟨found.1[j], List.getElem?_eq_getElem hlt, ?_⟩
      rw [saveKey, if_pos hanswer]
      dsimp only
      rw [(counter_eq_iff j).mpr hj, List.getElem?_eq_getElem hlt]
  · rintro i ⟨answer, j⟩ found hget hlength haddressed
    by_cases hanswer : answer = true
    · obtain ⟨-, key, -, hstep⟩ := haddressed hanswer
      exact ⟨_, hstep, (List.length_modify ..).trans hlength⟩
    · exact ⟨found, if_neg hanswer, hlength⟩
  · constructor
    · exact fun h i answer hanswer => h i (answer, i) (getElem?_zipIdx_iff.mpr ⟨hanswer, rfl⟩)
    · exact fun h i turn hget => h i turn.1 (getElem?_zipIdx_iff.mp hget).1

/-! ## The whole check -/

section
variable {response : QString → List Bool} {fileExists : QString → Bool} {run t t' : SshKeyController}
  {keys keys' : List SshKey}

theorem missing_take_congr (h : keys.map addressed = keys'.map addressed) (i : Nat) :
    missing fileExists (keys.take i) = missing fileExists (keys'.take i) := by
  rw [missing_eq, missing_eq, List.map_take, List.map_take, h]

/-- What is reached depends on the contents and the files only. -/
theorem reached_congr (h : keys.map addressed = keys'.map addressed) (lst : List QString) :
    (∀ i key, keys[i]? = some key → Reached fileExists keys lst i key) →
      ∀ i key, keys'[i]? = some key → Reached fileExists keys' lst i key := by
  intro hreached i key' hget'
  have hkeys := congrArg (fun list => list[i]?) h
  rw [List.getElem?_map, List.getElem?_map, hget', Option.map_some] at hkeys
  obtain ⟨key, hget, heq⟩ := Option.map_eq_some_iff.mp hkeys
  obtain ⟨hcontent, hpath⟩ := Prod.mk.injEq .. ▸ heq
  have hkey := hreached i key hget
  rw [Reached, left, missing_take_congr h, hcontent, hpath] at hkey
  exact hkey

theorem environmentAddressed_iff (env : QString × QString) :
    EnvironmentAddressed response fileExists run env ↔
      EnvironmentAddressable response fileExists run env.1 := by
  rw [EnvironmentAddressed, EnvironmentAddressable]
  cases run.envs[env.1]? with
  | some known => exact keysAddressed_iff fileExists env.1 run.keys known.lstSshContents
  | none => exact repliesAddressed_iff run.keys _ (response env.1)

theorem environmentAddressable_congr (h : t.keys.map addressed = run.keys.map addressed)
    {id : QString} (henvs : t.envs[id]? = run.envs[id]?) :
    EnvironmentAddressable response fileExists t id ↔
      EnvironmentAddressable response fileExists run id := by
  rw [EnvironmentAddressable, EnvironmentAddressable, henvs]
  cases run.envs[id]? with
  | some known => exact ⟨reached_congr h _, reached_congr h.symm _⟩
  | none =>
      have hlength := congrArg List.length h
      rw [List.length_map, List.length_map] at hlength
      dsimp only
      simp only [Answerable, hlength]

/-- An environment leaves the contents, the files and the other environments as they are. -/
theorem map_addressed_checkEnvironment {env : QString × QString}
    (h : checkEnvironment response fileExists t env = some t') :
    t'.keys.map addressed = t.keys.map addressed ∧
      ∀ id, id ≠ env.1 → t'.envs[id]? = t.envs[id]? :=
  ⟨(frame_checkEnvironment h).same, (frame_checkEnvironment h).envs⟩

theorem isSome_of_environmentAddressed {env : QString × QString}
    (h : EnvironmentAddressed response fileExists t env) :
    ∃ t', checkEnvironment response fileExists t env = some t' := by
  rw [EnvironmentAddressed] at h
  rw [checkEnvironment]
  cases hknown : t.envs[env.1]? with
  | some known =>
      rw [hknown] at h
      obtain ⟨found, hfound⟩ := Option.isSome_iff_exists.mp h.1
      dsimp only
      rw [hfound]
      exact ⟨_, rfl⟩
  | none =>
      rw [hknown] at h
      obtain ⟨found, hfound⟩ := Option.isSome_iff_exists.mp h.1
      dsimp only
      rw [hfound]
      exact ⟨_, rfl⟩

end

/-- The environments of the next turns are as they were before the check. -/
structure AfterEnvironments (run : SshKeyController) (i : Nat) (t : SshKeyController) : Prop where
  same : t.keys.map addressed = run.keys.map addressed
  envs : ∀ j env, i ≤ j → run.lstHealthyEnvironments.toList[j]? = some env →
    t.envs[env.1]? = run.envs[env.1]?

section
variable {response : QString → List Bool} {fileExists : QString → Bool} {run t t' : SshKeyController}

theorem mem_of_getElem?_toList {m : StdMap QString} {i : Nat} {env : QString × QString}
    (h : m.toList[i]? = some env) : env.1 ∈ m := by
  rw [← Std.ExtTreeMap.mem_keys, ← Std.ExtTreeMap.map_fst_toList_eq_keys]
  exact List.mem_map_of_mem (List.mem_of_getElem? h)

theorem afterEnvironments_cleanUp (run : SshKeyController) : AfterEnvironments run 0 run.cleanUp where
  same := by rw [keys_cleanUp]
  envs j env _ hget := getElem?_cleanUp_of_mem (mem_of_getElem?_toList hget)

theorem AfterEnvironments.next {i : Nat} {env : QString × QString} (h : AfterEnvironments run i t)
    (hget : run.lstHealthyEnvironments.toList[i]? = some env)
    (hstep : checkEnvironment response fileExists t env = some t') : AfterEnvironments run (i + 1) t' := by
  obtain ⟨hsame, henvs⟩ := map_addressed_checkEnvironment hstep
  refine ⟨hsame.trans h.same, fun j env' hj hget' => ?_⟩
  rw [henvs env'.1 ?_, h.envs j env' (Nat.le_of_succ_le hj) hget']
  intro heq
  have hnodup : (run.lstHealthyEnvironments.toList.map Prod.fst).Nodup := by
    rw [Std.ExtTreeMap.map_fst_toList_eq_keys]
    exact Std.ExtTreeMap.nodup_keys
  have hj' : j < (run.lstHealthyEnvironments.toList.map Prod.fst).length := by
    rw [List.length_map]
    exact (List.getElem?_eq_some_iff.mp hget').1
  apply List.nodup_iff_getElem?_ne_getElem?.mp hnodup i j (by omega) hj'
  rw [List.getElem?_map, List.getElem?_map, hget, hget', Option.map_some, Option.map_some, heq]

end

/-- A check addresses the right key in each turn and stays in range if and only if every healthy
environment is addressable before it. -/
theorem checkAddressed_iff (response : QString → List Bool) (fileExists : QString → Bool)
    (run : SshKeyController) :
    CheckAddressed response fileExists run ↔
      ∀ id ∈ run.lstHealthyEnvironments, EnvironmentAddressable response fileExists run id := by
  have heach : CheckAddressed response fileExists run ↔
      Runs.EachTurn (checkEnvironment response fileExists) (EnvironmentAddressed response fileExists)
        run.cleanUp run.lstHealthyEnvironments.toList := by
    rw [CheckAddressed, checkEnvironmentKeys, Option.isSome_map]
    rfl
  refine heach.trans ((@Runs.eachTurn_iff _ _ _ _ (AfterEnvironments run) _
    (fun _ env => EnvironmentAddressable response fileExists run env.1) _
    (afterEnvironments_cleanUp run) ?_ ?_).trans ?_)
  · intro i env t hget hafter
    exact (environmentAddressed_iff env).trans
      (environmentAddressable_congr hafter.same (hafter.envs i env (Nat.le_refl i) hget))
  · intro i env t hget hafter haddressed
    obtain ⟨t', ht'⟩ := isSome_of_environmentAddressed haddressed
    exact ⟨t', ht', hafter.next hget ht'⟩
  · constructor
    · intro h id hid
      rw [← Std.ExtTreeMap.mem_keys, ← Std.ExtTreeMap.map_fst_toList_eq_keys] at hid
      obtain ⟨env, henv, rfl⟩ := List.mem_map.mp hid
      obtain ⟨i, hi⟩ := List.mem_iff_getElem?.mp henv
      exact h i env hi
    · exact fun h i env hget => h env.1 (mem_of_getElem?_toList hget)

/-- Three keys, of which the environment has the last two. -/
def twoOfThree : SshKeyController :=
  { new with
    keys :=
      [⟨"a.pub".toList, "/k/a.pub".toList, "ssh-rsa a".toList, []⟩,
        ⟨"b.pub".toList, "/k/b.pub".toList, "ssh-rsa b".toList, ["e1".toList]⟩,
        ⟨"c.pub".toList, "/k/c.pub".toList, "ssh-rsa c".toList, ["e1".toList]⟩]
    envs :=
      (∅ : StdMap Envs).insert "e1".toList
        ⟨"e1".toList, "one".toList, ["ssh-rsa b".toList, "ssh-rsa c".toList], []⟩
    lstHealthyEnvironments := (∅ : StdMap QString).insert "e1".toList "one".toList }

/-- The file of the second key is gone, and the content of the third is erased. -/
theorem not_addressed_twoOfThree :
    ¬ CheckAddressed (fun _ => []) (fun path => path ≠ "/k/b.pub".toList) twoOfThree ∧
    ((twoOfThree.checkEnvironmentKeys (fun _ => []) (fun path => path ≠ "/k/b.pub".toList)).bind
        fun run => run.envs["e1".toList]?).map Envs.lstSshContents = some ["ssh-rsa b".toList] := by
  have hlist : twoOfThree.lstHealthyEnvironments.toList = [("e1".toList, "one".toList)] := by
    decide +kernel
  have hknown : twoOfThree.cleanUp.envs["e1".toList]? =
      some ⟨"e1".toList, "one".toList, ["ssh-rsa b".toList, "ssh-rsa c".toList], []⟩ := by
    decide +kernel
  refine ⟨?_, by decide +kernel⟩
  rintro ⟨-, haddressed⟩
  have henv := haddressed [] ("e1".toList, "one".toList) twoOfThree.cleanUp
    (by rw [hlist, List.nil_append]) rfl
  rw [environmentAddressed_iff, EnvironmentAddressable, hknown, keys_cleanUp] at henv
  have hsecond := henv 1 ⟨"b.pub".toList, "/k/b.pub".toList, "ssh-rsa b".toList, ["e1".toList]⟩ rfl
  have hentry := (hsecond (by decide +kernel)).2 (by decide +kernel)
  revert hentry
  decide +kernel

end SubutaiTray.Hub.SshKeyController
