import SubutaiTray.Library.Runs
import SubutaiTray.Hub.SshKeys

/-!
When a check leaves the index of the SSH keys right.

The loops of a check only add environments to the keys, erase from the lists of the environments that are
known, and save a list for each that is new. What they do to one environment is said by the positions that
they address; from it follows what has to hold before a check for the index to be right after it.
-/
namespace SubutaiTray.Hub.SshKeyController

def contents (keys : List SshKey) : List QString := keys.map SshKey.content

/-- What the loops read of a key. -/
def addressed (key : SshKey) : QString × QString := (key.content, key.path)

/-- The key at the position notes the environment. -/
def NotedAt (keys : List SshKey) (id : QString) (i : Nat) : Prop :=
  ∃ key, keys[i]? = some key ∧ id ∈ key.envIds

theorem counter_eq_iff (i : Nat) : counter i = i ↔ i < 256 := by
  constructor
  · intro h
    rw [← h]
    exact Nat.mod_lt i (by decide)
  · exact Nat.mod_eq_of_lt

section
variable {keys keys' : List SshKey} {envId id : QString} {i j : Nat} {key key' : SshKey}

theorem mem_envIds_addEnvId (envId id : QString) (key : SshKey) :
    id ∈ (addEnvId envId key).envIds ↔ id ∈ key.envIds ∨ id = envId := by
  rw [addEnvId, List.mem_eraseDups, List.mem_append, List.mem_singleton]

theorem map_addressed_modify (envId : QString) (keys : List SshKey) (i : Nat) :
    (keys.modify i (addEnvId envId)).map addressed = keys.map addressed := by
  apply List.ext_getElem?
  intro j
  rw [List.getElem?_map, List.getElem?_map, List.getElem?_modify]
  cases keys[j]? with
  | none => rfl
  | some key =>
      simp only [Option.map_some]
      split <;> rfl

theorem contents_congr (h : keys'.map addressed = keys.map addressed) : contents keys' = contents keys := by
  have hcontents := congrArg (List.map Prod.fst) h
  rw [List.map_map, List.map_map] at hcontents
  exact hcontents

/-- The key at a position is the one that was there, up to its environments. -/
theorem getElem?_congr (h : keys'.map addressed = keys.map addressed) (hget : keys[i]? = some key) :
    ∃ key', keys'[i]? = some key' ∧ key'.content = key.content ∧ key'.path = key.path := by
  have hkeys := congrArg (fun list => list[i]?) h
  rw [List.getElem?_map, List.getElem?_map, hget, Option.map_some] at hkeys
  obtain ⟨key', hkey', heq⟩ := Option.map_eq_some_iff.mp hkeys
  exact ⟨key', hkey', Prod.mk.injEq .. ▸ heq⟩

theorem content_mem_of_getElem? (hget : keys[i]? = some key) : key.content ∈ contents keys :=
  List.mem_map_of_mem (List.mem_of_getElem? hget)

/-- A content stands at one position only. -/
theorem eq_of_content_eq (hkeys : (contents keys).Nodup) (hget : keys[i]? = some key)
    (hget' : keys[j]? = some key') (hcontent : key.content = key'.content) : i = j := by
  have hi : i < (contents keys).length := by
    rw [contents, List.length_map]
    exact (List.getElem?_eq_some_iff.mp hget).1
  apply (List.getElem?_inj hi hkeys).mp
  rw [contents, List.getElem?_map, List.getElem?_map, hget, hget', Option.map_some, Option.map_some, hcontent]

theorem notedAt_iff (hget : keys[i]? = some key) : NotedAt keys id i ↔ id ∈ key.envIds := by
  constructor
  · rintro ⟨other, hother, hid⟩
    exact Option.some.inj (hother.symm.trans hget) ▸ hid
  · exact fun hid => ⟨key, hget, hid⟩

theorem notedAt_modify (h : keys[i]? = some key) :
    NotedAt (keys.modify i (addEnvId envId)) id j ↔ NotedAt keys id j ∨ id = envId ∧ i = j := by
  by_cases hij : i = j
  · subst hij
    have hnew : (keys.modify i (addEnvId envId))[i]? = some (addEnvId envId key) := by
      rw [List.getElem?_modify, h, Option.map_eq_map, Option.map_some, if_pos rfl]
    rw [notedAt_iff hnew, notedAt_iff h, mem_envIds_addEnvId, and_iff_left rfl]
  · rw [NotedAt, NotedAt, List.getElem?_modify, or_iff_left fun hc => hij hc.2]
    cases keys[j]? with
    | none => rfl
    | some key' => rw [Option.map_eq_map, Option.map_some, if_neg hij]

end

/-! ## An environment that is known -/

/-- The positions whose entries the loop erases from the list: those of the listed keys without a file. -/
def erasures (fileExists : QString → Bool) (keys : List SshKey) (listed : List QString)
    (turns : List (SshKey × Nat)) : List Nat :=
  (turns.filter fun turn => turn.1.content ∈ listed ∧
    (keys[counter turn.2]?).any fun key => !fileExists key.path).map fun turn => counter turn.2

/-- What is left of a list. -/
def erased (positions : List Nat) (listed : List QString) : List QString :=
  positions.foldl List.eraseIdx listed

/-- The loop notes the environment in the key at the position. -/
def Marked (fileExists : QString → Bool) (keys : List SshKey) (listed : List QString)
    (turns : List (SshKey × Nat)) (i : Nat) : Prop :=
  ∃ turn ∈ turns, counter turn.2 = i ∧ turn.1.content ∈ listed ∧
    ∃ key, keys[i]? = some key ∧ fileExists key.path = true

section
variable {fileExists : QString → Bool} {envId : QString} {keys : List SshKey} {listed : List QString}
  {found found' : List SshKey × List QString} {turn : SshKey × Nat} {turns : List (SshKey × Nat)}

theorem erased_subset (positions : List Nat) (listed : List QString) : erased positions listed ⊆ listed := by
  induction positions generalizing listed with
  | nil => exact List.Subset.refl listed
  | cons i positions ih => exact List.Subset.trans (ih _) List.eraseIdx_subset

/-- What one turn does. -/
theorem checkKey_cases (h : checkKey fileExists envId found turn = some found') :
    (turn.1.content ∉ found.2 ∧ found' = found) ∨
      turn.1.content ∈ found.2 ∧ ∃ key, found.1[counter turn.2]? = some key ∧
        (fileExists key.path = true ∧
            found' = (found.1.modify (counter turn.2) (addEnvId envId), found.2) ∨
          fileExists key.path = false ∧ found' = (found.1, found.2.eraseIdx (counter turn.2))) := by
  rw [checkKey] at h
  split at h
  · rename_i hlisted
    split at h
    · exact absurd h.symm (Option.some_ne_none _)
    · rename_i key hkey
      refine Or.inr ⟨hlisted, key, hkey, ?_⟩
      split at h
      · exact Or.inl ⟨‹_›, (Option.some.inj h).symm⟩
      · rename_i hgone
        split at h
        · exact Or.inr ⟨Bool.not_eq_true _ ▸ hgone, (Option.some.inj h).symm⟩
        · exact absurd h.symm (Option.some_ne_none _)
  · exact Or.inl ⟨‹_›, (Option.some.inj h).symm⟩

theorem map_addressed_checkKey (h : checkKey fileExists envId found turn = some found') :
    found'.1.map addressed = found.1.map addressed := by
  obtain ⟨-, rfl⟩ | ⟨-, key, -, ⟨-, rfl⟩ | ⟨-, rfl⟩⟩ := checkKey_cases h
  · rfl
  · exact map_addressed_modify envId found.1 _
  · rfl

theorem subset_checkKey (h : checkKey fileExists envId found turn = some found') : found'.2 ⊆ found.2 := by
  obtain ⟨-, rfl⟩ | ⟨-, key, -, ⟨-, rfl⟩ | ⟨-, rfl⟩⟩ := checkKey_cases h
  · exact List.Subset.refl _
  · exact List.Subset.refl _
  · exact List.eraseIdx_subset

theorem map_addressed_checkKeys (h : turns.foldlM (checkKey fileExists envId) found = some found') :
    found'.1.map addressed = found.1.map addressed :=
  @Runs.invariant_of_foldlM _ _ found (checkKey fileExists envId)
    (fun after => after.1.map addressed = found.1.map addressed) rfl
    (fun _ _ _ hinv hstep => (map_addressed_checkKey hstep).trans hinv) turns found' h

theorem subset_checkKeys (h : turns.foldlM (checkKey fileExists envId) found = some found') :
    found'.2 ⊆ found.2 :=
  @Runs.invariant_of_foldlM _ _ found (checkKey fileExists envId) (fun after => after.2 ⊆ found.2)
    (List.Subset.refl _) (fun _ _ _ hinv hstep => List.Subset.trans (subset_checkKey hstep) hinv)
    turns found' h

/-- The loop notes no other environment. -/
theorem notedAt_checkKeys_of_ne {id : QString} (hid : id ≠ envId)
    (h : turns.foldlM (checkKey fileExists envId) found = some found') (i : Nat) :
    NotedAt found'.1 id i ↔ NotedAt found.1 id i := by
  refine @Runs.invariant_of_foldlM _ _ found (checkKey fileExists envId)
    (fun after => NotedAt after.1 id i ↔ NotedAt found.1 id i) Iff.rfl ?_ turns found' h
  intro before turn after hinv hstep
  obtain ⟨-, rfl⟩ | ⟨-, key, hkey, ⟨-, rfl⟩ | ⟨-, rfl⟩⟩ := checkKey_cases hstep
  · exact hinv
  · exact ((notedAt_modify hkey).trans (or_iff_left fun hc => hid hc.1)).trans hinv
  · exact hinv

theorem erasures_cons (fileExists : QString → Bool) (keys : List SshKey) (listed : List QString)
    (turn : SshKey × Nat) (turns : List (SshKey × Nat)) :
    erasures fileExists keys listed (turn :: turns) =
      if turn.1.content ∈ listed ∧ (keys[counter turn.2]?).any (fun key => !fileExists key.path) then
        counter turn.2 :: erasures fileExists keys listed turns
      else erasures fileExists keys listed turns := by
  rw [erasures, List.filter_cons]
  by_cases h : turn.1.content ∈ listed ∧ (keys[counter turn.2]?).any (fun key => !fileExists key.path)
  · rw [if_pos (decide_eq_true h), if_pos h]
    rfl
  · rw [if_neg (by rwa [decide_eq_true_iff]), if_neg h]
    rfl

/-- As long as what stays was there from the beginning, the loop may look at the list of the beginning:
it erases and marks what the positions say. `left` is either what the loop leaves or what they leave. -/
theorem checkKeys_eq (hsame : found.1.map addressed = keys.map addressed) (hlisted : found.2 ⊆ listed)
    (hrun : turns.foldlM (checkKey fileExists envId) found = some found') {left : List QString}
    (hleft : left = found'.2 ∨ left = erased (erasures fileExists keys listed turns) found.2)
    (hkeeps : ∀ turn ∈ turns, turn.1.content ∈ listed → turn.1.content ∈ left) :
    found'.2 = erased (erasures fileExists keys listed turns) found.2 ∧
      ∀ id i, NotedAt found'.1 id i ↔
        NotedAt found.1 id i ∨ id = envId ∧ Marked fileExists keys listed turns i := by
  induction turns generalizing found with
  | nil =>
      rw [← Option.some.inj hrun]
      refine ⟨rfl, fun id i => (or_iff_left ?_).symm⟩
      rintro ⟨-, turn, hmem, -⟩
      exact List.not_mem_nil hmem
  | cons turn turns ih =>
      rw [List.foldlM_cons] at hrun
      obtain ⟨next, hstep, hrest⟩ := Option.bind_eq_some_iff.mp hrun
      have hsubset : left ⊆ found.2 := by
        cases hleft with
        | inl h => exact h ▸ List.Subset.trans (subset_checkKeys hrest) (subset_checkKey hstep)
        | inr h => exact h ▸ erased_subset _ _
      have hturn : turn.1.content ∈ listed ↔ turn.1.content ∈ found.2 :=
        ⟨fun h => hsubset (hkeeps turn List.mem_cons_self h), fun h => hlisted h⟩
      have hkeeps' : ∀ turn ∈ turns, turn.1.content ∈ listed → turn.1.content ∈ left :=
        fun turn hmem => hkeeps turn (List.mem_cons_of_mem _ hmem)
      have hmarked (i : Nat) : Marked fileExists keys listed (turn :: turns) i ↔
          (counter turn.2 = i ∧ turn.1.content ∈ listed ∧
            ∃ key, keys[i]? = some key ∧ fileExists key.path = true) ∨
          Marked fileExists keys listed turns i := List.exists_mem_cons_iff ..
      have hcons := erasures_cons fileExists keys listed turn turns
      obtain ⟨hnot, rfl⟩ | ⟨hmem, key, hkey, hfile⟩ := checkKey_cases hstep
      · rw [if_neg fun hc => hnot (hturn.mp hc.1)] at hcons
        rw [hcons] at hleft ⊢
        obtain ⟨hlist, hnotes⟩ := ih hsame hlisted hrest hleft hkeeps'
        refine ⟨hlist, fun id i => (hnotes id i).trans ?_⟩
        refine or_congr_right (and_congr_right fun _ => ((hmarked i).trans (or_iff_right ?_)).symm)
        exact fun hc => hnot (hturn.mp hc.2.1)
      · obtain ⟨key', hkey', -, hpath⟩ := getElem?_congr hsame.symm hkey
        obtain ⟨hexists, rfl⟩ | ⟨hgone, rfl⟩ := hfile
        · have hpresent : ¬ (turn.1.content ∈ listed ∧
              (keys[counter turn.2]?).any (fun key => !fileExists key.path)) := by
            rw [hkey', Option.any_some, hpath, hexists]
            exact fun hc => Bool.false_ne_true hc.2
          rw [if_neg hpresent] at hcons
          rw [hcons] at hleft ⊢
          obtain ⟨hlist, hnotes⟩ := @ih (found.1.modify (counter turn.2) (addEnvId envId), found.2)
            ((map_addressed_modify envId found.1 _).trans hsame) hlisted hrest hleft hkeeps'
          refine ⟨hlist, fun id i => (hnotes id i).trans ?_⟩
          have hhead : (counter turn.2 = i ∧ turn.1.content ∈ listed ∧
              ∃ key, keys[i]? = some key ∧ fileExists key.path = true) ↔ counter turn.2 = i := by
            refine and_iff_left_of_imp fun heq => ⟨hturn.mpr hmem, key', heq ▸ hkey', ?_⟩
            rw [hpath, hexists]
          rw [hmarked, hhead, notedAt_modify hkey, and_or_left, or_assoc]
        · have hmissing : turn.1.content ∈ listed ∧
              (keys[counter turn.2]?).any (fun key => !fileExists key.path) := by
            rw [hkey', Option.any_some, hpath, hgone]
            exact ⟨hturn.mpr hmem, rfl⟩
          rw [if_pos hmissing] at hcons
          rw [hcons] at hleft ⊢
          obtain ⟨hlist, hnotes⟩ := @ih (found.1, found.2.eraseIdx (counter turn.2)) hsame
            (List.Subset.trans List.eraseIdx_subset hlisted) hrest hleft hkeeps'
          refine ⟨hlist, fun id i => (hnotes id i).trans ?_⟩
          have hhead : ¬ (counter turn.2 = i ∧ turn.1.content ∈ listed ∧
              ∃ key, keys[i]? = some key ∧ fileExists key.path = true) := by
            rintro ⟨heq, -, other, hother, hexists⟩
            rw [← heq, hkey'] at hother
            rw [← Option.some.inj hother, hpath, hgone] at hexists
            exact Bool.false_ne_true hexists
          exact or_congr_right (and_congr_right fun _ => ((hmarked i).trans (or_iff_right hhead)).symm)

end

/-! ## An environment that is new -/

/-- The hub answers that the environment has the key at the position. -/
def Reported (response : List Bool) (i : Nat) : Prop := response[i]? = some true

section
variable {keys : List SshKey} {found found' : List SshKey × Envs} {turn : Bool × Nat}
  {turns : List (Bool × Nat)}

theorem saveKey_cases (h : saveKey found turn = some found') :
    turn.1 = false ∧ found' = found ∨
      turn.1 = true ∧ ∃ key, found.1[counter turn.2]? = some key ∧
        found' = (found.1.modify (counter turn.2) (addEnvId found.2.id),
          { found.2 with
            keys := found.2.keys ++ [key]
            lstSshContents := found.2.lstSshContents ++ [key.content] }) := by
  rw [saveKey] at h
  split at h
  · rename_i hanswer
    split at h
    · exact absurd h.symm (Option.some_ne_none _)
    · rename_i key hkey
      exact Or.inr ⟨hanswer, key, hkey, (Option.some.inj h).symm⟩
  · rename_i hanswer
    exact Or.inl ⟨Bool.not_eq_true _ ▸ hanswer, (Option.some.inj h).symm⟩

theorem map_addressed_saveKey (h : saveKey found turn = some found') :
    found'.1.map addressed = found.1.map addressed := by
  obtain ⟨-, rfl⟩ | ⟨-, key, -, rfl⟩ := saveKey_cases h
  · rfl
  · exact map_addressed_modify found.2.id found.1 _

theorem map_addressed_saveKeys (h : turns.foldlM saveKey found = some found') :
    found'.1.map addressed = found.1.map addressed :=
  @Runs.invariant_of_foldlM _ _ found saveKey
    (fun after => after.1.map addressed = found.1.map addressed) rfl
    (fun _ _ _ hinv hstep => (map_addressed_saveKey hstep).trans hinv) turns found' h

/-- The loop over the answers saves the keys that it addresses. -/
theorem saveKeys_eq (hsame : found.1.map addressed = keys.map addressed)
    (hrun : turns.foldlM saveKey found = some found') :
    (∀ turn ∈ turns, turn.1 = true → ∃ key, keys[counter turn.2]? = some key) ∧
      (∀ content, content ∈ found'.2.lstSshContents ↔ content ∈ found.2.lstSshContents ∨
        ∃ turn ∈ turns, turn.1 = true ∧ ∃ key, keys[counter turn.2]? = some key ∧ key.content = content) ∧
      ∀ id i, NotedAt found'.1 id i ↔ NotedAt found.1 id i ∨
        id = found.2.id ∧ ∃ turn ∈ turns, turn.1 = true ∧ counter turn.2 = i := by
  induction turns generalizing found with
  | nil =>
      rw [← Option.some.inj hrun]
      simp
  | cons turn turns ih =>
      rw [List.foldlM_cons] at hrun
      obtain ⟨next, hstep, hrest⟩ := Option.bind_eq_some_iff.mp hrun
      obtain ⟨hanswer, rfl⟩ | ⟨hanswer, key, hkey, rfl⟩ := saveKey_cases hstep
      · obtain ⟨hthere, hlist, hnotes⟩ := ih hsame hrest
        have hno {P : Prop} : ¬ (turn.1 = true ∧ P) := fun hc => Bool.false_ne_true (hanswer.symm.trans hc.1)
        refine ⟨?_, fun content => (hlist content).trans ?_, fun id i => (hnotes id i).trans ?_⟩
        · rw [List.forall_mem_cons, hanswer]
          exact ⟨fun hc => absurd hc Bool.false_ne_true, hthere⟩
        · rw [List.exists_mem_cons_iff]
          exact or_congr_right (or_iff_right hno).symm
        · rw [List.exists_mem_cons_iff]
          exact or_congr_right (and_congr_right fun _ => (or_iff_right hno).symm)
      · obtain ⟨key', hkey', hcontent, -⟩ := getElem?_congr hsame.symm hkey
        obtain ⟨hthere, hlist, hnotes⟩ := @ih
          (found.1.modify (counter turn.2) (addEnvId found.2.id),
            { found.2 with
              keys := found.2.keys ++ [key]
              lstSshContents := found.2.lstSshContents ++ [key.content] })
          ((map_addressed_modify found.2.id found.1 _).trans hsame) hrest
        have hhead (content : QString) : (turn.1 = true ∧
            ∃ key, keys[counter turn.2]? = some key ∧ key.content = content) ↔ content = key.content := by
          rw [and_iff_right hanswer, hkey']
          constructor
          · rintro ⟨other, hother, rfl⟩
            rw [← Option.some.inj hother, hcontent]
          · rintro rfl
            exact ⟨key', rfl, hcontent⟩
        refine ⟨?_, fun content => (hlist content).trans ?_, fun id i => (hnotes id i).trans ?_⟩
        · rw [List.forall_mem_cons]
          exact ⟨fun _ => ⟨key', hkey'⟩, hthere⟩
        · rw [List.exists_mem_cons_iff, hhead, List.mem_append, List.mem_singleton, or_assoc]
        · rw [List.exists_mem_cons_iff, and_iff_right hanswer, notedAt_modify hkey, and_or_left, or_assoc]

end

/-! ## All healthy environments -/

/-- What the loop over the keys leaves of the list. -/
def remaining (fileExists : QString → Bool) (keys : List SshKey) (listed : List QString) : List QString :=
  erased (erasures fileExists keys listed keys.zipIdx) listed

/-- The loop over the keys erases and marks as the list says that it is given. -/
structure KnownChecked (fileExists : QString → Bool) (run run' : SshKeyController) (id : QString)
    (listed saved : List QString) : Prop where
  subset : saved ⊆ listed
  loop : ∀ left, left = saved ∨ left = remaining fileExists run.keys listed →
    (∀ content ∈ contents run.keys, content ∈ listed → content ∈ left) →
      saved = remaining fileExists run.keys listed ∧
        ∀ i, NotedAt run'.keys id i ↔
          NotedAt run.keys id i ∨ Marked fileExists run.keys listed run.keys.zipIdx i

structure NewChecked (run run' : SshKeyController) (id : QString) (response : List Bool)
    (saved : List QString) : Prop where
  there : ∀ i, Reported response i → ∃ key, run.keys[counter i]? = some key
  loop : ∀ content, content ∈ saved ↔
    ∃ i, Reported response i ∧ ∃ key, run.keys[counter i]? = some key ∧ key.content = content
  notes : ∀ i, NotedAt run'.keys id i ↔ NotedAt run.keys id i ∨ ∃ j, Reported response j ∧ counter j = i

/-- What a check leaves of an environment. -/
structure EnvironmentChecked (response : QString → List Bool) (fileExists : QString → Bool)
    (run run' : SshKeyController) (id : QString) : Prop where
  known : ∀ env, run.envs[id]? = some env → ∃ saved, run'.envs[id]? = some saved ∧
    KnownChecked fileExists run run' id env.lstSshContents saved.lstSshContents
  new : run.envs[id]? = none → ∃ saved, run'.envs[id]? = some saved ∧
    NewChecked run run' id (response id) saved.lstSshContents

/-- What the checks of the environments leave behind. -/
structure CheckedOn (response : QString → List Bool) (fileExists : QString → Bool)
    (run : SshKeyController) (envIds : List QString) (run' : SshKeyController) : Prop where
  same : run'.keys.map addressed = run.keys.map addressed
  checked : ∀ id ∈ envIds, EnvironmentChecked response fileExists run run' id
  envs : ∀ id, id ∉ envIds → run'.envs[id]? = run.envs[id]?
  notes : ∀ id, id ∉ envIds → ∀ i, NotedAt run'.keys id i ↔ NotedAt run.keys id i
  reported : ∀ id, run'.reported[id]? =
    if id ∈ envIds ∧ id ∉ run.envs then some (present run.keys (response id)) else run.reported[id]?
  lstHealthyEnvironments : run'.lstHealthyEnvironments = run.lstHealthyEnvironments
  healthy : run'.healthy = run.healthy

section
variable {response : QString → List Bool} {fileExists : QString → Bool}
  {run run' t t' : SshKeyController} {envIds : List QString} {id : QString}
  {keys keys' : List SshKey}

theorem mem_present_iff {answers : List Bool} {content : QString} :
    content ∈ present keys answers ↔
      ∃ i key, keys[i]? = some key ∧ Reported answers i ∧ key.content = content := by
  rw [present, List.mem_map]
  constructor
  · rintro ⟨⟨key, answer⟩, hmem, rfl⟩
    obtain ⟨hzip, hanswer⟩ := List.mem_filter.mp hmem
    obtain ⟨i, hi⟩ := List.mem_iff_getElem?.mp hzip
    rw [List.getElem?_zip_eq_some] at hi
    exact ⟨i, key, hi.1, hi.2.trans (congrArg some hanswer), rfl⟩
  · rintro ⟨i, key, hkey, hanswer, rfl⟩
    refine ⟨(key, true), List.mem_filter.mpr ⟨List.mem_iff_getElem?.mpr ⟨i, ?_⟩, rfl⟩, rfl⟩
    exact List.getElem?_zip_eq_some.mpr ⟨hkey, hanswer⟩

theorem present_congr (h : keys'.map addressed = keys.map addressed) (answers : List Bool) :
    present keys' answers = present keys answers := by
  have hpresent (keys : List SshKey) : present keys answers =
      ((((keys.map addressed).zip answers).filter Prod.snd).map fun answered => answered.1.1) := by
    rw [List.zip_map_left, List.filter_map, List.map_map]
    rfl
  rw [hpresent, hpresent, h]

theorem erasures_congr (h : keys'.map addressed = keys.map addressed) (listed : List QString) :
    erasures fileExists keys' listed keys'.zipIdx = erasures fileExists keys listed keys.zipIdx := by
  have hgone (i : Nat) : (keys'[i]?).any (fun key => !fileExists key.path) =
      (keys[i]?).any fun key => !fileExists key.path := by
    have hget := congrArg (fun list => list[i]?.any fun key => !fileExists key.2) h
    rw [List.getElem?_map, List.getElem?_map, Option.any_map, Option.any_map] at hget
    exact hget
  have hturns (keys' : List SshKey) : erasures fileExists keys' listed keys'.zipIdx =
      (((keys'.map addressed).zipIdx.filter fun turn => turn.1.1 ∈ listed ∧
        (keys'[counter turn.2]?).any fun key => !fileExists key.path).map fun turn => counter turn.2) := by
    rw [List.zipIdx_map, List.filter_map, List.map_map]
    rfl
  rw [hturns, hturns, h]
  simp only [hgone]

theorem marked_congr (h : keys'.map addressed = keys.map addressed) (listed : List QString) (i : Nat) :
    Marked fileExists keys' listed keys'.zipIdx i → Marked fileExists keys listed keys.zipIdx i := by
  rintro ⟨turn, hturn, hi, hlisted, key, hkey, hfile⟩
  obtain ⟨key₁, hkey₁, hcontent, -⟩ := getElem?_congr h.symm (List.mem_zipIdx_iff_getElem?.mp hturn)
  obtain ⟨key₂, hkey₂, -, hpath⟩ := getElem?_congr h.symm hkey
  refine ⟨(key₁, turn.2), List.mem_zipIdx_iff_getElem?.mpr hkey₁, hi, hcontent ▸ hlisted, key₂, hkey₂, ?_⟩
  rw [hpath, hfile]

theorem checkedOn_nil (run : SshKeyController) : CheckedOn response fileExists run [] run where
  same := rfl
  checked _ hid := absurd hid List.not_mem_nil
  envs _ _ := rfl
  notes _ _ _ := Iff.rfl
  reported _ := (if_neg fun hc => List.not_mem_nil hc.1).symm
  lstHealthyEnvironments := rfl
  healthy := rfl

/-- One environment, from a state whose other environments have been checked. -/
theorem environmentChecked_of_step (h : CheckedOn response fileExists run envIds t)
    {env : QString × QString} (hnew : env.1 ∉ envIds)
    (hstep : checkEnvironment response fileExists t env = some t') :
    EnvironmentChecked response fileExists run t' env.1 := by
  have hsame := h.same
  have hnotes := h.notes env.1 hnew
  have hcontents : contents t.keys = contents run.keys := contents_congr hsame
  rw [checkEnvironment, h.envs env.1 hnew] at hstep
  cases hknown : run.envs[env.1]? with
  | some known =>
      rw [hknown] at hstep
      obtain ⟨found, hfold, rfl⟩ := Option.map_eq_some_iff.mp hstep
      refine ⟨fun env' henv' => ⟨_, Lookups.getElem?_insert_self _ _ _, ?_⟩,
        fun hnone => absurd (hknown.symm.trans hnone) (Option.some_ne_none known)⟩
      rw [Option.some.inj (henv'.symm.trans hknown)]
      refine ⟨subset_checkKeys hfold, fun left hleft hkeeps => ?_⟩
      have hkeeps' : ∀ turn ∈ t.keys.zipIdx, turn.1.content ∈ known.lstSshContents →
          turn.1.content ∈ left := by
        intro turn hturn
        apply hkeeps
        rw [← hcontents]
        exact content_mem_of_getElem? (List.mem_zipIdx_iff_getElem?.mp hturn)
      rw [remaining, ← erasures_congr hsame] at hleft ⊢
      obtain ⟨hlist, hmarked⟩ := checkKeys_eq (Eq.refl (t.keys.map addressed)) (List.Subset.refl _) hfold hleft hkeeps'
      refine ⟨hlist, fun i => (hmarked env.1 i).trans ?_⟩
      rw [and_iff_right rfl, hnotes]
      exact or_congr_right ⟨marked_congr hsame _ i, marked_congr hsame.symm _ i⟩
  | none =>
      rw [hknown] at hstep
      obtain ⟨found, hfold, rfl⟩ := Option.map_eq_some_iff.mp hstep
      refine ⟨fun env' henv' => absurd (hknown.symm.trans henv').symm (Option.some_ne_none env'),
        fun _ => ⟨_, Lookups.getElem?_insert_self _ _ _, ?_⟩⟩
      obtain ⟨hthere, hlist, hmarked⟩ := saveKeys_eq h.same hfold
      have hturns (P : Nat → Prop) :
          (∃ turn ∈ (response env.1).zipIdx, turn.1 = true ∧ P turn.2) ↔
            ∃ i, Reported (response env.1) i ∧ P i := by
        constructor
        · rintro ⟨turn, hturn, htrue, hP⟩
          refine ⟨turn.2, ?_, hP⟩
          rw [Reported, ← htrue]
          exact List.mem_zipIdx_iff_getElem?.mp hturn
        · rintro ⟨i, hi, hP⟩
          exact ⟨(true, i), List.mem_zipIdx_iff_getElem?.mpr hi, rfl, hP⟩
      refine ⟨fun i hi => ?_, fun content => ?_, fun i => ?_⟩
      · exact hthere (true, i) (List.mem_zipIdx_iff_getElem?.mpr hi) rfl
      · rw [hlist, or_iff_right List.not_mem_nil]
        exact hturns fun i => ∃ key, run.keys[counter i]? = some key ∧ key.content = content
      · rw [hmarked, and_iff_right rfl, hnotes]
        exact or_congr_right (hturns fun j => counter j = i)

/-- The other environments keep what was said about them. -/
theorem EnvironmentChecked.congr (h : EnvironmentChecked response fileExists run t id)
    (henvs : t'.envs[id]? = t.envs[id]?)
    (hnotes : ∀ i, NotedAt t'.keys id i ↔ NotedAt t.keys id i) :
    EnvironmentChecked response fileExists run t' id := by
  refine ⟨fun env henv => ?_, fun hnone => ?_⟩
  · obtain ⟨saved, hsaved, hsubset, hloop⟩ := h.known env henv
    refine ⟨saved, henvs.trans hsaved, hsubset, fun left hleft hkeeps => ?_⟩
    obtain ⟨hlist, hmarked⟩ := hloop left hleft hkeeps
    exact ⟨hlist, fun i => (hnotes i).trans (hmarked i)⟩
  · obtain ⟨saved, hsaved, hthere, hlist, hmarked⟩ := h.new hnone
    exact ⟨saved, henvs.trans hsaved, hthere, hlist, fun i => (hnotes i).trans (hmarked i)⟩

/-- What the step of an environment leaves alone. -/
structure Frame (response : QString → List Bool) (t t' : SshKeyController) (envId : QString) : Prop where
  same : t'.keys.map addressed = t.keys.map addressed
  envs : ∀ id, id ≠ envId → t'.envs[id]? = t.envs[id]?
  notes : ∀ id, id ≠ envId → ∀ i, NotedAt t'.keys id i ↔ NotedAt t.keys id i
  reported : ∀ id, t'.reported[id]? =
    if id = envId ∧ id ∉ t.envs then some (present t.keys (response id)) else t.reported[id]?
  lstHealthyEnvironments : t'.lstHealthyEnvironments = t.lstHealthyEnvironments
  healthy : t'.healthy = t.healthy

theorem frame_checkEnvironment {env : QString × QString}
    (hstep : checkEnvironment response fileExists t env = some t') : Frame response t t' env.1 := by
  rw [checkEnvironment] at hstep
  cases hknown : t.envs[env.1]? with
  | some known =>
      rw [hknown] at hstep
      obtain ⟨found, hfold, rfl⟩ := Option.map_eq_some_iff.mp hstep
      have hmem : env.1 ∈ t.envs := (Lookups.mem_iff_exists _ _).mpr ⟨known, hknown⟩
      refine ⟨map_addressed_checkKeys hfold, fun id hid => Lookups.getElem?_insert_of_ne _ hid _,
        fun id hid => notedAt_checkKeys_of_ne hid hfold, fun id => ?_, rfl, rfl⟩
      rw [if_neg fun hc => hc.2 (hc.1 ▸ hmem)]
  | none =>
      rw [hknown] at hstep
      obtain ⟨found, hfold, rfl⟩ := Option.map_eq_some_iff.mp hstep
      have hmem : env.1 ∉ t.envs := by
        rw [← Std.ExtTreeMap.isSome_getElem?_iff_mem, hknown]
        exact Bool.false_ne_true
      refine ⟨map_addressed_saveKeys hfold, fun id hid => Lookups.getElem?_insert_of_ne _ hid _,
        fun id hid i => ?_, fun id => ?_, rfl, rfl⟩
      · exact ((saveKeys_eq (Eq.refl (t.keys.map addressed)) hfold).2.2 id i).trans (or_iff_left fun hc => hid hc.1)
      · dsimp only
        rw [Lookups.getElem?_insert]
        by_cases hid : id = env.1
        · rw [if_pos hid, if_pos ⟨hid, hid ▸ hmem⟩, hid]
        · rw [if_neg hid, if_neg fun hc => hid hc.1]

theorem checkedOn_concat (h : CheckedOn response fileExists run envIds t) {env : QString × QString}
    (hnew : env.1 ∉ envIds) (hstep : checkEnvironment response fileExists t env = some t') :
    CheckedOn response fileExists run (envIds ++ [env.1]) t' := by
  have hframe := frame_checkEnvironment hstep
  have hconcat {id : QString} : id ∈ envIds ++ [env.1] ↔ id ∈ envIds ∨ id = env.1 := by
    rw [List.mem_append, List.mem_singleton]
  have hother {id : QString} (hid : id ∉ envIds ++ [env.1]) : id ∉ envIds ∧ id ≠ env.1 :=
    not_or.mp (mt hconcat.mpr hid)
  refine ⟨hframe.same.trans h.same, ?_, ?_, ?_, ?_, ?_, hframe.healthy.trans h.healthy⟩
  · intro id hid
    by_cases heq : id = env.1
    · rw [heq]
      exact environmentChecked_of_step h hnew hstep
    · exact (h.checked id ((hconcat.mp hid).resolve_right heq)).congr (hframe.envs id heq) (hframe.notes id heq)
  · intro id hid
    exact (hframe.envs id (hother hid).2).trans (h.envs id (hother hid).1)
  · intro id hid i
    exact (hframe.notes id (hother hid).2 i).trans (h.notes id (hother hid).1 i)
  · intro id
    rw [hframe.reported, h.reported]
    by_cases heq : id = env.1
    · have hbefore : id ∈ t.envs ↔ id ∈ run.envs := by
        rw [heq, Lookups.mem_iff_exists, Lookups.mem_iff_exists, h.envs env.1 hnew]
      have hnot : ¬ (id ∈ envIds ∧ id ∉ run.envs) := fun hc => hnew (heq ▸ hc.1)
      rw [present_congr h.same, if_neg hnot]
      exact if_congr (and_congr (iff_of_true heq (hconcat.mpr (Or.inr heq))) (not_congr hbefore)) rfl rfl
    · rw [if_neg fun hc => heq hc.1]
      exact if_congr (and_congr_left fun _ => (hconcat.trans (or_iff_left heq)).symm) rfl rfl
  · exact hframe.lstHealthyEnvironments.trans h.lstHealthyEnvironments

/-- A check, after the clean-up. -/
theorem checkedOn_foldlM (environments : List (QString × QString))
    (hdistinct : (environments.map Prod.fst).Nodup)
    (hfold : environments.foldlM (checkEnvironment response fileExists) run = some run') :
    CheckedOn response fileExists run (environments.map Prod.fst) run' := by
  induction environments using List.reverseRecOn generalizing run' with
  | nil =>
      rw [← Option.some.inj hfold]
      exact checkedOn_nil run
  | append_singleton environments env ih =>
      rw [Runs.foldlM_concat] at hfold
      obtain ⟨before, hbefore, hstep⟩ := Option.bind_eq_some_iff.mp hfold
      rw [List.map_append, List.nodup_append] at hdistinct
      rw [List.map_append]
      refine checkedOn_concat (ih hdistinct.1 hbefore) ?_ hstep
      intro hmem
      exact hdistinct.2.2 env.1 hmem env.1 List.mem_cons_self rfl

end

/-! ## A check in a run -/

/-- What a check has to leave: the index is stored three times, and the copies agree. -/
structure Consistent (run : SshKeyController) : Prop where
  domain : ∀ id, id ∈ run.envs ↔ id ∈ run.healthy
  lists : ∀ (id : QString) (env : Envs), run.envs[id]? = some env → ∀ content, content ∈ env.lstSshContents ↔
    content ∈ contents run.keys ∧ content ∈ (run.reported[id]?).getD []
  envIds : ∀ key ∈ run.keys, ∀ id, id ∈ key.envIds ↔
    ∃ env, run.envs[id]? = some env ∧ key.content ∈ env.lstSshContents

/-- What holds between the checks, as long as the checks are right. -/
structure Indexed (run : SshKeyController) : Prop where
  contents : (contents run.keys).Nodup
  reported : ∀ (id : QString) (env : Envs), run.envs[id]? = some env →
    ∀ content ∈ env.lstSshContents, content ∈ (run.reported[id]?).getD []
  noted : ∀ key ∈ run.keys, ∀ id ∈ key.envIds, ∀ env : Envs, run.envs[id]? = some env →
    key.content ∈ env.lstSshContents
  known : ∀ id ∈ run.lstHealthyEnvironments, id ∈ run.healthy
  apart : ∀ id ∈ run.envs, id ∈ run.healthy → id ∈ run.lstHealthyEnvironments

/-- Before a check, of a healthy environment that is known: what is erased for the missing files is what no
key has any more; what was reported and has a key is listed; a listed key notes the environment, or the
counter reaches it and its file is there; and where the counter is brought to by a listed key, with a file
there, is a listed key. -/
structure KnownCurrent (fileExists : QString → Bool) (keys : List SshKey) (reported : List QString)
    (id : QString) (listed : List QString) : Prop where
  left : ∀ content ∈ listed, content ∈ remaining fileExists keys listed ↔ content ∈ contents keys
  kept : ∀ content ∈ contents keys, content ∈ reported → content ∈ listed
  noted : ∀ (i : Nat) (key : SshKey), keys[i]? = some key → key.content ∈ listed →
    id ∈ key.envIds ∨ i < 256 ∧ fileExists key.path = true
  reached : ∀ (i : Nat) (key : SshKey), keys[i]? = some key →
    Marked fileExists keys listed keys.zipIdx i → key.content ∈ listed

/-- Of one that is new: the counter reaches each key that is reported present, and is brought by each positive
answer to such a key; and a key that notes the environment is reported present. -/
structure NewCurrent (keys : List SshKey) (id : QString) (response : List Bool) : Prop where
  reached : ∀ i, Reported response i → (i < keys.length → i < 256) ∧ Reported response (counter i)
  noted : ∀ (i : Nat) (key : SshKey), keys[i]? = some key → id ∈ key.envIds → Reported response i

/-- Where environments are not healthy any more, their number has changed too; no upload to a healthy
environment has ended since the last update; each healthy environment may be checked; and the environments
of a key are healthy. -/
structure CheckCurrent (response : QString → List Bool) (fileExists : QString → Bool)
    (run : SshKeyController) : Prop where
  gone : ∀ id ∈ run.envs, id ∉ run.lstHealthyEnvironments →
    run.envs.size ≠ run.lstHealthyEnvironments.size
  uploaded : ∀ id ∈ run.healthy, id ∈ run.lstHealthyEnvironments
  known : ∀ id ∈ run.lstHealthyEnvironments, ∀ env, run.envs[id]? = some env →
    KnownCurrent fileExists run.keys ((run.reported[id]?).getD []) id env.lstSshContents
  new : ∀ id ∈ run.lstHealthyEnvironments, run.envs[id]? = none → NewCurrent run.keys id (response id)
  noted : ∀ key ∈ run.keys, ∀ id ∈ key.envIds, id ∈ run.lstHealthyEnvironments

section
variable {response : QString → List Bool} {fileExists : QString → Bool}
  {run run' : SshKeyController} {id : QString}

theorem getElem?_cleanUp_of_mem (hid : id ∈ run.lstHealthyEnvironments) :
    run.cleanUp.envs[id]? = run.envs[id]? := by
  rw [cleanUp]
  split
  · rw [Std.ExtTreeMap.getElem?_filter']
    cases run.envs[id]? with
    | none => rfl
    | some env => exact if_pos (decide_eq_true hid)
  · rfl

theorem getElem?_of_cleanUp {env : Envs} (hclean : run.cleanUp.envs[id]? = some env) :
    run.envs[id]? = some env := by
  rw [cleanUp] at hclean
  split at hclean
  · rw [Std.ExtTreeMap.getElem?_filter'] at hclean
    exact (Option.filter_eq_some_iff.mp hclean).1
  · exact hclean

theorem mem_cleanUp (id : QString) :
    id ∈ run.cleanUp.envs ↔ id ∈ run.envs ∧
      (id ∈ run.lstHealthyEnvironments ∨ run.envs.size = run.lstHealthyEnvironments.size) := by
  by_cases hid : id ∈ run.lstHealthyEnvironments
  · rw [Lookups.mem_iff_exists, Lookups.mem_iff_exists, getElem?_cleanUp_of_mem hid]
    exact (and_iff_left (Or.inl hid)).symm
  · rw [or_iff_right hid, cleanUp]
    split
    · rename_i hsizes
      refine iff_of_false ?_ fun h => hsizes.2 h.2
      rw [Lookups.mem_iff_exists]
      rintro ⟨env, hfilter⟩
      rw [Std.ExtTreeMap.getElem?_filter'] at hfilter
      exact hid (of_decide_eq_true (Option.filter_eq_some_iff.mp hfilter).2)
    · rename_i hsizes
      refine ⟨fun h => ⟨h, ?_⟩, And.left⟩
      by_contra hne
      refine hsizes ⟨?_, hne⟩
      exact Std.ExtTreeMap.isEmpty_eq_false_iff.mpr (Std.ExtTreeMap.ne_empty_of_mem h)

theorem cleanUp_eq (run : SshKeyController) : run.cleanUp = { run with envs := run.cleanUp.envs } := by
  rw [cleanUp]
  split
  · rfl
  · rfl

theorem keys_cleanUp : run.cleanUp.keys = run.keys := by
  rw [cleanUp_eq]

theorem lstHealthyEnvironments_cleanUp :
    run.cleanUp.lstHealthyEnvironments = run.lstHealthyEnvironments := by
  rw [cleanUp_eq]

theorem reported_cleanUp : run.cleanUp.reported = run.reported := by
  rw [cleanUp_eq]

theorem healthy_cleanUp : run.cleanUp.healthy = run.healthy := by
  rw [cleanUp_eq]

/-- `checkedOn_foldlM` for the environments that are healthy. -/
theorem checkedOn_check (hstep : run.checkEnvironmentKeys response fileExists = some run') :
    CheckedOn response fileExists run.cleanUp run.lstHealthyEnvironments.keys run' := by
  obtain ⟨run'', hfold, rfl⟩ := Option.map_eq_some_iff.mp hstep
  have h := checkedOn_foldlM run.lstHealthyEnvironments.toList
    (by rw [Std.ExtTreeMap.map_fst_toList_eq_keys]; exact Std.ExtTreeMap.nodup_keys) hfold
  rw [Std.ExtTreeMap.map_fst_toList_eq_keys] at h
  refine ⟨h.same, fun id hid => ?_, h.envs, h.notes, h.reported, h.lstHealthyEnvironments, h.healthy⟩
  exact (h.checked id hid).congr rfl fun _ => Iff.rfl

/-- The copies agree about one environment. -/
def Agree (run run' : SshKeyController) (id : QString) (saved reported : List QString) : Prop :=
  (∀ content, content ∈ saved ↔ content ∈ contents run.keys ∧ content ∈ reported) ∧
    ∀ (i : Nat) (key : SshKey), run.keys[i]? = some key →
      (NotedAt run'.keys id i ↔ key.content ∈ saved)

theorem marked_iff {keys : List SshKey} {listed : List QString} {i : Nat} {key : SshKey}
    (hkey : keys[i]? = some key) :
    Marked fileExists keys listed keys.zipIdx i ↔
      fileExists key.path = true ∧
        ∃ j other, keys[j]? = some other ∧ counter j = i ∧ other.content ∈ listed := by
  constructor
  · rintro ⟨turn, hturn, hi, hlisted, key', hkey', hfile⟩
    rw [← Option.some.inj (hkey'.symm.trans hkey)]
    exact ⟨hfile, turn.2, turn.1, List.mem_zipIdx_iff_getElem?.mp hturn, hi, hlisted⟩
  · rintro ⟨hfile, j, other, hother, hi, hlisted⟩
    exact ⟨(other, j), List.mem_zipIdx_iff_getElem?.mpr hother, hi, hlisted, key, hkey, hfile⟩

theorem agree_known_iff {listed saved reported : List QString}
    (h : KnownChecked fileExists run run' id listed saved)
    (hreported : ∀ content ∈ listed, content ∈ reported)
    (hnoted : ∀ key ∈ run.keys, id ∈ key.envIds → key.content ∈ listed) :
    Agree run run' id saved reported ↔ KnownCurrent fileExists run.keys reported id listed := by
  constructor
  · rintro ⟨hlists, hids⟩
    have hkeeps : ∀ content ∈ contents run.keys, content ∈ listed → content ∈ saved :=
      fun content hmem hlisted => (hlists content).mpr ⟨hmem, hreported content hlisted⟩
    obtain ⟨hloop, hmarked⟩ := h.loop saved (Or.inl rfl) hkeeps
    refine ⟨?_, ?_, ?_, ?_⟩
    · intro content hlisted
      rw [← hloop, hlists, and_iff_left (hreported content hlisted)]
    · intro content hmem hrep
      exact h.subset ((hlists content).mpr ⟨hmem, hrep⟩)
    · intro i key hkey hlisted
      have hid := (hids i key hkey).mpr (hkeeps key.content (content_mem_of_getElem? hkey) hlisted)
      cases (hmarked i).mp hid with
      | inl hbefore => exact Or.inl ((notedAt_iff hkey).mp hbefore)
      | inr hmark =>
          obtain ⟨hfile, j, other, -, hj, -⟩ := (marked_iff hkey).mp hmark
          exact Or.inr ⟨hj ▸ Nat.mod_lt j (by decide), hfile⟩
    · intro i key hkey hmark
      exact h.subset ((hids i key hkey).mp ((hmarked i).mpr (Or.inr hmark)))
  · intro hcurrent
    have hkeeps : ∀ content ∈ contents run.keys, content ∈ listed →
        content ∈ remaining fileExists run.keys listed :=
      fun content hmem hlisted => (hcurrent.left content hlisted).mpr hmem
    obtain ⟨hloop, hmarked⟩ := h.loop _ (Or.inr rfl) hkeeps
    constructor
    · intro content
      constructor
      · intro hsaved
        have hlisted := h.subset hsaved
        exact ⟨(hcurrent.left content hlisted).mp (hloop ▸ hsaved), hreported content hlisted⟩
      · rintro ⟨hmem, hrep⟩
        rw [hloop]
        exact hkeeps content hmem (hcurrent.kept content hmem hrep)
    · intro i key hkey
      have hmem := content_mem_of_getElem? hkey
      rw [hmarked, hloop, notedAt_iff hkey]
      constructor
      · rintro (hid | hmark)
        · exact hkeeps _ hmem (hnoted key (List.mem_of_getElem? hkey) hid)
        · exact hkeeps _ hmem (hcurrent.reached i key hkey hmark)
      · intro hleft
        have hlisted := erased_subset _ _ hleft
        refine (hcurrent.noted i key hkey hlisted).imp_right ?_
        rintro ⟨hi, hfile⟩
        exact (marked_iff hkey).mpr ⟨hfile, i, key, hkey, (counter_eq_iff i).mpr hi, hlisted⟩

theorem agree_new_iff (hkeys : (contents run.keys).Nodup) {answers : List Bool} {saved : List QString}
    (h : NewChecked run run' id answers saved) :
    Agree run run' id saved (present run.keys answers) ↔ NewCurrent run.keys id answers := by
  have hpresent {i : Nat} {key : SshKey} (hkey : run.keys[i]? = some key) :
      key.content ∈ present run.keys answers ↔ Reported answers i := by
    rw [mem_present_iff]
    constructor
    · rintro ⟨j, other, hother, hj, hcontent⟩
      rwa [← eq_of_content_eq hkeys hother hkey hcontent]
    · exact fun hi => ⟨i, key, hkey, hi, rfl⟩
  have hsaved {i : Nat} {key : SshKey} (hkey : run.keys[i]? = some key) :
      key.content ∈ saved ↔ ∃ j, Reported answers j ∧ counter j = i := by
    rw [h.loop]
    constructor
    · rintro ⟨j, hj, other, hother, hcontent⟩
      exact ⟨j, hj, eq_of_content_eq hkeys hother hkey hcontent⟩
    · rintro ⟨j, hj, rfl⟩
      exact ⟨j, hj, key, hkey, rfl⟩
  constructor
  · rintro ⟨hlists, hids⟩
    have hsame {i : Nat} {key : SshKey} (hkey : run.keys[i]? = some key) :
        key.content ∈ saved ↔ Reported answers i := by
      rw [hlists, and_iff_right (content_mem_of_getElem? hkey), hpresent hkey]
    refine ⟨fun i hi => ⟨fun hlt => ?_, ?_⟩, fun i key hkey hid => ?_⟩
    · have hkey := List.getElem?_eq_getElem hlt
      obtain ⟨j, -, hj⟩ := (hsaved hkey).mp ((hsame hkey).mpr hi)
      exact hj ▸ Nat.mod_lt j (by decide)
    · obtain ⟨key, hkey⟩ := h.there i hi
      exact (hsame hkey).mp ((hsaved hkey).mpr ⟨i, hi, rfl⟩)
    · exact (hsame hkey).mp ((hids i key hkey).mp ((h.notes i).mpr (Or.inl ⟨key, hkey, hid⟩)))
  · intro hcurrent
    have hcounter {i : Nat} {key : SshKey} (hkey : run.keys[i]? = some key) :
        (∃ j, Reported answers j ∧ counter j = i) ↔ Reported answers i := by
      constructor
      · rintro ⟨j, hj, rfl⟩
        exact (hcurrent.reached j hj).2
      · intro hi
        refine ⟨i, hi, (counter_eq_iff i).mpr ((hcurrent.reached i hi).1 ?_)⟩
        exact (List.getElem?_eq_some_iff.mp hkey).1
    constructor
    · intro content
      constructor
      · intro hmem
        obtain ⟨i, hi, key, hkey, rfl⟩ := (h.loop content).mp hmem
        exact ⟨content_mem_of_getElem? hkey, (hpresent hkey).mpr (hcurrent.reached i hi).2⟩
      · rintro ⟨-, hrep⟩
        obtain ⟨i, key, hkey, hi, rfl⟩ := mem_present_iff.mp hrep
        exact (hsaved hkey).mpr ((hcounter hkey).mpr hi)
    · intro i key hkey
      rw [h.notes, hsaved hkey, hcounter hkey, notedAt_iff hkey]
      exact or_iff_right_of_imp (hcurrent.noted i key hkey)

namespace CheckedOn

variable (h : CheckedOn response fileExists run.cleanUp run.lstHealthyEnvironments.keys run')
include h

theorem keys_same : run'.keys.map addressed = run.keys.map addressed := by
  rw [h.same, keys_cleanUp]

theorem mem_iff (id : QString) :
    id ∈ run'.envs ↔ id ∈ run.lstHealthyEnvironments ∨
      id ∈ run.envs ∧ run.envs.size = run.lstHealthyEnvironments.size := by
  by_cases hid : id ∈ run.lstHealthyEnvironments
  · refine iff_of_true ?_ (Or.inl hid)
    have hchecked := h.checked id (Std.ExtTreeMap.mem_keys.mpr hid)
    rw [Lookups.mem_iff_exists]
    cases hknown : run.cleanUp.envs[id]? with
    | some env =>
        obtain ⟨saved, hsaved, -⟩ := hchecked.known env hknown
        exact ⟨saved, hsaved⟩
    | none =>
        obtain ⟨saved, hsaved, -⟩ := hchecked.new hknown
        exact ⟨saved, hsaved⟩
  · rw [Lookups.mem_iff_exists, h.envs id (mt Std.ExtTreeMap.mem_keys.mp hid), ← Lookups.mem_iff_exists,
      mem_cleanUp, or_iff_right hid, or_iff_right hid]

theorem domain_iff (hindexed : run.Indexed) :
    (∀ id, id ∈ run'.envs ↔ id ∈ run'.healthy) ↔
      (∀ id ∈ run.envs, id ∉ run.lstHealthyEnvironments →
        run.envs.size ≠ run.lstHealthyEnvironments.size) ∧
      ∀ id ∈ run.healthy, id ∈ run.lstHealthyEnvironments := by
  rw [h.healthy, healthy_cleanUp]
  constructor
  · intro hdomain
    have hmem {id : QString} (hid : id ∈ run'.envs) : id ∈ run.lstHealthyEnvironments :=
      ((h.mem_iff id).mp hid).elim (fun hlst => hlst)
        fun hbefore => hindexed.apart id hbefore.1 ((hdomain id).mp hid)
    constructor
    · exact fun id hid hgone hsize => hgone (hmem ((h.mem_iff id).mpr (Or.inr ⟨hid, hsize⟩)))
    · exact fun id hid => hmem ((hdomain id).mpr hid)
  · rintro ⟨hgone, huploaded⟩ id
    rw [h.mem_iff]
    constructor
    · rintro (hid | ⟨hid, hsize⟩)
      · exact hindexed.known id hid
      · by_contra hnot
        exact hgone id hid (fun hlst => hnot (hindexed.known id hlst)) hsize
    · exact fun hid => Or.inl (huploaded id hid)

theorem agree_iff (hindexed : run.Indexed) (hid : id ∈ run.lstHealthyEnvironments) :
    ∃ saved, run'.envs[id]? = some saved ∧
      (Agree run run' id saved.lstSshContents ((run'.reported[id]?).getD []) ↔
        (∀ env, run.envs[id]? = some env →
          KnownCurrent fileExists run.keys ((run.reported[id]?).getD []) id env.lstSshContents) ∧
        (run.envs[id]? = none → NewCurrent run.keys id (response id))) := by
  have hkeys := Std.ExtTreeMap.mem_keys.mpr hid
  have hchecked := h.checked id hkeys
  have hreported := h.reported id
  have hclean := getElem?_cleanUp_of_mem hid
  have hmem : id ∈ run.cleanUp.envs ↔ id ∈ run.envs := by
    rw [Lookups.mem_iff_exists, Lookups.mem_iff_exists, hclean]
  cases hknown : run.envs[id]? with
  | some env =>
      obtain ⟨saved, hsaved, hsubset, hloop⟩ := hchecked.known env (hclean.trans hknown)
      have hin : id ∈ run.envs := (Lookups.mem_iff_exists _ _).mpr ⟨env, hknown⟩
      rw [if_neg fun hc => hc.2 (hmem.mpr hin), reported_cleanUp] at hreported
      rw [keys_cleanUp] at hloop
      refine ⟨saved, hsaved, ?_⟩
      rw [hreported, agree_known_iff ⟨hsubset, hloop⟩ (hindexed.reported id env hknown)
        fun key hkey hmem => hindexed.noted key hkey id hmem env hknown]
      constructor
      · intro hcurrent
        refine ⟨fun other hother => ?_, fun hnone => absurd hnone (Option.some_ne_none env)⟩
        rw [← Option.some.inj hother]
        exact hcurrent
      · exact fun hcurrent => hcurrent.1 env rfl
  | none =>
      obtain ⟨saved, hsaved, hthere, hloop, hnotes⟩ := hchecked.new (hclean.trans hknown)
      have hout : id ∉ run.envs := by
        rw [← Std.ExtTreeMap.isSome_getElem?_iff_mem, hknown]
        exact Bool.false_ne_true
      rw [if_pos ⟨hkeys, mt hmem.mp hout⟩, keys_cleanUp] at hreported
      rw [keys_cleanUp] at hthere hloop hnotes
      refine ⟨saved, hsaved, ?_⟩
      rw [hreported, Option.getD_some, agree_new_iff hindexed.contents ⟨hthere, hloop, hnotes⟩]
      exact ⟨fun hcurrent => ⟨fun env henv => absurd henv.symm (Option.some_ne_none env), fun _ => hcurrent⟩,
        fun hcurrent => hcurrent.2 rfl⟩

/-- The check does not touch the notes about an environment that is not healthy. -/
theorem notedAt_unlisted (hid : id ∉ run.lstHealthyEnvironments) (i : Nat) :
    NotedAt run'.keys id i ↔ NotedAt run.keys id i := by
  rw [h.notes id (mt Std.ExtTreeMap.mem_keys.mp hid) i, keys_cleanUp]

/-- A check leaves the copies in agreement if and only if nothing was in the way before it. -/
theorem consistent_iff_checkCurrent (hindexed : run.Indexed) :
    run'.Consistent ↔ run.CheckCurrent response fileExists := by
  have hcontents : contents run'.keys = contents run.keys := contents_congr h.keys_same
  constructor
  · intro hconsistent
    obtain ⟨hgone, huploaded⟩ := (h.domain_iff hindexed).mp hconsistent.domain
    have hagree {id : QString} {saved : Envs} (hsaved : run'.envs[id]? = some saved) :
        Agree run run' id saved.lstSshContents ((run'.reported[id]?).getD []) := by
      refine ⟨fun content => ?_, fun i key hkey => ?_⟩
      · rw [hconsistent.lists id saved hsaved, hcontents]
      · obtain ⟨key', hkey', hcontent, -⟩ := getElem?_congr h.keys_same hkey
        rw [notedAt_iff hkey', hconsistent.envIds key' (List.mem_of_getElem? hkey') id, ← hcontent]
        constructor
        · rintro ⟨env, henv, hlisted⟩
          rw [Option.some.inj (hsaved.symm.trans henv)]
          exact hlisted
        · exact fun hlisted => ⟨saved, hsaved, hlisted⟩
    refine ⟨hgone, huploaded, ?_, ?_, ?_⟩
    · intro id hid
      obtain ⟨saved, hsaved, hiff⟩ := h.agree_iff hindexed hid
      exact (hiff.mp (hagree hsaved)).1
    · intro id hid
      obtain ⟨saved, hsaved, hiff⟩ := h.agree_iff hindexed hid
      exact (hiff.mp (hagree hsaved)).2
    · intro key hkey id hnoted
      by_contra hid
      obtain ⟨i, hi⟩ := List.mem_iff_getElem?.mp hkey
      obtain ⟨key', hkey', hnoted'⟩ := (h.notedAt_unlisted hid i).mpr ⟨key, hi, hnoted⟩
      obtain ⟨env, henv, -⟩ := (hconsistent.envIds key' (List.mem_of_getElem? hkey') id).mp hnoted'
      have hmem := (h.mem_iff id).mp ((Lookups.mem_iff_exists _ _).mpr ⟨env, henv⟩)
      obtain ⟨hbefore, hsize⟩ := hmem.resolve_left hid
      exact hgone id hbefore hid hsize
  · intro hcurrent
    have hdomain := (h.domain_iff hindexed).mpr ⟨hcurrent.gone, hcurrent.uploaded⟩
    have hhealthy {id : QString} (hid : id ∈ run'.envs) : id ∈ run.lstHealthyEnvironments := by
      apply hcurrent.uploaded
      rw [← healthy_cleanUp, ← h.healthy]
      exact (hdomain id).mp hid
    have hagree {id : QString} {env : Envs} (henv : run'.envs[id]? = some env) :
        Agree run run' id env.lstSshContents ((run'.reported[id]?).getD []) := by
      have hid := hhealthy ((Lookups.mem_iff_exists _ _).mpr ⟨env, henv⟩)
      obtain ⟨saved, hsaved, hiff⟩ := h.agree_iff hindexed hid
      rw [Option.some.inj (henv.symm.trans hsaved)]
      exact hiff.mpr ⟨hcurrent.known id hid, hcurrent.new id hid⟩
    refine ⟨hdomain, ?_, ?_⟩
    · intro id env henv content
      rw [hcontents]
      exact (hagree henv).1 content
    · intro key' hkey' id
      obtain ⟨i, hi⟩ := List.mem_iff_getElem?.mp hkey'
      obtain ⟨key, hkey, hcontent, -⟩ := getElem?_congr h.keys_same.symm hi
      rw [← notedAt_iff hi]
      constructor
      · intro hnoted
        have hid : id ∈ run.lstHealthyEnvironments := by
          by_contra hid
          obtain ⟨before, hbefore, hmem⟩ := (h.notedAt_unlisted hid i).mp hnoted
          exact hid (hcurrent.noted before (List.mem_of_getElem? hbefore) id hmem)
        obtain ⟨saved, hsaved, -⟩ := h.agree_iff hindexed hid
        exact ⟨saved, hsaved, hcontent ▸ ((hagree hsaved).2 i key hkey).mp hnoted⟩
      · rintro ⟨env, henv, hlisted⟩
        exact ((hagree henv).2 i key hkey).mpr (hcontent.symm ▸ hlisted)

theorem indexed_check (hindexed : run.Indexed) (hconsistent : run'.Consistent) : run'.Indexed := by
  have hcontents : contents run'.keys = contents run.keys := contents_congr h.keys_same
  refine ⟨hcontents ▸ hindexed.contents, ?_, ?_, ?_, ?_⟩
  · exact fun id env henv content hmem => ((hconsistent.lists id env henv content).mp hmem).2
  · intro key hkey id hid env henv
    obtain ⟨env', henv', hcontent⟩ := (hconsistent.envIds key hkey id).mp hid
    rw [Option.some.inj (henv.symm.trans henv')]
    exact hcontent
  · rw [h.healthy, h.lstHealthyEnvironments, lstHealthyEnvironments_cleanUp, healthy_cleanUp]
    exact hindexed.known
  · rw [h.healthy, h.lstHealthyEnvironments, lstHealthyEnvironments_cleanUp, healthy_cleanUp]
    intro id hid hhealthy
    exact ((h.mem_iff id).mp hid).elim (fun hlst => hlst)
      fun hbefore => hindexed.apart id hbefore.1 hhealthy

end CheckedOn

end

/-! ## Runs -/

def Current (run : SshKeyController) (event : Event) : Prop :=
  match event with
  | .checkEnvironmentKeys response fileExists => run.CheckCurrent response fileExists
  | _ => True

def RightAfterCheck (run : SshKeyController) : Prop := run.checked = true → run.Consistent

section
variable {run run' : SshKeyController}

theorem indexed_of_keys (h : run.Indexed) {keys : List SshKey} (hnodup : (contents keys).Nodup)
    (hkeys : ∀ key ∈ keys, key ∈ run.keys ∨ key.envIds = []) :
    { run with keys := keys }.Indexed := by
  refine ⟨hnodup, h.reported, ?_, h.known, h.apart⟩
  intro key hkey id hid env henv
  cases hkeys key hkey with
  | inl hbefore => exact h.noted key hbefore id hid env henv
  | inr hnone =>
      rw [hnone] at hid
      exact absurd hid List.not_mem_nil

/-- A file only adds a key, of which no environment is known. -/
theorem keys_refreshKeyFile {absolutePath : QString} {before keys : List SshKey} (file : KeyFile)
    (h : (contents keys).Nodup ∧ ∀ key ∈ keys, key ∈ before ∨ key.envIds = []) :
    (contents (refreshKeyFile absolutePath keys file)).Nodup ∧
      ∀ key ∈ refreshKeyFile absolutePath keys file, key ∈ before ∨ key.envIds = [] := by
  rw [refreshKeyFile]
  split
  · split
    · exact h
    · rename_i hnew
      constructor
      · rw [contents, List.map_append]
        refine List.nodup_append.mpr ⟨h.1, List.pairwise_singleton _ _, ?_⟩
        intro content hmem last hlast heq
        obtain ⟨key, hkey, hcontent⟩ := List.mem_map.mp hmem
        apply hnew
        refine List.any_eq_true.mpr ⟨key, hkey, decide_eq_true ?_⟩
        rw [hcontent, heq, List.mem_singleton.mp hlast]
      · intro key hkey
        cases List.mem_append.mp hkey with
        | inl hold => exact h.2 key hold
        | inr hlast => exact Or.inr (congrArg SshKey.envIds (List.mem_singleton.mp hlast))
  · exact h

theorem indexed_refreshKeyFiles (h : run.Indexed) (storage : Option KeysStorage) :
    (run.refreshKeyFiles storage).Indexed := by
  cases storage with
  | none => exact h
  | some storage =>
      have hkeys := @Runs.invariant _ _ (refreshKeyFile storage.absolutePath) run.keys
        (fun keys => (contents keys).Nodup ∧ ∀ key ∈ keys, key ∈ run.keys ∨ key.envIds = [])
        ⟨h.contents, fun _ => Or.inl⟩ (fun _ file => keys_refreshKeyFile file) storage.files
      exact indexed_of_keys h hkeys.1 hkeys.2

theorem indexed_cleanKeysList (h : run.Indexed) (content : QString) :
    (run.cleanKeysList content).Indexed := by
  apply indexed_of_keys h
  · exact (List.eraseP_sublist.map SshKey.content).nodup h.contents
  · intro key hkey
    exact Or.inl (List.mem_of_mem_eraseP hkey)

theorem indexed_removeKey (h : run.Indexed) (fileName : QString) (fileExists : QString → Bool)
    (storage : Option KeysStorage) : (run.removeKey fileName fileExists storage).Indexed := by
  rw [removeKey]
  apply indexed_refreshKeyFiles
  split
  · exact h
  · split
    · exact ⟨h.contents, h.reported, h.noted, h.known, h.apart⟩
    · split
      · exact indexed_cleanKeysList h _
      · exact h

theorem indexed_cleanEnvironmentList (h : run.Indexed) (envIds : List QString) :
    (run.cleanEnvironmentList envIds).Indexed := by
  have hbefore {id : QString} {env : Envs}
      (henv : (envIds.foldl (fun envs envId => envs.erase envId) run.envs)[id]? = some env) :
      run.envs[id]? = some env := by
    rw [Lookups.getElem?_foldl_erase] at henv
    split at henv
    · exact absurd henv.symm (Option.some_ne_none env)
    · exact henv
  refine ⟨h.contents, ?_, ?_, ?_, ?_⟩
  · intro id env henv
    exact h.reported id env (hbefore henv)
  · intro key hkey id hid env henv
    exact h.noted key hkey id hid env (hbefore henv)
  · intro id hid
    exact h.known id ((Lookups.mem_foldl_erase _ _ _).mp hid).1
  · intro id hid hhealthy
    obtain ⟨hid, hnot⟩ := (Lookups.mem_foldl_erase _ _ _).mp hid
    exact (Lookups.mem_foldl_erase _ _ _).mpr ⟨h.apart id hid hhealthy, hnot⟩

theorem mem_foldl_insert (environments : List (QString × QString)) (envs : StdMap QString)
    (id : QString) :
    id ∈ environments.foldl (fun envs env => envs.insert env.1 env.2) envs ↔
      id ∈ environments.map Prod.fst ∨ id ∈ envs := by
  induction environments generalizing envs with
  | nil => exact (or_iff_right List.not_mem_nil).symm
  | cons env environments ih =>
      rw [List.foldl_cons, ih, List.map_cons, List.mem_cons, Std.ExtTreeMap.mem_insert,
        Std.LawfulEqCmp.compare_eq_iff_eq, or_assoc, or_left_comm, eq_comm]

theorem indexed_refreshHealthyEnvs (h : run.Indexed) (environments : List (QString × QString)) :
    (run.refreshHealthyEnvs environments).Indexed := by
  have hsame (id : QString) :
      id ∈ environments.foldl (fun envs env => envs.insert env.1 env.2) (∅ : StdMap QString) ↔
        id ∈ environments.map Prod.fst :=
    (mem_foldl_insert environments ∅ id).trans (or_iff_left Std.ExtTreeMap.not_mem_empty)
  exact ⟨h.contents, h.reported, h.noted, fun id => (hsame id).mp, fun id _ => (hsame id).mpr⟩

theorem indexed_checked (h : run.Indexed) (checked : Bool) :
    { run with checked := checked }.Indexed :=
  ⟨h.contents, h.reported, h.noted, h.known, h.apart⟩

/-- Every step but a check keeps the index, and leaves nothing to be right about. -/
theorem indexed_step {event : Event} (h : run.Indexed) (hstep : step run event = some run')
    (hright : run'.RightAfterCheck) : run'.Indexed := by
  have hrun := indexed_checked h false
  cases event with
  | refreshKeyFiles storage =>
      rw [← Option.some.inj hstep]
      exact indexed_refreshKeyFiles hrun storage
  | refreshHealthyEnvs environments =>
      rw [← Option.some.inj hstep]
      exact indexed_refreshHealthyEnvs hrun environments
  | checkEnvironmentKeys response fileExists =>
      have hchecked := @checkedOn_check response fileExists { run with checked := false } run' hstep
      obtain ⟨_, _, heq⟩ := Option.map_eq_some_iff.mp hstep
      apply hchecked.indexed_check hrun
      apply hright
      rw [← heq]
  | removeKey fileName fileExists storage =>
      rw [← Option.some.inj hstep]
      exact indexed_removeKey hrun fileName fileExists storage
  | uploadKey keyWithSelectedEnvs =>
      rw [← Option.some.inj hstep]
      exact ⟨h.contents, h.reported, h.noted, h.known, h.apart⟩
  | removed content =>
      rw [step] at hstep
      split at hstep
      · rw [← Option.some.inj hstep]
        apply indexed_cleanKeysList
        exact ⟨h.contents, h.reported, h.noted, h.known, h.apart⟩
      · exact absurd hstep.symm (Option.some_ne_none run')
  | uploaded envIds =>
      rw [step] at hstep
      split at hstep
      · rw [← Option.some.inj hstep]
        apply indexed_cleanEnvironmentList
        exact ⟨h.contents, h.reported, h.noted, h.known, h.apart⟩
      · exact absurd hstep.symm (Option.some_ne_none run')

theorem checked_refreshKeyFiles (run : SshKeyController) (storage : Option KeysStorage) :
    (run.refreshKeyFiles storage).checked = run.checked := by
  cases storage with
  | none => rfl
  | some _ => rfl

theorem checked_removeKey (run : SshKeyController) (fileName : QString)
    (fileExists : QString → Bool) (storage : Option KeysStorage) :
    (run.removeKey fileName fileExists storage).checked = run.checked := by
  rw [removeKey, checked_refreshKeyFiles]
  split
  · rfl
  · split
    · rfl
    · split
      · rfl
      · rfl

theorem rightAfterCheck_step_iff {event : Event} (h : run.Indexed)
    (hstep : step run event = some run') : run'.RightAfterCheck ↔ run.Current event := by
  have hother (hchecked : run'.checked = false) : run'.RightAfterCheck := by
    intro hc
    rw [hchecked] at hc
    exact absurd hc Bool.false_ne_true
  cases event with
  | refreshKeyFiles storage =>
      rw [← Option.some.inj hstep] at hother ⊢
      exact iff_of_true (hother (checked_refreshKeyFiles _ storage)) trivial
  | refreshHealthyEnvs environments =>
      rw [← Option.some.inj hstep] at hother ⊢
      exact iff_of_true (hother rfl) trivial
  | checkEnvironmentKeys response fileExists =>
      have hrun := indexed_checked h false
      have hchecked := @checkedOn_check response fileExists { run with checked := false } run' hstep
      obtain ⟨_, _, heq⟩ := Option.map_eq_some_iff.mp hstep
      have hiff := hchecked.consistent_iff_checkCurrent hrun
      constructor
      · intro hright
        have hcurrent := hiff.mp (hright (by rw [← heq]))
        exact ⟨hcurrent.gone, hcurrent.uploaded, hcurrent.known, hcurrent.new, hcurrent.noted⟩
      · intro hcurrent _
        exact hiff.mpr ⟨hcurrent.gone, hcurrent.uploaded, hcurrent.known, hcurrent.new, hcurrent.noted⟩
  | removeKey fileName fileExists storage =>
      rw [← Option.some.inj hstep] at hother ⊢
      exact iff_of_true (hother (checked_removeKey _ fileName fileExists storage)) trivial
  | uploadKey keyWithSelectedEnvs =>
      rw [← Option.some.inj hstep] at hother ⊢
      exact iff_of_true (hother rfl) trivial
  | removed content =>
      rw [step] at hstep
      split at hstep
      · rw [← Option.some.inj hstep] at hother ⊢
        exact iff_of_true (hother rfl) trivial
      · exact absurd hstep.symm (Option.some_ne_none run')
  | uploaded envIds =>
      rw [step] at hstep
      split at hstep
      · rw [← Option.some.inj hstep] at hother ⊢
        exact iff_of_true (hother rfl) trivial
      · exact absurd hstep.symm (Option.some_ne_none run')

end

theorem indexed_new : new.Indexed := by
  refine ⟨List.nodup_nil, ?_, ?_, ?_, ?_⟩
  · intro id env henv
    exact absurd henv.symm (Option.some_ne_none env)
  · intro key hkey
    exact absurd hkey List.not_mem_nil
  · intro id hid
    exact absurd hid Std.ExtTreeMap.not_mem_empty
  · intro id hid
    exact absurd hid Std.ExtTreeMap.not_mem_empty

/-- A run is right after each of its checks exactly when nothing is in the way before any of them. -/
theorem rightAfterCheck_iff_current (events : List Event) :
    Runs.AlwaysPartial step RightAfterCheck new events ↔ Runs.EachStepPartial step Current new events :=
  @Runs.alwaysPartial_iff_eachStepPartial_of_kept _ _ new step Indexed RightAfterCheck Current indexed_new
    (fun hchecked => absurd hchecked Bool.false_ne_true)
    (fun _ _ _ h hstep => rightAfterCheck_step_iff h hstep)
    (fun _ _ _ h hstep hright => indexed_step h hstep hright) events

/-- Between two checks the only healthy environment is replaced by another. -/
def replaced : List Event :=
  [.refreshHealthyEnvs [("e1".toList, "one".toList)],
    .checkEnvironmentKeys (fun _ => []) (fun _ => true),
    .refreshHealthyEnvs [("e2".toList, "two".toList)],
    .checkEnvironmentKeys (fun _ => []) (fun _ => true)]

/-- There are as many environments as before, so the first one stays. -/
theorem not_rightAfterCheck_replaced : ¬ Runs.AlwaysPartial step RightAfterCheck new replaced := by
  intro always
  have hends : (replaced.foldlM step new).map
      (fun run => (run.checked, run.healthy, decide ("e1".toList ∈ run.envs))) =
        some (true, ["e2".toList], true) := by decide
  obtain ⟨run, hrun, hends⟩ := Option.map_eq_some_iff.mp hends
  rw [Prod.mk.injEq, Prod.mk.injEq] at hends
  obtain ⟨hchecked, hhealthy, henvs⟩ := hends
  have hconsistent := always replaced run (List.prefix_refl _) hrun hchecked
  have hmem := (hconsistent.domain "e1".toList).mp (of_decide_eq_true henvs)
  rw [hhealthy] at hmem
  exact absurd hmem (by decide)

end SubutaiTray.Hub.SshKeyController
