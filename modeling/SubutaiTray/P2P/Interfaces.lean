import SubutaiTray.Library.Counting
import SubutaiTray.Library.Splitting
import SubutaiTray.Qt.Numbers
import SubutaiTray.Process.SystemCall
import SubutaiTray.Hub.Controller

/-!
The interface ids of the swarms (`P2PConnector::update_status` up to the joins).

The pool is what the swarms of healthy environments of the hub leave of thirty ids.
An id that some other swarm is bound to is in the pool as well, so whether it is
given away depends on how many environments come before.
-/
namespace SubutaiTray.P2P

open SubutaiTray.Hub Splitting

/-- An environment as the hub describes it: no interface was chosen. -/
structure HubEnvironment extends CEnvironment where
  unset : baseInterfaceId = -1

/-- What a line of the output of `p2p show --interfaces --bind` says. -/
def boundSwarm (swarm : QString) : Option (QString × QString) :=
  if "swarm".toList <:+: swarm then
    match (split ['|'] swarm).filter (· ≠ []) with
    | [hash, interface] => some (hash, interface)
    | _ => none
  else none

def p2pShowInterfaces (daemonRuns : Bool) (res : SystemCallRes) : List (QString × QString) :=
  if !daemonRuns then []
  else if res.res ≠ .success ∧ res.exitCode ≠ 1 then []
  else res.out.filterMap boundSwarm

/-- `std::map<int, QString>` -/
abbrev InterfaceIds := Int → Option QString

def interfaceId (interface : QString) : Int := toInt (firstNumber interface)

def getUnselectedInterfaceId (interfaceIds : InterfaceIds) : Int :=
  match (List.range 30).find? fun id : Nat => (interfaceIds id).isNone with
  | some id => id
  | none => -1

def foundSwarmInterface (swarmInterfaces : List (QString × QString)) (env : CEnvironment) :
    Option (QString × QString) :=
  swarmInterfaces.find? fun swarmInterface => env.hash = swarmInterface.1

/-- The body of the first loop. -/
def useFoundInterface (swarmInterfaces : List (QString × QString)) (interfaceIds : InterfaceIds)
    (env : CEnvironment) : InterfaceIds × CEnvironment :=
  if env.healthy then
    match foundSwarmInterface swarmInterfaces env with
    | some swarmInterface =>
        if env.baseInterfaceId = -1 then
          let id := interfaceId swarmInterface.2
          (Function.update interfaceIds id (some env.hash), { env with baseInterfaceId := id })
        else (interfaceIds, env)
    | none => (interfaceIds, env)
  else (interfaceIds, env)

/-- The body of the second loop. -/
def giveUnselectedInterface (swarmInterfaces : List (QString × QString))
    (interfaceIds : InterfaceIds) (env : CEnvironment) : InterfaceIds × CEnvironment :=
  if env.healthy then
    match foundSwarmInterface swarmInterfaces env with
    | some _ => (interfaceIds, env)
    | none =>
        if env.baseInterfaceId = -1 then
          let id := getUnselectedInterfaceId interfaceIds
          (Function.update interfaceIds id (some env.hash), { env with baseInterfaceId := id })
        else (interfaceIds, env)
  else (interfaceIds, env)

/-- `for (CEnvironment &env : hub_environments)` -/
def forEnvironments (body : InterfaceIds → CEnvironment → InterfaceIds × CEnvironment) :
    InterfaceIds → List CEnvironment → InterfaceIds × List CEnvironment
  | interfaceIds, [] => (interfaceIds, [])
  | interfaceIds, env :: envs =>
      let (interfaceIds, env) := body interfaceIds env
      let (interfaceIds, envs) := forEnvironments body interfaceIds envs
      (interfaceIds, env :: envs)

def setInterfaces (swarmInterfaces : List (QString × QString)) (hubEnvironments : List CEnvironment) :
    List CEnvironment :=
  let (interfaceIds, envs) :=
    forEnvironments (useFoundInterface swarmInterfaces) (fun _ => none) hubEnvironments
  (forEnvironments (giveUnselectedInterface swarmInterfaces) interfaceIds envs).2

/-- The id in the name of an interface. -/
def interfaceNumber (interface : QString) : Option Nat :=
  if firstDigits interface = [] then none else some (decimal (firstDigits interface))

/-- The id of which the output says that the swarm of the environment is bound to it. -/
def boundTo (swarmInterfaces : List (QString × QString)) (env : CEnvironment) : Option Nat :=
  if env.healthy then
    (foundSwarmInterface swarmInterfaces env).bind fun swarmInterface =>
      interfaceNumber swarmInterface.2
  else none

/-- No healthy environment of the hub is bound to the id. -/
def free (swarmInterfaces : List (QString × QString)) (envs : List CEnvironment) (n : Nat) : Bool :=
  envs.all fun env => boundTo swarmInterfaces env ≠ some n

/-- What the ids of the environments should be. -/
structure InterfacesRight (joinedSwarms : List QString) (swarmInterfaces : List (QString × QString))
    (envs : List CEnvironment) : Prop where
  distinct : envs.Pairwise fun a b =>
    a.healthy → b.healthy → a.baseInterfaceId ≠ -1 → a.baseInterfaceId ≠ b.baseInterfaceId
  joining : ∀ env ∈ envs, env.healthy → env.hash ∉ joinedSwarms →
    foundSwarmInterface swarmInterfaces env = none → env.baseInterfaceId ≠ -1 →
      ∀ swarmInterface ∈ swarmInterfaces, ∀ n, interfaceNumber swarmInterface.2 = some n →
        env.baseInterfaceId ≠ n
  bound : ∀ env ∈ envs, env.healthy → ∀ swarmInterface,
    foundSwarmInterface swarmInterfaces env = some swarmInterface →
      ∃ n, interfaceNumber swarmInterface.2 = some n ∧ env.baseInterfaceId = n
  exhausted : ∀ env ∈ envs, env.healthy → env.baseInterfaceId = -1 →
    ∀ n : Nat, n < 30 → ∃ other ∈ envs, other.healthy ∧ other.baseInterfaceId = n

/-- The regular expression finds the id. -/
def ReadsNumber (interface : QString) (n : Nat) : Prop :=
  interfaceNumber interface = some n ∧
    (n = 0 ∨ firstNumber interface = firstDigits interface ∧ n < 2 ^ 31)

theorem readsNumber_iff (interface : QString) (n : Nat) :
    ReadsNumber interface n ↔
      interfaceNumber interface = some n ∧ interfaceId interface = n := by
  rw [ReadsNumber]
  apply and_congr_right
  intro hnumber
  rw [interfaceNumber] at hnumber
  split at hnumber
  · exact absurd hnumber.symm (Option.some_ne_none n)
  · rw [← Option.some.inj hnumber, interfaceId, toInt_firstNumber_iff ‹_›]

/-! ## The pool -/

/-- The ids of the pool that are not given away. -/
def unselected (interfaceIds : InterfaceIds) : List Nat :=
  (List.range 30).filter fun id : Nat => (interfaceIds id).isNone

/-- The id at a place of the pool. -/
def idAt (pool : List Nat) (k : Nat) : Int :=
  match pool[k]? with
  | some id => id
  | none => -1

theorem getUnselectedInterfaceId_eq (interfaceIds : InterfaceIds) :
    getUnselectedInterfaceId interfaceIds = idAt (unselected interfaceIds) 0 := by
  rw [getUnselectedInterfaceId, idAt, unselected, ← List.head?_eq_getElem?, List.head?_filter]

theorem unselected_update (interfaceIds : InterfaceIds) (given : Int) (hash : QString) :
    unselected (Function.update interfaceIds given (some hash)) =
      (unselected interfaceIds).filter fun id : Nat => (id : Int) ≠ given := by
  rw [unselected, unselected, List.filter_filter]
  apply List.filter_congr
  intro id _
  by_cases heq : (id : Int) = given
  · rw [heq, Function.update_self, decide_eq_false (not_not.mpr rfl), Bool.false_and]
    rfl
  · rw [Function.update_of_ne heq, decide_eq_true heq, Bool.true_and]

/-- What is given away is the head of the pool. -/
theorem unselected_give (interfaceIds : InterfaceIds) (hash : QString) :
    unselected (Function.update interfaceIds (getUnselectedInterfaceId interfaceIds) (some hash)) =
      (unselected interfaceIds).tail := by
  have hnodup : (unselected interfaceIds).Nodup := List.nodup_range.filter _
  rw [unselected_update, getUnselectedInterfaceId_eq]
  cases hpool : unselected interfaceIds with
  | nil => rfl
  | cons n rest =>
      rw [hpool] at hnodup
      have hhead : idAt (n :: rest) 0 = (n : Int) := rfl
      rw [hhead, List.filter_cons_of_neg (by rw [decide_eq_true_eq]; exact not_not.mpr rfl)]
      apply List.filter_eq_self.mpr
      intro id hid
      apply decide_eq_true
      intro heq
      exact (List.nodup_cons.mp hnodup).1 (Int.ofNat.inj heq ▸ hid)

/-! ## The two loops -/

/-- The environment is about to get an id from the pool. -/
def waits (swarmInterfaces : List (QString × QString)) (env : CEnvironment) : Bool :=
  env.healthy && (foundSwarmInterface swarmInterfaces env).isNone

def bindEnvironment (swarmInterfaces : List (QString × QString)) (env : CEnvironment) :
    CEnvironment :=
  if env.healthy then
    match foundSwarmInterface swarmInterfaces env with
    | some swarmInterface => { env with baseInterfaceId := interfaceId swarmInterface.2 }
    | none => env
  else env

def reserves (swarmInterfaces : List (QString × QString)) (id : Int) (env : CEnvironment) : Bool :=
  env.healthy &&
    (foundSwarmInterface swarmInterfaces env).any fun swarmInterface =>
      interfaceId swarmInterface.2 = id

/-- The environments with the ids they get, one id of the pool after the other. -/
def assign (swarmInterfaces : List (QString × QString)) :
    List Nat → List CEnvironment → List CEnvironment
  | _, [] => []
  | pool, env :: envs =>
      if waits swarmInterfaces env then
        { env with baseInterfaceId := idAt pool 0 } :: assign swarmInterfaces pool.tail envs
      else bindEnvironment swarmInterfaces env :: assign swarmInterfaces pool envs

section
variable {swarmInterfaces : List (QString × QString)} {env : CEnvironment}
  {envs : List CEnvironment}

theorem waits_iff (swarmInterfaces : List (QString × QString)) (env : CEnvironment) :
    waits swarmInterfaces env = true ↔
      env.healthy = true ∧ foundSwarmInterface swarmInterfaces env = none := by
  rw [waits, Bool.and_eq_true, Option.isNone_iff_eq_none]

theorem waits_cases (swarmInterfaces : List (QString × QString)) (env : CEnvironment) :
    waits swarmInterfaces env = true ∧ env.healthy = true ∧
        foundSwarmInterface swarmInterfaces env = none ∨
      waits swarmInterfaces env = false ∧ env.healthy = true ∧
        (∃ swarmInterface, foundSwarmInterface swarmInterfaces env = some swarmInterface) ∨
      waits swarmInterfaces env = false ∧ env.healthy = false := by
  rw [waits]
  cases env.healthy with
  | false => exact Or.inr (Or.inr ⟨rfl, rfl⟩)
  | true =>
      cases foundSwarmInterface swarmInterfaces env with
      | none => exact Or.inl ⟨rfl, rfl, rfl⟩
      | some swarmInterface => exact Or.inr (Or.inl ⟨rfl, rfl, swarmInterface, rfl⟩)

theorem bindEnvironment_of_found (hhealthy : env.healthy = true) {swarmInterface : QString × QString}
    (hfound : foundSwarmInterface swarmInterfaces env = some swarmInterface) :
    bindEnvironment swarmInterfaces env =
      { env with baseInterfaceId := interfaceId swarmInterface.2 } := by
  rw [bindEnvironment, if_pos hhealthy, hfound]

theorem bindEnvironment_of_none (hfound : foundSwarmInterface swarmInterfaces env = none) :
    bindEnvironment swarmInterfaces env = env := by
  rw [bindEnvironment, hfound]
  exact ite_self env

theorem bindEnvironment_of_not (hhealthy : env.healthy = false) :
    bindEnvironment swarmInterfaces env = env := by
  rw [bindEnvironment, if_neg (Bool.not_eq_true _ ▸ hhealthy)]

theorem useFoundInterface_eq (interfaceIds : InterfaceIds) (hunset : env.baseInterfaceId = -1) :
    (useFoundInterface swarmInterfaces interfaceIds env).2 = bindEnvironment swarmInterfaces env ∧
      ∀ id, ((useFoundInterface swarmInterfaces interfaceIds env).1 id).isNone =
        ((interfaceIds id).isNone && !reserves swarmInterfaces id env) := by
  cases waits_cases swarmInterfaces env with
  | inl hwaits =>
      rw [useFoundInterface, if_pos hwaits.2.1, hwaits.2.2, bindEnvironment_of_none hwaits.2.2]
      refine ⟨rfl, fun id => ?_⟩
      rw [reserves, hwaits.2.2, Option.any_none, Bool.and_false, Bool.not_false, Bool.and_true]
  | inr hother =>
      cases hother with
      | inl hfound =>
          obtain ⟨swarmInterface, hsome⟩ := hfound.2.2
          rw [useFoundInterface, if_pos hfound.2.1, hsome]
          dsimp only
          rw [if_pos hunset]
          refine ⟨(bindEnvironment_of_found hfound.2.1 hsome).symm, fun id => ?_⟩
          rw [reserves, hfound.2.1, hsome, Option.any_some, Bool.true_and]
          dsimp only
          by_cases hid : id = interfaceId swarmInterface.2
          · rw [hid, Function.update_self, decide_eq_true rfl, Bool.not_true, Bool.and_false]
            rfl
          · rw [Function.update_of_ne hid, decide_eq_false fun heq => hid heq.symm, Bool.not_false,
              Bool.and_true]
      | inr hsick =>
          rw [useFoundInterface, if_neg (by rw [hsick.2]; decide), bindEnvironment_of_not hsick.2]
          refine ⟨rfl, fun id => ?_⟩
          rw [reserves, hsick.2, Bool.false_and, Bool.not_false, Bool.and_true]

theorem forEnvironments_useFoundInterface (interfaceIds : InterfaceIds)
    (hunset : ∀ env ∈ envs, env.baseInterfaceId = -1) :
    (forEnvironments (useFoundInterface swarmInterfaces) interfaceIds envs).2 =
        envs.map (bindEnvironment swarmInterfaces) ∧
      ∀ id, ((forEnvironments (useFoundInterface swarmInterfaces) interfaceIds envs).1 id).isNone =
        ((interfaceIds id).isNone && !envs.any (reserves swarmInterfaces id)) := by
  induction envs generalizing interfaceIds with
  | nil =>
      refine ⟨rfl, fun id => ?_⟩
      rw [List.any_nil, Bool.not_false, Bool.and_true]
      rfl
  | cons env envs ih =>
      have hhead := @useFoundInterface_eq swarmInterfaces env interfaceIds
        (hunset env List.mem_cons_self)
      have hrest := ih (useFoundInterface swarmInterfaces interfaceIds env).1
        fun other hother => hunset other (List.mem_cons_of_mem env hother)
      constructor
      · rw [List.map_cons, ← hhead.1, ← hrest.1]
        rfl
      · intro id
        rw [List.any_cons, Bool.not_or, ← Bool.and_assoc, ← hhead.2 id]
        exact hrest.2 id

theorem giveUnselectedInterface_of_waits (interfaceIds : InterfaceIds)
    (hunset : env.baseInterfaceId = -1) (hhealthy : env.healthy = true)
    (hfound : foundSwarmInterface swarmInterfaces env = none) :
    giveUnselectedInterface swarmInterfaces interfaceIds env =
      (Function.update interfaceIds (getUnselectedInterfaceId interfaceIds) (some env.hash),
        { env with baseInterfaceId := getUnselectedInterfaceId interfaceIds }) := by
  rw [giveUnselectedInterface, if_pos hhealthy, hfound]
  exact if_pos hunset

/-- The second loop leaves alone what the first has bound. -/
theorem giveUnselectedInterface_bindEnvironment (interfaceIds : InterfaceIds)
    (hwaits : waits swarmInterfaces env = false) :
    giveUnselectedInterface swarmInterfaces interfaceIds (bindEnvironment swarmInterfaces env) =
      (interfaceIds, bindEnvironment swarmInterfaces env) := by
  cases waits_cases swarmInterfaces env with
  | inl h => exact absurd (hwaits.symm.trans h.1) Bool.false_ne_true
  | inr hother =>
      cases hother with
      | inl hfound =>
          obtain ⟨swarmInterface, hsome⟩ := hfound.2.2
          have hsame : foundSwarmInterface swarmInterfaces
              { env with baseInterfaceId := interfaceId swarmInterface.2 } = some swarmInterface :=
            hsome
          rw [bindEnvironment_of_found hfound.2.1 hsome, giveUnselectedInterface, hsame]
          exact ite_self _
      | inr hsick =>
          rw [bindEnvironment_of_not hsick.2, giveUnselectedInterface,
            if_neg (by rw [hsick.2]; decide)]

theorem forEnvironments_giveUnselectedInterface (interfaceIds : InterfaceIds)
    (hunset : ∀ env ∈ envs, env.baseInterfaceId = -1) :
    (forEnvironments (giveUnselectedInterface swarmInterfaces) interfaceIds
        (envs.map (bindEnvironment swarmInterfaces))).2 =
      assign swarmInterfaces (unselected interfaceIds) envs := by
  induction envs generalizing interfaceIds with
  | nil => rfl
  | cons env envs ih =>
      have hrest := fun interfaceIds => ih interfaceIds
        fun other hother => hunset other (List.mem_cons_of_mem env hother)
      rw [assign, List.map_cons, forEnvironments]
      cases hwaits : waits swarmInterfaces env with
      | true =>
          have hwaiting := (waits_iff swarmInterfaces env).mp hwaits
          rw [bindEnvironment_of_none hwaiting.2,
            giveUnselectedInterface_of_waits interfaceIds (hunset env List.mem_cons_self)
              hwaiting.1 hwaiting.2, if_pos rfl]
          dsimp only
          rw [hrest, unselected_give, getUnselectedInterfaceId_eq]
      | false =>
          rw [giveUnselectedInterface_bindEnvironment interfaceIds hwaits,
            if_neg Bool.false_ne_true]
          dsimp only
          rw [hrest]

theorem setInterfaces_eq (hunset : ∀ env ∈ envs, env.baseInterfaceId = -1) :
    setInterfaces swarmInterfaces envs =
      assign swarmInterfaces
        ((List.range 30).filter fun id : Nat => !envs.any (reserves swarmInterfaces id)) envs := by
  have hfirst := @forEnvironments_useFoundInterface swarmInterfaces envs (fun _ => none) hunset
  rw [setInterfaces]
  dsimp only
  rw [hfirst.1, forEnvironments_giveUnselectedInterface _ hunset, unselected]
  congr 1
  apply List.filter_congr
  intro id _
  exact hfirst.2 id

theorem map_hash_forEnvironments {body : InterfaceIds → CEnvironment → InterfaceIds × CEnvironment}
    (hbody : ∀ interfaceIds env, (body interfaceIds env).2.hash = env.hash)
    (interfaceIds : InterfaceIds) (envs : List CEnvironment) :
    (forEnvironments body interfaceIds envs).2.map CEnvironment.hash =
      envs.map CEnvironment.hash := by
  induction envs generalizing interfaceIds with
  | nil => rfl
  | cons env envs ih =>
      rw [List.map_cons, ← hbody interfaceIds env, ← ih (body interfaceIds env).1]
      rfl

/-- The environments keep their swarms. -/
theorem map_hash_setInterfaces (swarmInterfaces : List (QString × QString))
    (envs : List CEnvironment) :
    (setInterfaces swarmInterfaces envs).map CEnvironment.hash = envs.map CEnvironment.hash := by
  rw [setInterfaces]
  dsimp only
  rw [map_hash_forEnvironments, map_hash_forEnvironments]
  · intro interfaceIds env
    rw [useFoundInterface]
    split
    · split
      · split <;> rfl
      · rfl
    · rfl
  · intro interfaceIds env
    rw [giveUnselectedInterface]
    split
    · split
      · rfl
      · split <;> rfl
    · rfl

/-! ## What the environments get -/

/-- What an environment gets when so many wait before it. -/
def given (swarmInterfaces : List (QString × QString)) (pool : List Nat) (k : Nat)
    (env : CEnvironment) : CEnvironment :=
  if waits swarmInterfaces env then { env with baseInterfaceId := idAt pool k }
  else bindEnvironment swarmInterfaces env

theorem given_of_waits {pool : List Nat} {k : Nat} (h : waits swarmInterfaces env = true) :
    given swarmInterfaces pool k env = { env with baseInterfaceId := idAt pool k } := by
  rw [given, if_pos h]

theorem given_of_not {pool : List Nat} {k : Nat} (h : waits swarmInterfaces env = false) :
    given swarmInterfaces pool k env = bindEnvironment swarmInterfaces env := by
  rw [given, if_neg (by rw [h]; decide)]

theorem given_tail (pool : List Nat) (k : Nat) :
    given swarmInterfaces pool.tail k env = given swarmInterfaces pool (k + 1) env := by
  rw [given, given, idAt, idAt, List.getElem?_tail]

theorem assign_cons (pool : List Nat) (env : CEnvironment) (envs : List CEnvironment) :
    assign swarmInterfaces pool (env :: envs) = given swarmInterfaces pool 0 env ::
      assign swarmInterfaces (if waits swarmInterfaces env then pool.tail else pool) envs := by
  rw [assign, given]
  split <;> rfl

theorem mem_assign {pool : List Nat} {result : CEnvironment} :
    result ∈ assign swarmInterfaces pool envs ↔
      ∃ before env after, envs = before ++ env :: after ∧
        result = given swarmInterfaces pool (before.countP (waits swarmInterfaces)) env := by
  induction envs generalizing pool with
  | nil =>
      apply iff_of_false List.not_mem_nil
      intro h
      obtain ⟨before, env, after, hsplit, _⟩ := h
      exact absurd hsplit.symm (List.append_ne_nil_of_right_ne_nil before (List.cons_ne_nil env after))
  | cons head envs ih =>
      have hcount (before : List CEnvironment) (env : CEnvironment) :
          given swarmInterfaces (if waits swarmInterfaces head then pool.tail else pool)
              (before.countP (waits swarmInterfaces)) env =
            given swarmInterfaces pool ((head :: before).countP (waits swarmInterfaces)) env := by
        rw [List.countP_cons]
        split
        · rw [given_tail]
        · rfl
      rw [assign_cons, List.mem_cons, ih]
      constructor
      · intro h
        cases h with
        | inl hhead => exact ⟨[], head, envs, rfl, hhead⟩
        | inr hrest =>
            obtain ⟨before, env, after, hsplit, hresult⟩ := hrest
            exact ⟨head :: before, env, after, congrArg (List.cons head) hsplit,
              hresult.trans (hcount before env)⟩
      · intro h
        obtain ⟨before, env, after, hsplit, hresult⟩ := h
        cases before with
        | nil =>
            rw [(List.cons.inj hsplit).1]
            exact Or.inl hresult
        | cons first before =>
            right
            rw [← (List.cons.inj hsplit).1] at hresult
            exact ⟨before, env, after, (List.cons.inj hsplit).2,
              hresult.trans (hcount before env).symm⟩

theorem bindEnvironment_mem_assign (pool : List Nat) (hmem : env ∈ envs)
    (hwaits : waits swarmInterfaces env = false) :
    bindEnvironment swarmInterfaces env ∈ assign swarmInterfaces pool envs := by
  obtain ⟨before, after, hsplit⟩ := List.append_of_mem hmem
  exact mem_assign.mpr ⟨before, env, after, hsplit, (given_of_not hwaits).symm⟩

theorem pairwise_of_assign {R : CEnvironment → CEnvironment → Prop} {pool : List Nat}
    (h : (assign swarmInterfaces pool envs).Pairwise R) :
    envs.Pairwise fun a b => waits swarmInterfaces a = false → waits swarmInterfaces b = false →
      R (bindEnvironment swarmInterfaces a) (bindEnvironment swarmInterfaces b) := by
  induction envs generalizing pool with
  | nil => exact List.Pairwise.nil
  | cons head envs ih =>
      rw [assign_cons, List.pairwise_cons] at h
      apply List.pairwise_cons.mpr
      constructor
      · intro b hb hhead hwaits
        rw [given_of_not hhead] at h
        exact h.1 _ (bindEnvironment_mem_assign _ hb hwaits)
      · exact ih h.2

theorem healthy_given (pool : List Nat) (k : Nat) :
    (given swarmInterfaces pool k env).healthy = env.healthy := by
  rw [given, bindEnvironment]
  split
  · rfl
  · split
    · split <;> rfl
    · rfl

theorem hash_given (pool : List Nat) (k : Nat) :
    (given swarmInterfaces pool k env).hash = env.hash := by
  rw [given, bindEnvironment]
  split
  · rfl
  · split
    · split <;> rfl
    · rfl

theorem foundSwarmInterface_given (pool : List Nat) (k : Nat) :
    foundSwarmInterface swarmInterfaces (given swarmInterfaces pool k env) =
      foundSwarmInterface swarmInterfaces env := by
  rw [foundSwarmInterface, hash_given, foundSwarmInterface]

def Reads (swarmInterfaces : List (QString × QString)) (env : CEnvironment) : Prop :=
  env.healthy → ∀ swarmInterface, foundSwarmInterface swarmInterfaces env = some swarmInterface →
    ∃ n, ReadsNumber swarmInterface.2 n

theorem boundTo_of_found (hhealthy : env.healthy = true) {swarmInterface : QString × QString}
    (hfound : foundSwarmInterface swarmInterfaces env = some swarmInterface) :
    boundTo swarmInterfaces env = interfaceNumber swarmInterface.2 := by
  rw [boundTo, if_pos hhealthy, hfound, Option.bind_some]

theorem boundTo_of_waits (h : waits swarmInterfaces env = true) :
    boundTo swarmInterfaces env = none := by
  rw [waits_iff] at h
  rw [boundTo, if_pos h.1, h.2, Option.bind_none]

theorem reserves_eq (hreads : Reads swarmInterfaces env) (n : Nat) :
    reserves swarmInterfaces n env = decide (boundTo swarmInterfaces env = some n) := by
  cases hhealthy : env.healthy with
  | false =>
      rw [reserves, hhealthy, boundTo, if_neg (by rw [hhealthy]; decide)]
      rfl
  | true =>
      cases hfound : foundSwarmInterface swarmInterfaces env with
      | none =>
          rw [reserves, hfound, boundTo, if_pos hhealthy, hfound]
          exact Bool.and_false _
      | some swarmInterface =>
          obtain ⟨m, hm⟩ := hreads hhealthy swarmInterface hfound
          rw [readsNumber_iff] at hm
          rw [reserves, hhealthy, hfound, boundTo_of_found hhealthy hfound, hm.1, Option.any_some,
            hm.2, Bool.true_and]
          apply decide_eq_decide.mpr
          rw [Option.some.injEq]
          exact Int.ofNat_inj

theorem not_any_reserves (hreads : ∀ env ∈ envs, Reads swarmInterfaces env) (n : Nat) :
    (!envs.any (reserves swarmInterfaces n)) = free swarmInterfaces envs n := by
  rw [free, List.not_any_eq_all_not, Bool.eq_iff_iff, List.all_eq_true, List.all_eq_true]
  apply forall₂_congr
  intro env henv
  rw [reserves_eq (hreads env henv), decide_not]

theorem given_cases (hreads : Reads swarmInterfaces env) (hhealthy : env.healthy = true)
    (pool : List Nat) (k : Nat) :
    waits swarmInterfaces env = true ∧
        (given swarmInterfaces pool k env).baseInterfaceId = idAt pool k ∨
      ∃ n : Nat, boundTo swarmInterfaces env = some n ∧
        (given swarmInterfaces pool k env).baseInterfaceId = n := by
  cases waits_cases swarmInterfaces env with
  | inl hwaits =>
      left
      rw [given_of_waits hwaits.1]
      exact ⟨hwaits.1, rfl⟩
  | inr hother =>
      cases hother with
      | inl hfound =>
          obtain ⟨swarmInterface, hsome⟩ := hfound.2.2
          obtain ⟨n, hn⟩ := hreads hhealthy swarmInterface hsome
          rw [readsNumber_iff] at hn
          right
          refine ⟨n, (boundTo_of_found hhealthy hsome).trans hn.1, ?_⟩
          rw [given_of_not hfound.1, bindEnvironment_of_found hhealthy hsome]
          exact hn.2
      | inr hsick => exact absurd (hsick.2.symm.trans hhealthy) Bool.false_ne_true

theorem idAt_cases (pool : List Nat) (k : Nat) :
    pool[k]? = none ∧ idAt pool k = -1 ∨ ∃ n : Nat, pool[k]? = some n ∧ idAt pool k = n := by
  rw [idAt]
  cases pool[k]? with
  | none => exact Or.inl ⟨rfl, rfl⟩
  | some n => exact Or.inr ⟨n, rfl, rfl⟩

theorem mem_of_idAt {pool : List Nat} {k n : Nat} (h : idAt pool k = n) : n ∈ pool := by
  cases idAt_cases pool k with
  | inl hnone =>
      have hneg := h.symm.trans hnone.2
      omega
  | inr hsome =>
      obtain ⟨m, hm, hid⟩ := hsome
      have heq : m = n := Int.ofNat.inj (hid.symm.trans h)
      exact heq ▸ List.mem_of_getElem? hm

/-- The first environment and a later one get different ids, where neither is bound to an id
of the pool. -/
theorem given_ne_given {head : CEnvironment} {pool : List Nat} (hnodup : pool.Nodup)
    (hreads : Reads swarmInterfaces head) (hreads' : Reads swarmInterfaces env)
    (hapart : ∀ n, boundTo swarmInterfaces head = some n → boundTo swarmInterfaces env ≠ some n)
    (hfree : ∀ n ∈ pool, boundTo swarmInterfaces head ≠ some n ∧
      boundTo swarmInterfaces env ≠ some n)
    (hhead : head.healthy = true) (hhealthy : env.healthy = true) (k : Nat)
    (hid : (given swarmInterfaces pool 0 head).baseInterfaceId ≠ -1) :
    (given swarmInterfaces pool 0 head).baseInterfaceId ≠
      (given swarmInterfaces (if waits swarmInterfaces head then pool.tail else pool) k
        env).baseInterfaceId := by
  have hlater := given_cases hreads' hhealthy
    (if waits swarmInterfaces head then pool.tail else pool) k
  cases given_cases hreads hhead pool 0 with
  | inl hwaits =>
      rw [hwaits.2] at hid ⊢
      cases pool with
      | nil => exact absurd rfl hid
      | cons n rest =>
          have hn : idAt (n :: rest) 0 = n := rfl
          rw [hn]
          rw [if_pos hwaits.1, List.tail_cons] at hlater ⊢
          cases hlater with
          | inl hnext =>
              rw [hnext.2]
              intro heq
              exact (List.nodup_cons.mp hnodup).1 (mem_of_idAt heq.symm)
          | inr hbound =>
              obtain ⟨m, hm, hbase⟩ := hbound
              rw [hbase]
              intro heq
              apply (hfree n List.mem_cons_self).2
              rw [hm, Int.ofNat.inj heq]
  | inr hbound =>
      obtain ⟨m, hm, hbase⟩ := hbound
      rw [hbase]
      cases hlater with
      | inl hnext =>
          rw [hnext.2]
          intro heq
          have hmem := mem_of_idAt heq.symm
          split at hmem
          · exact (hfree m (List.mem_of_mem_tail hmem)).1 hm
          · exact (hfree m hmem).1 hm
      | inr hnext =>
          obtain ⟨n, hn, hnextBase⟩ := hnext
          rw [hnextBase]
          intro heq
          apply hapart m hm
          rw [hn, Int.ofNat.inj heq]

theorem pairwise_assign {pool : List Nat} (hnodup : pool.Nodup)
    (hreads : ∀ env ∈ envs, Reads swarmInterfaces env)
    (hapart : envs.Pairwise fun a b => ∀ n, boundTo swarmInterfaces a = some n →
      boundTo swarmInterfaces b ≠ some n)
    (hfree : ∀ n ∈ pool, ∀ env ∈ envs, boundTo swarmInterfaces env ≠ some n) :
    (assign swarmInterfaces pool envs).Pairwise fun a b =>
      a.healthy → b.healthy → a.baseInterfaceId ≠ -1 → a.baseInterfaceId ≠ b.baseInterfaceId := by
  induction envs generalizing pool with
  | nil => exact List.Pairwise.nil
  | cons head envs ih =>
      rw [List.pairwise_cons] at hapart
      rw [assign_cons]
      apply List.pairwise_cons.mpr
      constructor
      · intro b hb hhead hhealthy hid
        rw [healthy_given] at hhead
        obtain ⟨before, env, after, hsplit, rfl⟩ := mem_assign.mp hb
        rw [healthy_given] at hhealthy
        have henv : env ∈ envs := by
          rw [hsplit]
          exact List.mem_append_right before List.mem_cons_self
        exact given_ne_given hnodup (hreads head List.mem_cons_self)
          (hreads env (List.mem_cons_of_mem head henv)) (hapart.1 env henv)
          (fun n hn =>
            ⟨hfree n hn head List.mem_cons_self, hfree n hn env (List.mem_cons_of_mem head henv)⟩)
          hhead hhealthy _ hid
      · have hpool : (if waits swarmInterfaces head then pool.tail else pool) <:+ pool := by
          split
          · exact List.tail_suffix pool
          · exact List.suffix_refl pool
        apply ih (hnodup.sublist hpool.sublist)
        · exact fun env henv => hreads env (List.mem_cons_of_mem head henv)
        · exact hapart.2
        · exact fun n hn env henv => hfree n (hpool.subset hn) env (List.mem_cons_of_mem head henv)

/-- When the ids come out right. The pool is handed out from below, so an id that a swarm
outside of it is bound to stays unused as long as no environment is just as far from
the start of the queue as the id is from the start of the pool. -/
structure PoolSafe (joinedSwarms : List QString) (swarmInterfaces : List (QString × QString))
    (envs : List CEnvironment) : Prop where
  reads : ∀ env ∈ envs, Reads swarmInterfaces env
  apart : envs.Pairwise fun a b => ∀ n, boundTo swarmInterfaces a = some n →
    boundTo swarmInterfaces b ≠ some n
  spared : ∀ swarmInterface ∈ swarmInterfaces, ∀ n < 30,
    interfaceNumber swarmInterface.2 = some n → free swarmInterfaces envs n = true →
      ∀ before env after, envs = before ++ env :: after → waits swarmInterfaces env = true →
        env.hash ∉ joinedSwarms → before.countP (waits swarmInterfaces) ≠
          Nat.count (fun m => free swarmInterfaces envs m = true) n

def freePool (swarmInterfaces : List (QString × QString)) (envs : List CEnvironment) : List Nat :=
  (List.range 30).filter (free swarmInterfaces envs)

theorem setInterfaces_eq_freePool (hunset : ∀ env ∈ envs, env.baseInterfaceId = -1)
    (hreads : ∀ env ∈ envs, Reads swarmInterfaces env) :
    setInterfaces swarmInterfaces envs =
      assign swarmInterfaces (freePool swarmInterfaces envs) envs := by
  rw [setInterfaces_eq hunset, freePool]
  congr 1
  apply List.filter_congr
  intro n _
  exact not_any_reserves hreads n

theorem getElem?_freePool (k n : Nat) :
    (freePool swarmInterfaces envs)[k]? = some n ↔
      n < 30 ∧ free swarmInterfaces envs n = true ∧
        Nat.count (fun m => free swarmInterfaces envs m = true) n = k :=
  Counting.getElem?_filter_range (free swarmInterfaces envs) k n 30

theorem given_mem_assign {before after : List CEnvironment}
    (hsplit : envs = before ++ env :: after) (pool : List Nat) :
    given swarmInterfaces pool (before.countP (waits swarmInterfaces)) env ∈
      assign swarmInterfaces pool envs :=
  mem_assign.mpr ⟨before, env, after, hsplit, rfl⟩

theorem mem_of_split {before after : List CEnvironment} (hsplit : envs = before ++ env :: after) :
    env ∈ envs := by
  rw [hsplit]
  exact List.mem_append_right before List.mem_cons_self

theorem idAt_of_getElem? {pool : List Nat} {k n : Nat} (h : pool[k]? = some n) :
    idAt pool k = n := by
  rw [idAt, h]

theorem bindEnvironment_of_boundTo (hreads : Reads swarmInterfaces env) {n : Nat}
    (hbound : boundTo swarmInterfaces env = some n) :
    waits swarmInterfaces env = false ∧ (bindEnvironment swarmInterfaces env).healthy = true ∧
      (bindEnvironment swarmInterfaces env).baseInterfaceId = n := by
  have hhealthy : env.healthy = true := by
    by_contra hsick
    rw [boundTo, if_neg hsick] at hbound
    exact Option.some_ne_none n hbound.symm
  have hwaits : waits swarmInterfaces env = false := by
    rw [← Bool.not_eq_true]
    intro h
    exact Option.some_ne_none n (hbound.symm.trans (boundTo_of_waits h))
  have hgiven := given_cases hreads hhealthy [] 0
  have hsame := @healthy_given swarmInterfaces env [] 0
  rw [given_of_not hwaits] at hgiven hsame
  refine ⟨hwaits, hsame.trans hhealthy, ?_⟩
  cases hgiven with
  | inl h => exact absurd (hwaits.symm.trans h.1) Bool.false_ne_true
  | inr h =>
      obtain ⟨m, hm, hbase⟩ := h
      rw [hbase, Option.some.inj (hm.symm.trans hbound)]

/-- When the pool is exhausted, each of its ids was reserved or given away before. -/
theorem used_of_exhausted (hreads : ∀ env ∈ envs, Reads swarmInterfaces env)
    {before after : List CEnvironment} (hsplit : envs = before ++ env :: after)
    (hnone : (freePool swarmInterfaces envs)[before.countP (waits swarmInterfaces)]? = none)
    {n : Nat} (hn : n < 30) :
    ∃ other ∈ assign swarmInterfaces (freePool swarmInterfaces envs) envs,
      other.healthy ∧ other.baseInterfaceId = n := by
  cases hfree : free swarmInterfaces envs n with
  | false =>
      rw [free, ← Bool.not_eq_true, List.all_eq_true, not_forall] at hfree
      obtain ⟨other, hother⟩ := hfree
      rw [Classical.not_imp, decide_eq_true_eq, not_not] at hother
      have hbound := bindEnvironment_of_boundTo (hreads other hother.1) hother.2
      exact ⟨_, bindEnvironment_mem_assign _ hother.1 hbound.1, hbound.2⟩
  | true =>
      have hplace := (getElem?_freePool _ n).mpr ⟨hn, hfree, rfl⟩
      have hless := (List.getElem?_eq_some_iff.mp hplace).1
      have hbefore := hless.trans_le (List.getElem?_eq_none_iff.mp hnone)
      obtain ⟨first, other, last, hcut, hwaits, hcount⟩ := Counting.exists_of_lt_countP hbefore
      have hwhole : envs = first ++ other :: (last ++ env :: after) := by
        rw [hsplit, hcut, List.append_assoc, List.cons_append]
      have hmem := @given_mem_assign swarmInterfaces other envs first _ hwhole
        (freePool swarmInterfaces envs)
      rw [given_of_waits hwaits, hcount, idAt_of_getElem? hplace] at hmem
      exact ⟨_, hmem, ((waits_iff swarmInterfaces other).mp hwaits).1, rfl⟩

variable {joinedSwarms : List QString}

theorem InterfacesRight.reads (hunset : ∀ env ∈ envs, env.baseInterfaceId = -1)
    (h : InterfacesRight joinedSwarms swarmInterfaces (setInterfaces swarmInterfaces envs)) :
    ∀ env ∈ envs, Reads swarmInterfaces env := by
  intro env henv hhealthy swarmInterface hfound
  have hwaits : waits swarmInterfaces env = false := by
    rw [waits, hfound]
    exact Bool.and_false _
  rw [setInterfaces_eq hunset] at h
  have hmem := bindEnvironment_mem_assign
    ((List.range 30).filter fun id : Nat => !envs.any (reserves swarmInterfaces id)) henv hwaits
  rw [bindEnvironment_of_found hhealthy hfound] at hmem
  obtain ⟨n, hn⟩ := h.bound _ hmem hhealthy swarmInterface hfound
  exact ⟨n, (readsNumber_iff _ n).mpr hn⟩

theorem InterfacesRight.poolSafe (hunset : ∀ env ∈ envs, env.baseInterfaceId = -1)
    (h : InterfacesRight joinedSwarms swarmInterfaces (setInterfaces swarmInterfaces envs)) :
    PoolSafe joinedSwarms swarmInterfaces envs := by
  have hreads := h.reads hunset
  rw [setInterfaces_eq_freePool hunset hreads] at h
  refine ⟨hreads, ?_, ?_⟩
  · apply (pairwise_of_assign h.distinct).imp_of_mem
    intro a b ha hb hdistinct n hna hnb
    have hboundA := bindEnvironment_of_boundTo (hreads a ha) hna
    have hboundB := bindEnvironment_of_boundTo (hreads b hb) hnb
    apply hdistinct hboundA.1 hboundB.1 hboundA.2.1 hboundB.2.1
    · rw [hboundA.2.2]
      omega
    · rw [hboundA.2.2, hboundB.2.2]
  · intro swarmInterface hmem n hn hnumber hfree before env after hsplit hwaits hjoin hcount
    have hassigned := @given_mem_assign swarmInterfaces env envs before after hsplit
      (freePool swarmInterfaces envs)
    have hid := idAt_of_getElem? ((getElem?_freePool _ n).mpr ⟨hn, hfree, hcount.symm⟩)
    rw [given_of_waits hwaits, hid] at hassigned
    rw [waits_iff] at hwaits
    apply h.joining _ hassigned hwaits.1 hjoin hwaits.2 _ swarmInterface hmem n hnumber rfl
    dsimp only
    omega

theorem PoolSafe.interfacesRight (hunset : ∀ env ∈ envs, env.baseInterfaceId = -1)
    (h : PoolSafe joinedSwarms swarmInterfaces envs) :
    InterfacesRight joinedSwarms swarmInterfaces (setInterfaces swarmInterfaces envs) := by
  rw [setInterfaces_eq_freePool hunset h.reads]
  constructor
  · apply pairwise_assign (List.nodup_range.filter _) h.reads h.apart
    intro n hn env henv
    have hfree := (List.mem_filter.mp hn).2
    rw [free, List.all_eq_true] at hfree
    exact of_decide_eq_true (hfree env henv)
  · intro result hmem hhealthy hjoin hfound hid swarmInterface hswarm m hnumber heq
    obtain ⟨before, env, after, hsplit, rfl⟩ := mem_assign.mp hmem
    rw [healthy_given] at hhealthy
    rw [hash_given] at hjoin
    rw [foundSwarmInterface_given] at hfound
    have hwaits := (waits_iff swarmInterfaces env).mpr ⟨hhealthy, hfound⟩
    rw [given_of_waits hwaits] at hid heq
    cases idAt_cases (freePool swarmInterfaces envs) (before.countP (waits swarmInterfaces)) with
    | inl hnone => exact hid hnone.2
    | inr hsome =>
        obtain ⟨n, hn, hbase⟩ := hsome
        have hplace := (getElem?_freePool _ n).mp hn
        have hsame : n = m := Int.ofNat.inj (hbase.symm.trans heq)
        rw [hsame] at hplace
        exact h.spared swarmInterface hswarm m hplace.1 hnumber hplace.2.1 before env after hsplit
          hwaits hjoin hplace.2.2.symm
  · intro result hmem hhealthy swarmInterface hfound
    obtain ⟨before, env, after, hsplit, rfl⟩ := mem_assign.mp hmem
    rw [healthy_given] at hhealthy
    rw [foundSwarmInterface_given] at hfound
    cases given_cases (h.reads env (mem_of_split hsplit)) hhealthy (freePool swarmInterfaces envs)
      (before.countP (waits swarmInterfaces)) with
    | inl hwaits =>
        have hnone := ((waits_iff swarmInterfaces env).mp hwaits.1).2
        exact absurd (hfound.symm.trans hnone) (Option.some_ne_none swarmInterface)
    | inr hbound =>
        obtain ⟨n, hn, hbase⟩ := hbound
        exact ⟨n, (boundTo_of_found hhealthy hfound).symm.trans hn, hbase⟩
  · intro result hmem hhealthy hid n hn
    obtain ⟨before, env, after, hsplit, rfl⟩ := mem_assign.mp hmem
    rw [healthy_given] at hhealthy
    cases given_cases (h.reads env (mem_of_split hsplit)) hhealthy (freePool swarmInterfaces envs)
      (before.countP (waits swarmInterfaces)) with
    | inl hwaits =>
        rw [hwaits.2] at hid
        cases idAt_cases (freePool swarmInterfaces envs)
          (before.countP (waits swarmInterfaces)) with
        | inl hnone => exact used_of_exhausted h.reads hsplit hnone.1 hn
        | inr hsome =>
            obtain ⟨m, _, hm⟩ := hsome
            have hneg := hm.symm.trans hid
            omega
    | inr hbound =>
        obtain ⟨m, _, hbase⟩ := hbound
        have hneg := hbase.symm.trans hid
        omega

end

/-- The ids are right exactly when the ids of the bound environments can be read and are
different, and none of the environments about to join stands in the queue where an id
of some other swarm stands in the pool. -/
theorem interfacesRight_iff (joinedSwarms : List QString) (daemonRuns : Bool) (res : SystemCallRes)
    (hubEnvironments : List HubEnvironment) :
    InterfacesRight joinedSwarms (p2pShowInterfaces daemonRuns res)
        (setInterfaces (p2pShowInterfaces daemonRuns res)
          (hubEnvironments.map HubEnvironment.toCEnvironment)) ↔
      PoolSafe joinedSwarms (p2pShowInterfaces daemonRuns res)
        (hubEnvironments.map HubEnvironment.toCEnvironment) := by
  have hunset : ∀ env ∈ hubEnvironments.map HubEnvironment.toCEnvironment,
      env.baseInterfaceId = -1 := by
    intro env henv
    obtain ⟨hubEnvironment, _, rfl⟩ := List.mem_map.mp henv
    exact hubEnvironment.unset
  exact ⟨InterfacesRight.poolSafe hunset, PoolSafe.interfacesRight hunset⟩

def newcomer : HubEnvironment where
  name := "env".toList
  hash := "swarm-a".toList
  aesKey := []
  ttl := []
  id := ['1']
  hubId := 1
  status := "HEALTHY".toList
  statusDescr := []
  baseInterfaceId := -1
  lstContainers := []
  unset := rfl

/-- A swarm that the hub does not know keeps its interface, and an environment about to
join gets the same. -/
theorem not_interfacesRight_unknownSwarm :
    ¬ InterfacesRight [] (p2pShowInterfaces true ⟨.success, ["swarm-b|vptp0".toList], 0⟩)
      (setInterfaces (p2pShowInterfaces true ⟨.success, ["swarm-b|vptp0".toList], 0⟩)
        ([newcomer].map HubEnvironment.toCEnvironment)) := by
  have hshow : p2pShowInterfaces true ⟨.success, ["swarm-b|vptp0".toList], 0⟩ =
      [("swarm-b".toList, "vptp0".toList)] := by decide
  have hset : setInterfaces [("swarm-b".toList, "vptp0".toList)]
      ([newcomer].map HubEnvironment.toCEnvironment) =
        [{ newcomer.toCEnvironment with baseInterfaceId := 0 }] := by decide
  rw [hshow, hset]
  intro h
  apply h.joining _ List.mem_cons_self rfl List.not_mem_nil rfl (by decide) _ List.mem_cons_self 0
  · decide
  · rfl

end SubutaiTray.P2P
