import SubutaiTray.P2P.Interfaces

/-!
Who is in a swarm (`CSystemCallWrapper::is_in_swarm` and `p2p_show`, and the callers
`join_to_p2p_swarm` and `leave_p2p_swarm`).

Both read the output of `p2p show`: one searches its lines for the hash, the other takes the
rest of each line from the first `swarm` on. A swarm that the second lists is left with a
`p2p stop` (`leaveP2pSwarm_of_listed`).
-/
namespace SubutaiTray.P2P

/-- `QString::indexOf` -/
def indexOf (pattern : QString) : QString → Option Nat
  | [] => if pattern = [] then some 0 else none
  | c :: s => if pattern <+: c :: s then some 0 else (indexOf pattern s).map (· + 1)

/-- The guard of both functions. -/
def accepted (res : SystemCallRes) : Bool := res.res = .success || res.exitCode = 1

def isInSwarm (res : SystemCallRes) (hash : QString) : Bool :=
  if !accepted res then false else res.out.any fun line => (indexOf hash line).isSome

def listedSwarm (line : QString) : Option QString :=
  (indexOf "swarm".toList line).map fun i => line.drop i

def p2pShow (daemonRuns : Bool) (res : SystemCallRes) : List QString :=
  if !daemonRuns then []
  else if !accepted res then []
  else res.out.filterMap listedSwarm

/-! ## Joining and leaving -/

/-- A command of p2p that is to be run. -/
structure StartSettings where
  baseInterfaceName : QString
  key : QString
  ip : QString
  swarmBaseInterfaceId : Int

def StartSettings.args (settings : StartSettings) (hash : QString) : List QString :=
  ["start".toList, "-ip".toList, settings.ip, "-key".toList, settings.key, "-hash".toList, hash] ++
    if settings.swarmBaseInterfaceId ≠ -1 then
      ["-dev".toList, settings.baseInterfaceName ++ number settings.swarmBaseInterfaceId]
    else []

/-- How the command ends. -/
structure StartRes where
  res : SystemCallWrapperError
  exitCode : Int
  out : List QString

/-- The arguments with which p2p was started, and what is reported. -/
structure JoinRes where
  started : Option (List QString)
  res : SystemCallWrapperError
  deriving DecidableEq

def StartRes.reported (startRes : StartRes) : SystemCallWrapperError :=
  if startRes.exitCode ≠ 0 then .createProcess
  else
    match startRes.out with
    | [line] => if "[ERROR]".toList <:+: line then .cantJoinSwarm else startRes.res
    | _ => startRes.res

def joinToP2pSwarm (res : SystemCallRes) (launchable : Bool) (settings : StartSettings)
    (hash : QString) (startRes : StartRes) : JoinRes :=
  if isInSwarm res hash then ⟨none, .success⟩
  else if !launchable then ⟨none, .p2pIsNotRunnable⟩
  else ⟨some (settings.args hash), startRes.reported⟩

/-- An empty hash compares equal to a null pointer. -/
def leaveP2pSwarm (res : SystemCallRes) (hash : QString) (stopRes : SystemCallWrapperError) :
    JoinRes :=
  if hash = [] ∨ isInSwarm res hash = false then ⟨none, .success⟩
  else ⟨some ["stop".toList, "-hash".toList, hash], stopRes⟩

/-! ## Agreement -/

/-- A swarm that joins without a start is listed, and membership is being listed. -/
structure SwarmsAgree (daemonRuns : Bool) (res : SystemCallRes) (hash : QString) : Prop where
  member : isInSwarm res hash = true ↔ hash ∈ p2pShow daemonRuns res
  joined : ∀ (launchable : Bool) (settings : StartSettings) (startRes : StartRes),
    joinToP2pSwarm res launchable settings hash startRes = ⟨none, .success⟩ →
      hash ∈ p2pShow daemonRuns res

/-- The line ends with the hash, and the first `swarm` of the line begins it. -/
def Lists (hash line : QString) : Prop :=
  ∃ before, line = before ++ hash ∧ "swarm".toList <+: hash ∧ ¬ "swarm".toList <:+: before

theorem indexOf_isSome_iff (pattern s : QString) :
    (indexOf pattern s).isSome = true ↔ pattern <:+: s := by
  induction s with
  | nil =>
      by_cases h : pattern = [] <;> simp [indexOf, h]
  | cons c s ih =>
      rw [indexOf, List.infix_cons_iff]
      split
      · rename_i hbegins
        simp [hbegins]
      · rename_i hbegins
        simp [hbegins, ih]

theorem indexOf_append_self (pattern rest : QString) : indexOf pattern (pattern ++ rest) = some 0 := by
  cases h : pattern ++ rest with
  | nil => rw [indexOf, if_pos (List.append_eq_nil_iff.mp h).1]
  | cons c s => rw [indexOf, if_pos ⟨rest, h⟩]

/-- What a text has is found before its end. -/
theorem indexOf_append_of_infix {pattern s : QString} (h : pattern <:+: s) (rest : QString) :
    ∃ i, indexOf pattern (s ++ rest) = some i ∧ i + pattern.length ≤ s.length := by
  induction s with
  | nil =>
      rw [List.infix_nil.mp h]
      exact ⟨0, indexOf_append_self [] _, Nat.le_refl _⟩
  | cons c s ih =>
      by_cases hbegins : pattern <+: c :: s
      · refine ⟨0, ?_, ?_⟩
        · obtain ⟨after, hafter⟩ := hbegins
          rw [← hafter, List.append_assoc]
          exact indexOf_append_self pattern _
        · rw [Nat.zero_add]
          exact hbegins.length_le
      · obtain ⟨i, hi, hle⟩ := ih ((List.infix_cons_iff.mp h).resolve_left hbegins)
        rw [List.cons_append, indexOf]
        split
        · refine ⟨0, rfl, ?_⟩
          rw [List.length_cons]
          omega
        · refine ⟨i + 1, ?_, ?_⟩
          · rw [hi, Option.map_some]
          · rw [List.length_cons]
            omega

/-- Two swarms do not overlap, so what stands before the hash does not reach into it. -/
theorem prefix_append_swarm {before hash : QString} (hne : before ≠ [])
    (hhash : "swarm".toList <+: hash) (h : "swarm".toList <+: before ++ hash) :
    "swarm".toList <+: before := by
  obtain hle | hle := List.prefix_or_prefix_of_prefix h (List.prefix_append before hash)
  · exact hle
  · obtain ⟨w, hw⟩ := hle
    cases w with
    | nil => exact ⟨[], by simpa using hw.symm⟩
    | cons c w =>
        -- The hash would begin within `warm`.
        obtain ⟨d, before, rfl⟩ := List.exists_cons_of_ne_nil hne
        obtain ⟨u, hu⟩ := h
        obtain ⟨v, hv⟩ := hhash
        rw [← hw, List.append_assoc, List.append_cancel_left_eq] at hu
        have hs : c = 's' := by
          rw [← hv] at hu
          exact (List.cons.inj hu).1
        have hmem : c ∈ "warm".toList := by
          have htail : before ++ c :: w = "warm".toList := (List.cons.inj hw).2
          rw [← htail]
          exact List.mem_append_right _ List.mem_cons_self
        rw [hs] at hmem
        exact absurd hmem (by decide)

theorem listedSwarm_cons (c : Char) (s : QString) :
    listedSwarm (c :: s) =
      if "swarm".toList <+: c :: s then some (c :: s) else listedSwarm s := by
  rw [listedSwarm, indexOf]
  split
  · rfl
  · rw [listedSwarm, Option.map_map]
    rfl

theorem listedSwarm_eq_some_iff (line hash : QString) :
    listedSwarm line = some hash ↔ Lists hash line := by
  induction line with
  | nil =>
      apply iff_of_false
      · exact fun h => absurd h.symm (Option.some_ne_none hash)
      · rintro ⟨before, hline, hhash, -⟩
        rw [(List.append_eq_nil_iff.mp hline.symm).2] at hhash
        exact absurd (List.prefix_nil.mp hhash) (by decide)
  | cons c s ih =>
      rw [listedSwarm_cons]
      split
      · rename_i hbegins
        constructor
        · intro h
          rw [← Option.some.inj h]
          exact ⟨[], rfl, hbegins, by simp⟩
        · rintro ⟨before, hline, hhash, hbefore⟩
          cases before with
          | nil => rw [hline, List.nil_append]
          | cons d before =>
              rw [hline] at hbegins
              have hd := prefix_append_swarm (List.cons_ne_nil d before) hhash hbegins
              exact absurd hd.isInfix hbefore
      · rename_i hbegins
        rw [ih]
        constructor
        · rintro ⟨before, rfl, hhash, hbefore⟩
          refine ⟨c :: before, rfl, hhash, ?_⟩
          rw [List.infix_cons_iff, not_or]
          exact ⟨fun h => hbegins (h.trans (List.prefix_append (c :: before) hash)), hbefore⟩
        · rintro ⟨before, hline, hhash, hbefore⟩
          cases before with
          | nil =>
              rw [hline] at hbegins
              exact absurd hhash hbegins
          | cons d before =>
              rw [List.infix_cons_iff, not_or] at hbefore
              exact ⟨before, (List.cons.inj hline).2, hhash, hbefore.2⟩

theorem isInSwarm_iff (res : SystemCallRes) (hash : QString) :
    isInSwarm res hash = true ↔ accepted res = true ∧ ∃ line ∈ res.out, hash <:+: line := by
  cases h : accepted res <;> simp [isInSwarm, h, indexOf_isSome_iff]

theorem mem_p2pShow_iff (daemonRuns : Bool) (res : SystemCallRes) (hash : QString) :
    hash ∈ p2pShow daemonRuns res ↔
      daemonRuns = true ∧ accepted res = true ∧ ∃ line ∈ res.out, Lists hash line := by
  cases daemonRuns <;> cases h : accepted res <;> simp [p2pShow, h, listedSwarm_eq_some_iff]

/-- Who is listed is in the swarm. -/
theorem isInSwarm_of_mem_p2pShow {daemonRuns : Bool} {res : SystemCallRes} {hash : QString}
    (h : hash ∈ p2pShow daemonRuns res) : isInSwarm res hash = true := by
  rw [mem_p2pShow_iff] at h
  obtain ⟨-, haccepted, line, hmem, before, hline, -⟩ := h
  rw [isInSwarm_iff]
  refine ⟨haccepted, line, hmem, ?_⟩
  rw [hline]
  exact (List.suffix_append before hash).isInfix

/-- A listed swarm is not left without a stop. -/
theorem leaveP2pSwarm_of_listed {daemonRuns : Bool} {res : SystemCallRes} {hash : QString}
    (h : hash ∈ p2pShow daemonRuns res) (stopRes : SystemCallWrapperError) :
    leaveP2pSwarm res hash stopRes = ⟨some ["stop".toList, "-hash".toList, hash], stopRes⟩ := by
  have hin := isInSwarm_of_mem_p2pShow h
  have hne : hash ≠ [] := by
    obtain ⟨-, -, _, -, _, -, hhash, -⟩ := (mem_p2pShow_iff daemonRuns res hash).mp h
    rintro rfl
    exact absurd (List.prefix_nil.mp hhash) (by decide)
  simp [leaveP2pSwarm, hin, hne]

theorem joinToP2pSwarm_without_start (res : SystemCallRes) (launchable : Bool)
    (settings : StartSettings) (hash : QString) (startRes : StartRes) :
    joinToP2pSwarm res launchable settings hash startRes = ⟨none, .success⟩ ↔
      isInSwarm res hash = true := by
  cases h : isInSwarm res hash <;> cases launchable <;> simp [joinToP2pSwarm, h]

/-- Membership and the list agree about a hash exactly when it is in none of the lines that
are read, or the daemon runs and one of them lists it. -/
theorem swarmsAgree_iff (daemonRuns : Bool) (res : SystemCallRes) (hash : QString) :
    SwarmsAgree daemonRuns res hash ↔
      accepted res = true → (∃ line ∈ res.out, hash <:+: line) →
        daemonRuns = true ∧ ∃ line ∈ res.out, Lists hash line := by
  constructor
  · intro h haccepted hin
    have hmem := h.member.mp ((isInSwarm_iff res hash).mpr ⟨haccepted, hin⟩)
    rw [mem_p2pShow_iff] at hmem
    exact ⟨hmem.1, hmem.2.2⟩
  · intro h
    have hmember : isInSwarm res hash = true → hash ∈ p2pShow daemonRuns res := by
      intro hin
      obtain ⟨haccepted, hline⟩ := (isInSwarm_iff res hash).mp hin
      obtain ⟨hdaemon, hlists⟩ := h haccepted hline
      exact (mem_p2pShow_iff daemonRuns res hash).mpr ⟨hdaemon, haccepted, hlists⟩
    refine ⟨⟨hmember, isInSwarm_of_mem_p2pShow⟩, ?_⟩
    intro launchable settings startRes hjoin
    rw [joinToP2pSwarm_without_start] at hjoin
    exact hmember hjoin

/-- The hash is the beginning of another one that is joined. -/
theorem not_swarmsAgree_beginning :
    ¬ SwarmsAgree true ⟨.success, ["10.1.1.1 swarm-abc".toList], 0⟩ "swarm-ab".toList := by
  intro h
  exact absurd (h.member.mp (by decide)) (by decide)

end SubutaiTray.P2P
