import SubutaiTray.Ssdp.FailureLinks
import Mathlib.Data.List.Induction

/-!
Correctness of the pattern automaton.

Path strings are read off the vector by `walk`, so the statements below mention
nothing but the model's own functions. The caches may have been filled by any
earlier calls; the answers do not depend on them.
-/
namespace SubutaiTray.Ssdp

open SuffixMatching

section
variable {ps : List Pattern} {paths : List Bytes} {dma : Dma}

theorem IsTrie.prefix_mem (h : IsTrie dma paths) {s t : Bytes} (hst : s ++ t ∈ paths) :
    s ∈ paths := by
  induction t using List.reverseRecOn with
  | nil => simpa using hst
  | append_singleton t c ih =>
      rw [← List.append_assoc] at hst
      exact ih (h.prefixClosed _ c hst)

theorem IsTrie.walkFrom_iff (h : IsTrie dma paths) (s : Bytes) {v : Int} {p : Bytes}
    (hv : Denotes paths v p) (u : Int) :
    walkFrom dma s v = some u ↔ Denotes paths u (p ++ s) := by
  induction s generalizing v p with
  | nil =>
      rw [List.append_nil, walkFrom, Option.some_inj]
      constructor
      · rintro rfl
        exact hv
      · exact fun hu => h.denotes_unique hv hu
  | cons c s ih =>
      obtain ⟨i, rfl, hi⟩ := hv
      obtain ⟨x, hx⟩ := h.vertex hi
      simp only [walkFrom, vertexAt_natCast, hx, Option.bind_eq_bind, Option.bind_some]
      cases hc : x.next c with
      | some v =>
          have hv := (h.next i x p hx hi c v).mp hc
          rw [Option.bind_some, ih hv, List.append_assoc, List.singleton_append]
      | none =>
          simp only [Option.bind_none, reduceCtorEq, false_iff]
          intro hu
          have hmem : (p ++ [c]) ++ s ∈ paths := by simpa using hu.mem
          obtain ⟨v, hv⟩ := denotes_of_mem (h.prefix_mem hmem)
          rw [(h.next i x p hx hi c v).mpr hv] at hc
          exact Option.some_ne_none v hc

theorem IsTrie.walk_iff (h : IsTrie dma paths) (s : Bytes) (u : Int) :
    walk dma s = some u ↔ Denotes paths u s :=
  h.walkFrom_iff s h.denotes_zero u

theorem Automaton.isPattern_mem (h : Automaton ps paths dma) {s : Bytes}
    (hs : IsPattern ps s) : s ∈ paths := by
  obtain ⟨p, hp, rfl⟩ := hs
  exact (h.strings _).mpr (Or.inr ⟨p, hp, List.prefix_rfl⟩)

def NearestSpec (ps : List Pattern) (paths : List Bytes) (s : Bytes) (u : Int) : Prop :=
  (u = notInitialized ∧ ∀ t, IsPattern ps t → t <:+ s → t = s) ∨ NearestTo ps paths s u

/-- The chain of links gets shorter at every turn, so one turn for each letter is
enough. -/
theorem nearestLoop_spec (nonempty : ¬ IsPattern ps []) (fuel : Nat) {dma : Dma} {i : Nat}
    {s : Bytes} (h : Automaton ps paths dma) (hi : paths[i]? = some s)
    (hpos : 0 < fuel) (hlen : s.length ≤ fuel) :
    ∃ u dma', nearestLoop fuel i dma = some (u, dma') ∧ Automaton ps paths dma' ∧
      NearestSpec ps paths s u := by
  induction fuel generalizing dma i s with
  | zero => omega
  | succ fuel ih =>
      obtain ⟨l, dma₁, hrun, h₁, hl⟩ := h.getLink hi
      simp only [nearestLoop, hrun, Option.bind_eq_bind, Option.bind_some]
      rcases hl with ⟨rfl, rfl⟩ | ⟨t, hdenotes, hlong⟩
      · exact ⟨notInitialized, dma₁, rfl, h₁,
          Or.inl ⟨rfl, fun t _ ht => List.suffix_nil.mp ht⟩⟩
      · have sub : ∀ v, IsPattern ps v → v ∈ paths := fun v hv => h.isPattern_mem hv
        by_cases hzero : l = 0
        · obtain rfl : t = [] := (h.trie.eq_zero_iff hdenotes).mp hzero
          rw [if_pos hzero]
          refine ⟨notInitialized, dma₁, rfl, h₁, Or.inl ⟨rfl, ?_⟩⟩
          intro v hv hvs
          by_contra hne
          have := List.suffix_nil.mp (hlong.below sub hv hvs hne)
          exact nonempty (this ▸ hv)
        · have ht : t ≠ [] := fun ht => hzero ((h.trie.eq_zero_iff hdenotes).mpr ht)
          have htpos : 0 < t.length := List.length_pos_iff.mpr ht
          have hlt := hlong.length_lt
          obtain ⟨j, rfl, hj⟩ := hdenotes
          obtain ⟨x, hx, hright⟩ := h₁.vertex hj
          rw [if_neg hzero, vertexAt_natCast, hx, Option.bind_some]
          by_cases hleaf : x.leaf = true
          · have hpat : IsPattern ps t := (mark_leaf_iff ps t).mp (hright.leaf ▸ hleaf)
            rw [if_pos hleaf]
            exact ⟨j, dma₁, rfl, h₁, Or.inr ⟨t, ⟨j, rfl, hj⟩, hlong.narrow sub hpat⟩⟩
          · have reject : ¬ IsPattern ps t := fun hpat =>
              hleaf (hright.leaf.trans ((mark_leaf_iff ps t).mpr hpat))
            rw [if_neg hleaf]
            obtain ⟨u, dma₂, hrun₂, h₂, hspec⟩ := ih h₁ hj (by omega) (by omega)
            refine ⟨u, dma₂, hrun₂, h₂, ?_⟩
            rcases hspec with ⟨rfl, hnone⟩ | ⟨v, hv, hvlong⟩
            · refine Or.inl ⟨rfl, ?_⟩
              intro v hv hvs
              by_contra hne
              have hvt := hnone v hv (hlong.below sub hv hvs hne)
              exact reject (hvt ▸ hv)
            · exact Or.inr ⟨v, hv, hlong.skip sub reject hvlong⟩

theorem Automaton.nearest (h : Automaton ps paths dma) (nonempty : ¬ IsPattern ps [])
    {i : Nat} {s : Bytes} (hi : paths[i]? = some s) :
    ∃ u dma', Ssdp.nearest i dma = some (u, dma') ∧ Automaton ps paths dma' ∧
      NearestSpec ps paths s u := by
  obtain ⟨x, hx, hright⟩ := h.vertex hi
  simp only [Ssdp.nearest, vertexAt_natCast, hx, Option.bind_eq_bind, Option.bind_some]
  by_cases hnl : x.nl = notInitialized
  · rw [if_neg (not_not.mpr hnl)]
    have hlen := h.length_lt hi
    obtain ⟨u, dma₁, hrun, h₁, hspec⟩ :=
      nearestLoop_spec nonempty dma.length h hi (by omega) (by omega)
    rw [hrun, Option.bind_some]
    by_cases hu : u = notInitialized
    · subst hu
      exact ⟨x.nl, dma₁, by simp, h₁, hnl ▸ hspec⟩
    · have hto : NearestTo ps paths s u := hspec.resolve_left (fun hs => hu hs.1)
      exact ⟨u, _, by simp [hu], h₁.setNl hi hto, hspec⟩
  · rw [if_pos hnl]
    exact ⟨x.nl, dma, rfl, h, Or.inr (hright.nl hnl)⟩

theorem Automaton.goFold (h : Automaton ps paths dma) (w : Bytes) {i : Nat} {p s : Bytes}
    (hi : paths[i]? = some s) (hs : LongestSuffix (· ∈ paths) s p) :
    ∃ u dma' t, Ssdp.goFold w i dma = some (u, dma') ∧ Automaton ps paths dma' ∧
      Denotes paths u t ∧ LongestSuffix (· ∈ paths) t (p ++ w) := by
  induction w generalizing dma i p s with
  | nil => exact ⟨i, dma, s, rfl, h, ⟨i, rfl, hi⟩, by simpa using hs⟩
  | cons c w ih =>
      obtain ⟨u, dma₁, hrun, h₁, t, ⟨j, rfl, hj⟩, ht⟩ := h.go hi c
      obtain ⟨v, dma₂, t', hrun₂, h₂, hv, ht'⟩ := ih h₁ hj (hs.concat h.trie.prefixClosed ht)
      refine ⟨v, dma₂, t', ?_, h₂, hv, by simpa using ht'⟩
      simp [Ssdp.goFold, hrun, hrun₂]

theorem Automaton.call (h : Automaton ps paths dma) (nonempty : ¬ IsPattern ps [])
    (call : Call) (valid : 0 ≤ call.vertex ∧ call.vertex < dma.length) :
    ∃ dma', call.run dma = some dma' ∧ Automaton ps paths dma' := by
  obtain ⟨i, hv⟩ := Int.eq_ofNat_of_zero_le valid.1
  obtain ⟨s, hi⟩ := h.trie.path (i := i) (by have := valid.2; omega)
  cases call with
  | go v c =>
      obtain rfl : v = i := hv
      obtain ⟨u, dma', hrun, h', -⟩ := h.go hi c
      exact ⟨dma', by simp [Call.run, hrun], h'⟩
  | getLink v =>
      obtain rfl : v = i := hv
      obtain ⟨u, dma', hrun, h', -⟩ := h.getLink hi
      exact ⟨dma', by simp [Call.run, hrun], h'⟩
  | nearest v =>
      obtain rfl : v = i := hv
      obtain ⟨u, dma', hrun, h', -⟩ := h.nearest nonempty hi
      exact ⟨dma', by simp [Call.run, hrun], h'⟩

end

def runCalls (calls : List Call) (dma : Dma) : Option Dma :=
  calls.foldlM (fun dma call => call.run dma) dma

theorem Automaton.runCalls {ps : List Pattern} {paths : List Bytes} {dma : Dma}
    (h : Automaton ps paths dma) (nonempty : ¬ IsPattern ps []) (calls : List Call)
    (valid : ∀ call ∈ calls, 0 ≤ call.vertex ∧ call.vertex < dma.length) :
    ∃ dma', Ssdp.runCalls calls dma = some dma' ∧ Automaton ps paths dma' := by
  induction calls generalizing dma with
  | nil => exact ⟨dma, rfl, h⟩
  | cons call calls ih =>
      obtain ⟨dma₁, hrun, h₁⟩ := h.call nonempty call (valid call List.mem_cons_self)
      have hlen : dma₁.length = dma.length := h₁.length_eq.symm.trans h.length_eq
      obtain ⟨dma₂, hrun₂, h₂⟩ := ih h₁ (fun c hc => by
        rw [hlen]
        exact valid c (List.mem_cons_of_mem _ hc))
      refine ⟨dma₂, ?_, h₂⟩
      rw [Ssdp.runCalls, List.foldlM_cons, hrun]
      exact hrun₂

/-- The automaton answers as an Aho-Corasick automaton for `ps`. The root has no
proper suffix; its link is the root itself. -/
structure AhoCorasick (ps : List Pattern) (dma : Dma) : Prop where
  path : ∀ v : Nat, v < dma.length → ∃! s, walk dma s = some (v : Int)
  go : ∀ w, ∃ v dma' s, goFold w 0 dma = some (v, dma') ∧ walk dma s = some v ∧
    LongestSuffix (PatternPrefix ps) s w
  link : ∀ s v, walk dma s = some v → ∃ u dma', getLink v dma = some (u, dma') ∧
    (s = [] → u = 0) ∧
    (s ≠ [] → ∃ t, walk dma t = some u ∧ LongestProperSuffix (PatternPrefix ps) t s)
  nearest : ∀ s v, walk dma s = some v → ∃ u dma', nearest v dma = some (u, dma') ∧
    (u = notInitialized ↔ ¬ ∃ t, IsPattern ps t ∧ t <:+ s ∧ t ≠ s) ∧
    (u ≠ notInitialized → ∃ t x, walk dma t = some u ∧ vertexAt dma u = some x ∧
      x.leaf = true ∧ LongestProperSuffix (IsPattern ps) t s)

theorem Automaton.ahoCorasick {ps : List Pattern} {paths : List Bytes} {dma : Dma}
    (h : Automaton ps paths dma) (nonempty : ¬ IsPattern ps []) : AhoCorasick ps dma := by
  have mem_eq : (fun s => s ∈ paths) = PatternPrefix ps := by
    funext s
    exact propext (h.strings s)
  refine ⟨?_, ?_, ?_, ?_⟩
  · intro v hv
    obtain ⟨s, hs⟩ := h.trie.path hv
    refine ⟨s, (h.trie.walk_iff s v).mpr ⟨v, rfl, hs⟩, ?_⟩
    intro t ht
    exact ((h.trie.walk_iff t v).mp ht).string_unique ⟨v, rfl, hs⟩
  · intro w
    obtain ⟨u, dma', t, hrun, -, hu, ht⟩ :=
      h.goFold w h.trie.root (.nil h.trie.denotes_zero.mem)
    exact ⟨u, dma', t, hrun, (h.trie.walk_iff t u).mpr hu, mem_eq ▸ ht⟩
  · intro s v hv
    obtain ⟨i, rfl, hi⟩ := (h.trie.walk_iff s v).mp hv
    obtain ⟨u, dma', hrun, -, hl⟩ := h.getLink hi
    refine ⟨u, dma', hrun, ?_, ?_⟩
    · rintro rfl
      rcases hl with hl | ⟨t, -, ht⟩
      · exact hl.2
      · exact absurd (List.suffix_nil.mp ht.suffix) ht.proper
    · intro hs
      obtain ⟨t, hu, ht⟩ := hl.resolve_left (fun hl => hs hl.1)
      exact ⟨t, (h.trie.walk_iff t u).mpr hu, mem_eq ▸ ht⟩
  · intro s v hv
    obtain ⟨i, rfl, hi⟩ := (h.trie.walk_iff s v).mp hv
    obtain ⟨u, dma', hrun, -, hspec⟩ := h.nearest nonempty hi
    refine ⟨u, dma', hrun, ?_⟩
    rcases hspec with ⟨rfl, hnone⟩ | ⟨t, ⟨j, rfl, hj⟩, ht⟩
    · refine ⟨⟨fun _ => ?_, fun _ => rfl⟩, fun hne => absurd rfl hne⟩
      rintro ⟨t, ht, hts, hne⟩
      exact hne (hnone t ht hts)
    · have hne : (j : Int) ≠ notInitialized := by
        simp only [notInitialized]
        omega
      refine ⟨⟨fun hu => absurd hu hne, fun hno => ?_⟩, fun _ => ?_⟩
      · exact absurd ⟨t, ht.holds, ht.suffix, ht.proper⟩ hno
      · obtain ⟨x, hx, hright⟩ := h.vertex hj
        exact ⟨t, x, (h.trie.walk_iff t j).mpr ⟨j, rfl, hj⟩, by simpa using hx,
          hright.leaf.trans ((mark_leaf_iff ps t).mpr ht.holds), ht⟩

/-- For non-empty patterns the automaton can be built, every sequence of calls on
its vertices returns, and after any such sequence it still answers correctly. -/
theorem ahoCorasick_of_build (ps : List Pattern) (nonempty : ∀ p ∈ ps, p.str ≠ []) :
    ∃ dma₀, build ps = some dma₀ ∧
      ∀ calls : List Call, (∀ call ∈ calls, 0 ≤ call.vertex ∧ call.vertex < dma₀.length) →
        ∃ dma, runCalls calls dma₀ = some dma ∧ AhoCorasick ps dma := by
  have hne : ¬ IsPattern ps [] := by
    rintro ⟨p, hp, hs⟩
    exact nonempty p hp hs
  obtain ⟨dma₀, paths, hbuild, h⟩ := built_build ps
  refine ⟨dma₀, hbuild, ?_⟩
  intro calls valid
  obtain ⟨dma, hrun, hauto⟩ := h.automaton.runCalls hne calls valid
  exact ⟨dma, hrun, hauto.ahoCorasick hne⟩

theorem ahoCorasick_of_build_nested :
    ∃ dma₀, build [⟨[104, 101], 0, .ifeNt⟩, ⟨[115, 104, 101], 1, .ifeSt⟩,
        ⟨[104, 101, 114, 115], 2, .ifeUsn⟩] = some dma₀ ∧
      ∃ dma, runCalls [.nearest 5, .go 5 114, .getLink 7] dma₀ = some dma ∧
        AhoCorasick [⟨[104, 101], 0, .ifeNt⟩, ⟨[115, 104, 101], 1, .ifeSt⟩,
          ⟨[104, 101, 114, 115], 2, .ifeUsn⟩] dma := by
  obtain ⟨dma₀, hbuild, hcalls⟩ := ahoCorasick_of_build
    [⟨[104, 101], 0, .ifeNt⟩, ⟨[115, 104, 101], 1, .ifeSt⟩, ⟨[104, 101, 114, 115], 2, .ifeUsn⟩]
    (by decide)
  have hlen : (build [⟨[104, 101], 0, .ifeNt⟩, ⟨[115, 104, 101], 1, .ifeSt⟩,
      ⟨[104, 101, 114, 115], 2, .ifeUsn⟩]).map List.length = some 8 := by decide
  rw [hbuild, Option.map_some, Option.some_inj] at hlen
  refine ⟨dma₀, hbuild, hcalls _ ?_⟩
  rw [hlen]
  decide

end SubutaiTray.Ssdp
