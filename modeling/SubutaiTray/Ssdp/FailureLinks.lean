import SubutaiTray.Library.SuffixMatching
import SubutaiTray.Ssdp.Trie

/-!
The three caches of the automaton.

`go`, `get_link` and `nearest` write what they compute into the vertices they
pass. Whatever has been written so far is right: this one invariant on cache
entries, read together with the rules for longest suffixes, carries all three
functions. The recursion is measured by the length of the vertex string.
-/
namespace SubutaiTray.Ssdp

open SuffixMatching

def IsPattern (ps : List Pattern) (s : Bytes) : Prop :=
  ∃ p ∈ ps, p.str = s

def LinkTo (paths : List Bytes) (s : Bytes) (u : Int) : Prop :=
  (s = [] ∧ u = 0) ∨ ∃ t, Denotes paths u t ∧ LongestProperSuffix (· ∈ paths) t s

/-- What `go` has to return for the vertex of `s` and the letter `c`. -/
def GoesTo (paths : List Bytes) (s : Bytes) (c : Int8) (u : Int) : Prop :=
  ∃ t, Denotes paths u t ∧ LongestSuffix (· ∈ paths) t (s ++ [c])

/-- What `nearest` may remember for the vertex of `s`. -/
def NearestTo (ps : List Pattern) (paths : List Bytes) (s : Bytes) (u : Int) : Prop :=
  ∃ t, Denotes paths u t ∧ LongestProperSuffix (IsPattern ps) t s

/-- The vertex of `s` has the marks of its pattern and right cache entries. -/
structure VertexRight (ps : List Pattern) (paths : List Bytes) (s : Bytes) (x : Vertex) :
    Prop where
  leaf : x.leaf = (mark ps s).leaf
  ife : x.ife = (mark ps s).ife
  link : x.link ≠ notInitialized → LinkTo paths s x.link
  go : ∀ c u, x.go c = some u → GoesTo paths s c u
  nl : x.nl ≠ notInitialized → NearestTo ps paths s x.nl

structure Automaton (ps : List Pattern) (paths : List Bytes) (dma : Dma) : Prop where
  trie : IsTrie dma paths
  strings : ∀ s, s ∈ paths ↔ PatternPrefix ps s
  right : ∀ (i : Nat) (x : Vertex) (s : Bytes),
    dma[i]? = some x → paths[i]? = some s → VertexRight ps paths s x

theorem mark_leaf_iff (ps : List Pattern) (s : Bytes) :
    (mark ps s).leaf = true ↔ IsPattern ps s := by
  cases h : ps.reverse.find? (fun p => p.str = s) with
  | none =>
      have absent : ¬ IsPattern ps s := by
        rintro ⟨p, hp, hs⟩
        have := List.find?_eq_none.mp h p (List.mem_reverse.mpr hp)
        simp [hs] at this
      simp [mark, h, absent]
  | some p =>
      have hp : p ∈ ps := List.mem_reverse.mp (List.mem_of_find?_eq_some h)
      have hs : p.str = s := by simpa using List.find?_some h
      simp only [mark, h, Vertex.setLeaf, true_iff]
      exact ⟨p, hp, hs⟩

theorem mark_ife {ps : List Pattern} {s : Bytes} (h : IsPattern ps s) :
    ∃ p ∈ ps, p.str = s ∧ (mark ps s).ife = p.ife := by
  cases hf : ps.reverse.find? (fun p => p.str = s) with
  | none =>
      have := (mark_leaf_iff ps s).mpr h
      simp [mark, hf] at this
  | some p =>
      refine ⟨p, List.mem_reverse.mp (List.mem_of_find?_eq_some hf), ?_, ?_⟩
      · simpa using List.find?_some hf
      · simp [mark, hf, Vertex.setLeaf]

theorem mark_caches (ps : List Pattern) (s : Bytes) :
    (mark ps s).link = (if s = [] then 0 else notInitialized) ∧
      (mark ps s).nl = notInitialized ∧ (mark ps s).go = fun _ => none := by
  cases h : ps.reverse.find? (fun p => p.str = s) <;> simp [mark, h, Vertex.setLeaf]

/-- Nothing but the root's link is cached before the first query. -/
theorem Built.automaton {ps : List Pattern} {dma : Dma} {paths : List Bytes}
    (h : Built ps dma paths) : Automaton ps paths dma := by
  refine ⟨h.trie, h.strings, ?_⟩
  intro i x s hx hs
  have hlabel := h.labels i x s hx hs
  obtain ⟨hlink, hnl, hgo⟩ := mark_caches ps s
  have hleaf : x.label.leaf = (mark ps s).leaf := congrArg Vertex.leaf hlabel
  have hife : x.label.ife = (mark ps s).ife := congrArg Vertex.ife hlabel
  refine ⟨hleaf, hife, ?_, ?_, ?_⟩
  · intro hne
    have hx' : x.link = if s = [] then 0 else notInitialized :=
      (congrArg Vertex.link hlabel).trans hlink
    by_cases hs' : s = []
    · exact Or.inl ⟨hs', by simpa [hs'] using hx'⟩
    · simp only [hs', if_false] at hx'
      exact absurd hx' hne
  · intro c u hc
    have hx' : x.go = fun _ => none := (congrArg Vertex.go hlabel).trans hgo
    rw [hx'] at hc
    exact absurd hc (Option.some_ne_none u).symm
  · intro hne
    have hx' : x.nl = notInitialized := (congrArg Vertex.nl hlabel).trans hnl
    exact absurd hx' hne

section
variable {ps : List Pattern} {paths : List Bytes} {dma : Dma} {i : Nat} {s : Bytes}

theorem Automaton.vertex (h : Automaton ps paths dma) (hi : paths[i]? = some s) :
    ∃ x, dma[i]? = some x ∧ VertexRight ps paths s x := by
  obtain ⟨x, hx⟩ := h.trie.vertex hi
  exact ⟨x, hx, h.right i x s hx hi⟩

theorem Automaton.length_eq (h : Automaton ps paths dma) : paths.length = dma.length :=
  h.trie.length_eq

theorem Automaton.cache (h : Automaton ps paths dma) (hi : paths[i]? = some s)
    {f : Vertex → Vertex}
    (keep : ∀ x, (f x).next = x.next ∧ (f x).parent = x.parent ∧ (f x).pCh = x.pCh)
    (right : ∀ x, VertexRight ps paths s x → VertexRight ps paths s (f x)) :
    Automaton ps paths (modifyVertex dma i f) := by
  refine ⟨h.trie.of_modify i keep, h.strings, ?_⟩
  intro k x t hx ht
  rw [getElem?_modifyVertex] at hx
  obtain ⟨y, hy, rfl⟩ := Option.map_eq_some_iff.mp hx
  have hright := h.right k y t hy ht
  by_cases hik : i = k
  · subst hik
    obtain rfl : t = s := Option.some.inj (ht.symm.trans hi)
    simpa using right y hright
  · simpa [hik] using hright

theorem Automaton.setGo (h : Automaton ps paths dma) (hi : paths[i]? = some s) {c : Int8}
    {u : Int} (hu : GoesTo paths s c u) :
    Automaton ps paths (modifyVertex dma i (Vertex.setGo c u)) := by
  refine h.cache hi (fun x => ⟨rfl, rfl, rfl⟩) (fun x hx => ⟨hx.leaf, hx.ife, hx.link, ?_, hx.nl⟩)
  intro c' u' hc'
  by_cases hc : c' = c
  · subst hc
    have : u' = u := by simpa [Vertex.setGo] using hc'.symm
    rwa [this]
  · exact hx.go c' u' (by simpa [Vertex.setGo, hc] using hc')

theorem Automaton.setLink (h : Automaton ps paths dma) (hi : paths[i]? = some s) {u : Int}
    (hu : LinkTo paths s u) : Automaton ps paths (modifyVertex dma i (Vertex.setLink u)) :=
  h.cache hi (fun _ => ⟨rfl, rfl, rfl⟩)
    (fun _ hx => ⟨hx.leaf, hx.ife, fun _ => hu, hx.go, hx.nl⟩)

theorem Automaton.setNl (h : Automaton ps paths dma) (hi : paths[i]? = some s) {u : Int}
    (hu : NearestTo ps paths s u) : Automaton ps paths (modifyVertex dma i (Vertex.setNl u)) :=
  h.cache hi (fun _ => ⟨rfl, rfl, rfl⟩)
    (fun _ hx => ⟨hx.leaf, hx.ife, hx.link, hx.go, fun _ => hu⟩)

end

section
variable {ps : List Pattern} {paths : List Bytes}

def GetLinkSpec (ps : List Pattern) (paths : List Bytes) (n : Nat) : Prop :=
  ∀ (fuel : Nat) (dma : Dma) (i : Nat) (s : Bytes), Automaton ps paths dma →
    paths[i]? = some s → s.length ≤ n → 2 * n + 1 ≤ fuel →
    ∃ u dma', getLinkFuel fuel i dma = some (u, dma') ∧ Automaton ps paths dma' ∧
      LinkTo paths s u

def GoSpec (ps : List Pattern) (paths : List Bytes) (n : Nat) : Prop :=
  ∀ (fuel : Nat) (dma : Dma) (i : Nat) (s : Bytes) (c : Int8), Automaton ps paths dma →
    paths[i]? = some s → s.length ≤ n → 2 * n + 2 ≤ fuel →
    ∃ u dma', goFuel fuel i c dma = some (u, dma') ∧ Automaton ps paths dma' ∧
      GoesTo paths s c u

theorem getLinkSpec_of_shorter {n : Nat}
    (shorter : ∀ m, m < n → GetLinkSpec ps paths m ∧ GoSpec ps paths m) :
    GetLinkSpec ps paths n := by
  intro fuel dma i s h hi hn hfuel
  obtain ⟨fuel, rfl⟩ : ∃ k, fuel = k + 1 := ⟨fuel - 1, by omega⟩
  obtain ⟨x, hx, hright⟩ := h.vertex hi
  simp only [getLinkFuel, vertexAt_natCast, hx, Option.bind_eq_bind, Option.bind_some]
  by_cases hlink : x.link = notInitialized
  · rw [if_pos hlink]
    rcases List.eq_nil_or_concat s with rfl | ⟨s', c, rfl⟩
    · have hzero : (i : Int) = 0 := (h.trie.eq_zero_iff ⟨i, rfl, hi⟩).mpr rfl
      rw [if_pos (Or.inl hzero)]
      exact ⟨_, _, rfl, h.setLink hi (Or.inl ⟨rfl, rfl⟩), Or.inl ⟨rfl, rfl⟩⟩
    · rw [List.concat_eq_append] at hi hright hn ⊢
      obtain ⟨hch, hparent⟩ := h.trie.parent i x s' c hx hi
      have hi0 : (i : Int) ≠ 0 := by
        rw [Ne, h.trie.eq_zero_iff ⟨i, rfl, hi⟩]
        simp
      by_cases hroot : x.parent = 0
      · obtain rfl : s' = [] := (h.trie.eq_zero_iff hparent).mp hroot
        rw [if_pos (Or.inr hroot)]
        have hlinkTo : LinkTo paths [c] 0 :=
          Or.inr ⟨[], h.trie.denotes_zero, .singleton h.trie.denotes_zero.mem⟩
        exact ⟨_, _, rfl, h.setLink hi hlinkTo, hlinkTo⟩
      · rw [if_neg (not_or.mpr ⟨hi0, hroot⟩)]
        rw [List.length_append, List.length_singleton] at hn
        have hs' : s' ≠ [] := fun hs' => hroot ((h.trie.eq_zero_iff hparent).mpr hs')
        obtain ⟨p, hp, hps⟩ := hparent
        obtain ⟨l, dma₁, hrun₁, h₁, hl⟩ :=
          (shorter (n - 1) (by omega)).1 fuel dma p s' h hps (by omega) (by omega)
        obtain ⟨t, ⟨q, rfl, hq⟩, hlong⟩ := hl.resolve_left (fun hl => hs' hl.1)
        have ht := hlong.length_lt
        obtain ⟨u, dma₂, hrun₂, h₂, t', hu, ht'⟩ :=
          (shorter (n - 1) (by omega)).2 fuel dma₁ q t c h₁ hq (by omega) (by omega)
        have hlinkTo : LinkTo paths (s' ++ [c]) u :=
          Or.inr ⟨t', hu, hlong.concat h.trie.prefixClosed ht'⟩
        refine ⟨u, _, ?_, h₂.setLink hi hlinkTo, hlinkTo⟩
        rw [hp, hrun₁, hch, Int8.ofInt_toInt]
        simp [hrun₂]
  · rw [if_neg hlink]
    exact ⟨_, _, rfl, h, hright.link hlink⟩

/-- `go` needs the link of its own vertex, and itself on shorter strings. -/
theorem goSpec_of_link {n : Nat} (own : GetLinkSpec ps paths n)
    (shorter : ∀ m, m < n → GoSpec ps paths m) : GoSpec ps paths n := by
  intro fuel dma i s c h hi hn hfuel
  obtain ⟨fuel, rfl⟩ : ∃ k, fuel = k + 1 := ⟨fuel - 1, by omega⟩
  obtain ⟨x, hx, hright⟩ := h.vertex hi
  simp only [goFuel, vertexAt_natCast, hx, Option.bind_eq_bind, Option.bind_some]
  cases hgo : x.go c with
  | some u => exact ⟨u, dma, rfl, h, hright.go c u hgo⟩
  | none =>
      cases hnext : x.next c with
      | some u =>
          have hu := (h.trie.next i x s hx hi c u).mp hnext
          have hgoes : GoesTo paths s c u := ⟨s ++ [c], hu, .self hu.mem⟩
          exact ⟨u, _, rfl, h.setGo hi hgoes, hgoes⟩
      | none =>
          have stuck : s ++ [c] ∉ paths := by
            intro hmem
            obtain ⟨u, hu⟩ := denotes_of_mem hmem
            rw [(h.trie.next i x s hx hi c u).mpr hu] at hnext
            exact Option.some_ne_none u hnext
          by_cases hzero : (i : Int) = 0
          · obtain rfl : s = [] := (h.trie.eq_zero_iff ⟨i, rfl, hi⟩).mp hzero
            have hgoes : GoesTo paths [] c 0 :=
              ⟨[], h.trie.denotes_zero, .reset h.trie.denotes_zero.mem stuck⟩
            simp only [hzero, if_true]
            refine ⟨0, _, rfl, ?_, hgoes⟩
            rw [← hzero] at hgoes ⊢
            exact h.setGo hi hgoes
          · have hs : s ≠ [] := fun hs => hzero ((h.trie.eq_zero_iff ⟨i, rfl, hi⟩).mpr hs)
            obtain ⟨l, dma₁, hrun₁, h₁, hl⟩ := own fuel dma i s h hi hn (by omega)
            obtain ⟨t, ⟨q, rfl, hq⟩, hlong⟩ := hl.resolve_left (fun hl => hs hl.1)
            have ht := hlong.length_lt
            obtain ⟨u, dma₂, hrun₂, h₂, t', hu, ht'⟩ :=
              shorter (n - 1) (by omega) fuel dma₁ q t c h₁ hq (by omega) (by omega)
            have hgoes : GoesTo paths s c u :=
              ⟨t', hu, .fallback h.trie.prefixClosed stuck hlong ht'⟩
            refine ⟨u, _, ?_, h₂.setGo hi hgoes, hgoes⟩
            rw [if_neg hzero]
            simp [hrun₁, hrun₂]

theorem getLinkSpec_goSpec (n : Nat) : GetLinkSpec ps paths n ∧ GoSpec ps paths n := by
  induction n using Nat.strong_induction_on with
  | _ n ih =>
      have own : GetLinkSpec ps paths n := getLinkSpec_of_shorter ih
      exact ⟨own, goSpec_of_link own (fun m hm => (ih m hm).2)⟩

variable {dma : Dma} {i : Nat} {s : Bytes}

theorem Automaton.length_lt (h : Automaton ps paths dma) (hi : paths[i]? = some s) :
    s.length < dma.length := by
  have := h.trie.depth i s hi
  have := (List.getElem?_eq_some_iff.mp hi).1
  rw [h.length_eq] at this
  omega

theorem Automaton.getLink (h : Automaton ps paths dma) (hi : paths[i]? = some s) :
    ∃ u dma', Ssdp.getLink i dma = some (u, dma') ∧ Automaton ps paths dma' ∧
      LinkTo paths s u :=
  (getLinkSpec_goSpec dma.length).1 _ dma i s h hi (Nat.le_of_lt (h.length_lt hi))
    (by simp only [callDepth]; omega)

theorem Automaton.go (h : Automaton ps paths dma) (hi : paths[i]? = some s) (c : Int8) :
    ∃ u dma', Ssdp.go i c dma = some (u, dma') ∧ Automaton ps paths dma' ∧
      GoesTo paths s c u :=
  (getLinkSpec_goSpec dma.length).2 _ dma i s c h hi (Nat.le_of_lt (h.length_lt hi))
    (by simp only [callDepth]; omega)

end

end SubutaiTray.Ssdp
