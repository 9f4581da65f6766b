import SubutaiTray.Ssdp.Automaton
import Mathlib.Data.List.Nodup
import Mathlib.Data.List.Infix

/-!
The vector built by `init` and `add_string` is a trie.

The strings of the vertices are listed beside the vertices, one string for each
index. This listing is a proof device: it determines the trie edges and the
parent fields, and `walk` recovers it from the vector alone.
-/
namespace SubutaiTray.Ssdp

def Denotes (paths : List Bytes) (v : Int) (s : Bytes) : Prop :=
  ∃ i : Nat, v = i ∧ paths[i]? = some s

structure IsTrie (dma : Dma) (paths : List Bytes) : Prop where
  length_eq : paths.length = dma.length
  root : paths[0]? = some []
  nodup : paths.Nodup
  depth : ∀ (i : Nat) (s : Bytes), paths[i]? = some s → s.length ≤ i
  next : ∀ (i : Nat) (x : Vertex) (s : Bytes), dma[i]? = some x → paths[i]? = some s →
    ∀ c u, x.next c = some u ↔ Denotes paths u (s ++ [c])
  parent : ∀ (i : Nat) (x : Vertex) (s : Bytes) (c : Int8), dma[i]? = some x → paths[i]? = some (s ++ [c]) →
    x.pCh = c.toInt ∧ Denotes paths x.parent s

theorem Denotes.mem {paths : List Bytes} {v : Int} {s : Bytes} (h : Denotes paths v s) :
    s ∈ paths := by
  obtain ⟨i, -, hi⟩ := h
  exact List.mem_of_getElem? hi

theorem denotes_of_mem {paths : List Bytes} {s : Bytes} (h : s ∈ paths) :
    ∃ v, Denotes paths v s := by
  obtain ⟨i, hi⟩ := List.mem_iff_getElem?.mp h
  exact ⟨i, i, rfl, hi⟩

theorem denotes_concat {paths : List Bytes} {p : Bytes} {v : Int} {s : Bytes} :
    Denotes (paths ++ [p]) v s ↔ Denotes paths v s ∨ (v = paths.length ∧ s = p) := by
  constructor
  · rintro ⟨i, rfl, hi⟩
    by_cases hlt : i < paths.length
    · rw [List.getElem?_append_left hlt] at hi
      exact Or.inl ⟨i, rfl, hi⟩
    · rw [List.getElem?_append_right (by omega)] at hi
      obtain ⟨hidx, hs⟩ := List.getElem?_eq_some_iff.mp hi
      have : i = paths.length := by
        rw [List.length_singleton] at hidx
        omega
      subst this
      refine Or.inr ⟨rfl, ?_⟩
      simpa using hs.symm
  · rintro (⟨i, rfl, hi⟩ | ⟨rfl, rfl⟩)
    · exact ⟨i, rfl, by rw [List.getElem?_append_left (List.getElem?_eq_some_iff.mp hi).1, hi]⟩
    · exact ⟨paths.length, rfl, by simp⟩

section
variable {dma : Dma} {paths : List Bytes}

theorem IsTrie.vertex (h : IsTrie dma paths) {i : Nat} {s : Bytes} (hi : paths[i]? = some s) :
    ∃ x, dma[i]? = some x := by
  have hlt := (List.getElem?_eq_some_iff.mp hi).1
  rw [h.length_eq] at hlt
  exact ⟨dma[i], List.getElem?_eq_getElem hlt⟩

theorem IsTrie.path (h : IsTrie dma paths) {i : Nat} (hi : i < dma.length) :
    ∃ s, paths[i]? = some s := by
  rw [← h.length_eq] at hi
  exact ⟨paths[i], List.getElem?_eq_getElem hi⟩

theorem IsTrie.index_unique (h : IsTrie dma paths) {i j : Nat} {s : Bytes}
    (hi : paths[i]? = some s) (hj : paths[j]? = some s) : i = j := by
  obtain ⟨hi', rfl⟩ := List.getElem?_eq_some_iff.mp hi
  obtain ⟨hj', hs⟩ := List.getElem?_eq_some_iff.mp hj
  exact ((h.nodup.getElem_inj_iff).mp hs).symm

theorem IsTrie.denotes_unique (h : IsTrie dma paths) {u v : Int} {s : Bytes}
    (hu : Denotes paths u s) (hv : Denotes paths v s) : u = v := by
  obtain ⟨i, rfl, hi⟩ := hu
  obtain ⟨j, rfl, hj⟩ := hv
  rw [h.index_unique hi hj]

theorem Denotes.string_unique {v : Int} {s t : Bytes} (hs : Denotes paths v s)
    (ht : Denotes paths v t) : s = t := by
  obtain ⟨i, rfl, hi⟩ := hs
  obtain ⟨j, hij, hj⟩ := ht
  have : i = j := by omega
  subst this
  exact Option.some.inj (hi.symm.trans hj)

theorem IsTrie.denotes_zero (h : IsTrie dma paths) : Denotes paths 0 [] :=
  ⟨0, rfl, h.root⟩

theorem IsTrie.eq_zero_iff (h : IsTrie dma paths) {v : Int} {s : Bytes}
    (hv : Denotes paths v s) : v = 0 ↔ s = [] := by
  constructor
  · rintro rfl
    exact hv.string_unique h.denotes_zero
  · rintro rfl
    exact h.denotes_unique hv h.denotes_zero

theorem IsTrie.prefixClosed (h : IsTrie dma paths) (s : Bytes) (c : Int8)
    (hs : s ++ [c] ∈ paths) : s ∈ paths := by
  obtain ⟨i, hi⟩ := List.mem_iff_getElem?.mp hs
  obtain ⟨x, hx⟩ := h.vertex hi
  exact (h.parent i x s c hx hi).2.mem

theorem IsTrie.of_modify (h : IsTrie dma paths) (i : Nat) {f : Vertex → Vertex}
    (hf : ∀ x, (f x).next = x.next ∧ (f x).parent = x.parent ∧ (f x).pCh = x.pCh) :
    IsTrie (modifyVertex dma i f) paths := by
  have back : ∀ (k : Nat) (x : Vertex), (modifyVertex dma i f)[k]? = some x →
      ∃ y, dma[k]? = some y ∧ x.next = y.next ∧ x.parent = y.parent ∧ x.pCh = y.pCh := by
    intro k x hx
    rw [getElem?_modifyVertex] at hx
    obtain ⟨y, hy, rfl⟩ := Option.map_eq_some_iff.mp hx
    refine ⟨y, hy, ?_⟩
    split
    · exact hf y
    · exact ⟨rfl, rfl, rfl⟩
  refine ⟨by simp [h.length_eq], h.root, h.nodup, h.depth, ?_, ?_⟩
  · intro k x s hx hs c u
    obtain ⟨y, hy, hnext, -⟩ := back k x hx
    rw [hnext]
    exact h.next k y s hy hs c u
  · intro k x s c hx hs
    obtain ⟨y, hy, -, hparent, hch⟩ := back k x hx
    rw [hparent, hch]
    exact h.parent k y s c hy hs

theorem IsTrie.path_grow (h : IsTrie dma paths) {p t : Bytes} {k : Nat}
    (ht : (paths ++ [p])[k]? = some t) :
    (k < dma.length ∧ paths[k]? = some t) ∨ (k = dma.length ∧ t = p) := by
  have hlen := h.length_eq
  by_cases hk : k < dma.length
  · rw [List.getElem?_append_left (by omega)] at ht
    exact Or.inl ⟨hk, ht⟩
  · rw [List.getElem?_append_right (by omega)] at ht
    obtain ⟨hidx, hval⟩ := List.getElem?_eq_some_iff.mp ht
    rw [List.length_singleton] at hidx
    exact Or.inr ⟨by omega, by simpa using hval.symm⟩

/-- A vertex of the grown vector and its string are old ones or those just added. -/
theorem IsTrie.grow_cases (h : IsTrie dma paths) {i k : Nat} {c : Int8} {new x : Vertex}
    {p t : Bytes} (hx : (modifyVertex dma i (Vertex.setNext c dma.length) ++ [new])[k]? = some x)
    (ht : (paths ++ [p])[k]? = some t) :
    (∃ y, dma[k]? = some y ∧ paths[k]? = some t ∧
      x = if i = k then Vertex.setNext c dma.length y else y) ∨ (x = new ∧ t = p) := by
  cases h.path_grow ht with
  | inl hold =>
      rw [List.getElem?_append_left (by simpa using hold.1), getElem?_modifyVertex] at hx
      obtain ⟨y, hy, rfl⟩ := Option.map_eq_some_iff.mp hx
      exact Or.inl ⟨y, hy, hold.2, rfl⟩
  | inr hnew =>
      rw [List.getElem?_append_right (by simp [hnew.1]), length_modifyVertex, hnew.1,
        Nat.sub_self] at hx
      exact Or.inr ⟨(Option.some.inj hx).symm, hnew.2⟩

/-- The edges of an old vertex: only the one at `i` changes, and only for `c`. -/
theorem IsTrie.next_grow (h : IsTrie dma paths) {i k : Nat} {s t : Bytes} {c : Int8} {y : Vertex}
    (hi : paths[i]? = some s) (fresh : s ++ [c] ∉ paths) (hy : dma[k]? = some y)
    (ht : paths[k]? = some t) (c' : Int8) (u : Int) :
    (if i = k then Vertex.setNext c dma.length y else y).next c' = some u ↔
      Denotes paths u (t ++ [c']) ∨ (u = paths.length ∧ t ++ [c'] = s ++ [c]) := by
  have old := h.next k y t hy ht c' u
  by_cases hik : i = k
  · subst hik
    obtain rfl : t = s := Option.some.inj (ht.symm.trans hi)
    by_cases hc : c' = c
    · subst hc
      have none_old : ¬ Denotes paths u (t ++ [c']) := fun hd => fresh hd.mem
      simp [Vertex.setNext, none_old, h.length_eq, eq_comm]
    · simp [Vertex.setNext, old, hc]
  · have hts : t ≠ s := by
      intro heq
      rw [heq] at ht
      exact hik (h.index_unique hi ht)
    simp [hik, old, hts]

/-- One turn of the loop of `add_string` that has to create a vertex. -/
theorem IsTrie.grow (h : IsTrie dma paths) {i : Nat} {s : Bytes} {c : Int8}
    (hi : paths[i]? = some s) (fresh : s ++ [c] ∉ paths) :
    IsTrie (modifyVertex dma i (Vertex.setNext c dma.length) ++
      [{ parent := i, pCh := c.toInt }]) (paths ++ [s ++ [c]]) := by
  apply IsTrie.mk
  · simp [h.length_eq]
  · rw [List.getElem?_append_left (List.getElem?_eq_some_iff.mp h.root).1]
    exact h.root
  · rw [← List.concat_eq_append, List.nodup_concat]
    exact ⟨fresh, h.nodup⟩
  · intro k t ht
    cases h.path_grow ht with
    | inl hold => exact h.depth k t hold.2
    | inr hnew =>
        rw [hnew.1, hnew.2, List.length_append, List.length_singleton, ← h.length_eq]
        have := h.depth i s hi
        have := (List.getElem?_eq_some_iff.mp hi).1
        omega
  · intro k x t hx ht c' u
    rw [denotes_concat]
    cases h.grow_cases hx ht with
    | inl hold =>
        obtain ⟨y, hy, ht', rfl⟩ := hold
        exact h.next_grow hi fresh hy ht' c' u
    | inr hnew =>
        have absent : ¬ Denotes paths u (s ++ [c] ++ [c']) := fun hd =>
          fresh (h.prefixClosed _ _ hd.mem)
        have longer : s ++ [c] ++ [c'] ≠ s ++ [c] := by
          intro heq
          have := congrArg List.length heq
          simp at this
        rw [hnew.1, hnew.2]
        simp only [absent, longer, and_false, or_false, iff_false]
        simp
  · intro k x t c' hx ht
    cases h.grow_cases hx ht with
    | inl hold =>
        obtain ⟨y, hy, ht', rfl⟩ := hold
        obtain ⟨hch, hpar⟩ := h.parent k y t c' hy ht'
        have hpar' : Denotes (paths ++ [s ++ [c]]) y.parent t := denotes_concat.mpr (Or.inl hpar)
        split
        · exact ⟨hch, hpar'⟩
        · exact ⟨hch, hpar'⟩
    | inr hnew =>
        obtain ⟨rfl, heq⟩ := hnew
        obtain ⟨rfl, hc⟩ := List.append_inj' heq rfl
        obtain rfl := List.singleton_inj.mp hc
        exact ⟨rfl, denotes_concat.mpr (Or.inl ⟨i, rfl, hi⟩)⟩

end

/-- What a vertex holds beside its place in the trie: the pattern mark and the
caches. -/
def Vertex.label (x : Vertex) : Vertex :=
  { x with parent := notInitialized, pCh := notInitialized, next := fun _ => none }

/-- `(dma', paths')` is a trie that continues `(dma, paths)` with unlabelled
vertices. -/
structure Extends (dma : Dma) (paths : List Bytes) (dma' : Dma) (paths' : List Bytes) :
    Prop where
  trie : IsTrie dma' paths'
  continues : paths <+: paths'
  labels : ∃ n, dma'.map Vertex.label = dma.map Vertex.label ++ List.replicate n Vertex.blank

theorem getElem?_of_isPrefix {paths paths' : List Bytes} (h : paths <+: paths') {i : Nat}
    {s : Bytes} (hi : paths[i]? = some s) : paths'[i]? = some s := by
  obtain ⟨tail, rfl⟩ := h
  rw [List.getElem?_append_left (List.getElem?_eq_some_iff.mp hi).1, hi]

theorem map_label_grow (dma : Dma) (i : Nat) (c : Int8) :
    (modifyVertex dma i (Vertex.setNext c dma.length) ++
        [({ parent := i, pCh := c.toInt } : Vertex)]).map Vertex.label =
      dma.map Vertex.label ++ List.replicate 1 Vertex.blank := by
  have untouched : (modifyVertex dma i (Vertex.setNext c dma.length)).map Vertex.label =
      dma.map Vertex.label := by
    apply List.ext_getElem?
    intro k
    rw [List.getElem?_map, getElem?_modifyVertex, List.getElem?_map, Option.map_map]
    congr 1
    funext x
    simp only [Function.comp]
    split <;> rfl
  rw [List.map_append, untouched]
  rfl

theorem Extends.trans {d₁ d₂ d₃ : Dma} {p₁ p₂ p₃ : List Bytes} (h : Extends d₁ p₁ d₂ p₂)
    (k : Extends d₂ p₂ d₃ p₃) : Extends d₁ p₁ d₃ p₃ := by
  obtain ⟨n, hn⟩ := h.labels
  obtain ⟨m, hm⟩ := k.labels
  exact ⟨k.trie, h.continues.trans k.continues, n + m, by
    rw [hm, hn, List.append_assoc, List.replicate_append_replicate]⟩

/-- The prefixes of a string with a letter in front, each behind `s`. -/
theorem exists_prefix_cons_iff {s str t : Bytes} {c : Int8} :
    (∃ u, u <+: c :: str ∧ t = s ++ u) ↔ t = s ∨ ∃ u, u <+: str ∧ t = s ++ [c] ++ u := by
  constructor
  · intro h
    obtain ⟨u, hu, heq⟩ := h
    cases List.prefix_cons_iff.mp hu with
    | inl hnil => exact Or.inl (by rw [heq, hnil, List.append_nil])
    | inr hcons =>
        obtain ⟨u', rfl, hu'⟩ := hcons
        exact Or.inr ⟨u', hu', by rw [heq, List.append_assoc, List.singleton_append]⟩
  · intro h
    cases h with
    | inl heq => exact ⟨[], List.nil_prefix, by rw [heq, List.append_nil]⟩
    | inr hmore =>
        obtain ⟨u, hu, heq⟩ := hmore
        refine ⟨c :: u, List.cons_prefix_cons.mpr ⟨rfl, hu⟩, ?_⟩
        rw [heq, List.append_assoc, List.singleton_append]

theorem addStringLoop_spec (str : Bytes) {dma : Dma} {paths : List Bytes}
    (h : IsTrie dma paths) {i : Nat} {s : Bytes} (hi : paths[i]? = some s) :
    ∃ (j : Nat) (dma' : Dma) (paths' : List Bytes),
      addStringLoop str i dma.length dma = some ((j : Int), dma') ∧
      Extends dma paths dma' paths' ∧ paths'[j]? = some (s ++ str) ∧
      ∀ t, t ∈ paths' ↔ t ∈ paths ∨ ∃ u, u <+: str ∧ t = s ++ u := by
  induction str generalizing dma paths i s with
  | nil =>
      refine ⟨i, dma, paths, rfl, ⟨h, List.prefix_rfl, 0, by simp⟩, by simpa using hi, ?_⟩
      intro t
      constructor
      · exact Or.inl
      · rintro (ht | ⟨u, hu, rfl⟩)
        · exact ht
        · rw [List.prefix_nil.mp hu, List.append_nil]
          exact List.mem_of_getElem? hi
  | cons c str ih =>
      obtain ⟨x, hx⟩ := h.vertex hi
      -- both branches go on from a trie in which some `k` stands for `s ++ [c]`
      have onward : ∀ {d : Dma} {ps : List Bytes} {k : Nat}, Extends dma paths d ps →
          ps[k]? = some (s ++ [c]) → (∀ t, t ∈ ps ↔ t ∈ paths ∨ t = s ++ [c]) →
          ∃ (j : Nat) (dma' : Dma) (paths' : List Bytes),
            addStringLoop str k d.length d = some ((j : Int), dma') ∧
            Extends dma paths dma' paths' ∧ paths'[j]? = some (s ++ c :: str) ∧
            ∀ t, t ∈ paths' ↔ t ∈ paths ∨ ∃ u, u <+: c :: str ∧ t = s ++ u := by
        intro d ps k hext hk hmem
        obtain ⟨j, dma', paths', hrun, hext', hj, hmem'⟩ := ih hext.trie hk
        refine ⟨j, dma', paths', hrun, hext.trans hext', by simpa using hj, ?_⟩
        intro t
        rw [hmem', hmem, exists_prefix_cons_iff]
        have hold : t = s → t ∈ paths := fun heq => heq ▸ List.mem_of_getElem? hi
        have hnew : t = s ++ [c] → ∃ u, u <+: str ∧ t = s ++ [c] ++ u := fun heq =>
          ⟨[], List.nil_prefix, by rw [heq, List.append_nil]⟩
        constructor
        · intro h
          cases h with
          | inl hps => exact hps.imp id fun heq => Or.inr (hnew heq)
          | inr hmore => exact Or.inr (Or.inr hmore)
        · intro h
          cases h with
          | inl ht => exact Or.inl (Or.inl ht)
          | inr hmore => exact hmore.imp (fun heq => Or.inl (hold heq)) id
      simp only [addStringLoop, vertexAt_natCast, hx, Option.bind_eq_bind, Option.bind_some]
      cases hc : x.next c with
      | some u =>
          obtain ⟨k, rfl, hk⟩ := (h.next i x s hx hi c u).mp hc
          refine onward ⟨h, List.prefix_rfl, 0, by simp⟩ hk ?_
          intro t
          constructor
          · exact Or.inl
          · rintro (ht | rfl)
            · exact ht
            · exact List.mem_of_getElem? hk
      | none =>
          have fresh : s ++ [c] ∉ paths := by
            intro hmem
            obtain ⟨u, hu⟩ := denotes_of_mem hmem
            rw [(h.next i x s hx hi c u).mpr hu] at hc
            exact Option.some_ne_none _ hc
          have hk : (paths ++ [s ++ [c]])[dma.length]? = some (s ++ [c]) := by
            rw [← h.length_eq]
            simp
          have hext : Extends dma paths _ _ :=
            ⟨h.grow hi fresh, List.prefix_append _ _, 1, map_label_grow dma i c⟩
          simpa using onward hext hk (by simp)

/-- The label left by the patterns added so far on the vertex of `s`: the last
pattern that is exactly `s`, and the root's link. -/
def mark (ps : List Pattern) (s : Bytes) : Vertex :=
  let blank : Vertex := { link := if s = [] then 0 else notInitialized }
  match ps.reverse.find? (fun p => p.str = s) with
  | none => blank
  | some p => Vertex.setLeaf p.si p.ife blank

def PatternPrefix (ps : List Pattern) (s : Bytes) : Prop :=
  s = [] ∨ ∃ p ∈ ps, s <+: p.str

structure Built (ps : List Pattern) (dma : Dma) (paths : List Bytes) : Prop where
  trie : IsTrie dma paths
  strings : ∀ s, s ∈ paths ↔ PatternPrefix ps s
  labels : ∀ (i : Nat) (x : Vertex) (s : Bytes),
    dma[i]? = some x → paths[i]? = some s → x.label = mark ps s

theorem built_init : Built [] (init []) [[]] := by
  have only : ∀ (i : Nat) (s : Bytes), ([[]] : List Bytes)[i]? = some s → i = 0 ∧ s = [] := by
    intro i s hs
    cases i with
    | zero => exact ⟨rfl, by simpa using hs.symm⟩
    | succ i => simp at hs
  refine ⟨⟨rfl, rfl, List.nodup_singleton _, ?_, ?_, ?_⟩, ?_, ?_⟩
  · intro i s hs
    simp [(only i s hs).2]
  · intro i x s hx hs c u
    obtain ⟨rfl, rfl⟩ := only i s hs
    obtain rfl : x = { parent := 0, link := 0 } := by simpa [init] using hx.symm
    simp only [reduceCtorEq, false_iff]
    rintro ⟨j, -, hj⟩
    exact List.cons_ne_nil _ _ (only j _ hj).2
  · intro i x s c _ hs
    exact absurd (only i _ hs).2 (by simp)
  · simp [PatternPrefix]
  · intro i x s hx hs
    obtain ⟨rfl, rfl⟩ := only i s hs
    obtain rfl : x = { parent := 0, link := 0 } := by simpa [init] using hx.symm
    rfl

theorem mark_concat (ps : List Pattern) (p : Pattern) (s : Bytes) :
    mark (ps ++ [p]) s = if p.str = s then Vertex.setLeaf p.si p.ife (mark ps s) else mark ps s := by
  by_cases h : p.str = s
  · simp only [mark, List.reverse_append, List.reverse_singleton, List.singleton_append,
      List.find?_cons, h, decide_true, if_true]
    cases ps.reverse.find? (fun p => p.str = s) <;> rfl
  · simp [mark, h]

theorem mark_of_not_patternPrefix {ps : List Pattern} {s : Bytes} (h : ¬ PatternPrefix ps s) :
    mark ps s = Vertex.blank := by
  have ne : s ≠ [] := fun hs => h (Or.inl hs)
  have none_found : ps.reverse.find? (fun p => p.str = s) = none := by
    rw [List.find?_eq_none]
    intro p hp hps
    have : p.str = s := by simpa using hps
    exact h (Or.inr ⟨p, List.mem_reverse.mp hp, by rw [this]⟩)
  simp [mark, none_found, ne, Vertex.blank]

theorem patternPrefix_concat {ps : List Pattern} {p : Pattern} {s : Bytes} :
    PatternPrefix (ps ++ [p]) s ↔ PatternPrefix ps s ∨ s <+: p.str := by
  simp only [PatternPrefix, List.mem_append, List.mem_singleton, or_and_right, exists_or,
    exists_eq_left, or_assoc]

/-- Before the new pattern is marked every vertex has its old label, a new one a blank label. -/
theorem Built.labels_of_extends {ps : List Pattern} {dma dma' : Dma} {paths paths' : List Bytes}
    (h : Built ps dma paths) (hext : Extends dma paths dma' paths') {i : Nat} {x : Vertex}
    {s : Bytes} (hx : dma'[i]? = some x) (hs : paths'[i]? = some s) : x.label = mark ps s := by
  obtain ⟨n, hn⟩ := hext.labels
  have hlabel : (dma.map Vertex.label ++ List.replicate n Vertex.blank)[i]? = some x.label := by
    rw [← hn, List.getElem?_map, hx]
    rfl
  by_cases hi : i < dma.length
  · rw [List.getElem?_append_left (by simpa using hi), List.getElem?_map] at hlabel
    obtain ⟨x₀, hx₀, hxx⟩ := Option.map_eq_some_iff.mp hlabel
    obtain ⟨s₀, hs₀⟩ := h.trie.path hi
    have same : s₀ = s :=
      Option.some.inj ((getElem?_of_isPrefix hext.continues hs₀).symm.trans hs)
    rw [← hxx, h.labels i x₀ s₀ hx₀ hs₀, same]
  · have not_old : s ∉ paths := by
      intro hmem
      obtain ⟨k, hk⟩ := List.mem_iff_getElem?.mp hmem
      have := hext.trie.index_unique (getElem?_of_isPrefix hext.continues hk) hs
      have hlt := (List.getElem?_eq_some_iff.mp hk).1
      rw [h.trie.length_eq] at hlt
      omega
    rw [List.getElem?_append_right (by simpa using Nat.le_of_not_lt hi)] at hlabel
    rw [mark_of_not_patternPrefix (fun hp => not_old ((h.strings s).mpr hp))]
    exact List.eq_of_mem_replicate (List.mem_of_getElem? hlabel)

theorem Built.addString {ps : List Pattern} {dma : Dma} {paths : List Bytes}
    (h : Built ps dma paths) (p : Pattern) :
    ∃ dma' paths', addString p.str p.si p.ife dma = some dma' ∧
      Built (ps ++ [p]) dma' paths' := by
  obtain ⟨j, dma', paths', hrun, hext, hj, hmem⟩ := addStringLoop_spec p.str h.trie h.trie.root
  rw [List.nil_append] at hj
  obtain ⟨y, hy⟩ := hext.trie.vertex hj
  refine ⟨modifyVertex dma' j (Vertex.setLeaf p.si p.ife), paths', ?_, ?_, ?_, ?_⟩
  · have hrun' : addStringLoop p.str 0 dma.length dma = some ((j : Int), dma') := hrun
    simp [Ssdp.addString, hrun', hy]
  · exact hext.trie.of_modify j (fun x => ⟨rfl, rfl, rfl⟩)
  · intro s
    rw [hmem, h.strings, patternPrefix_concat]
    simp
  · intro i x s hx hs
    rw [getElem?_modifyVertex] at hx
    obtain ⟨x₀, hx₀, rfl⟩ := Option.map_eq_some_iff.mp hx
    have old := h.labels_of_extends hext hx₀ hs
    rw [mark_concat]
    by_cases hij : j = i
    · subst hij
      have hps : p.str = s := Option.some.inj (hj.symm.trans hs)
      simp only [hps, if_true, ← old]
      rfl
    · have hps : p.str ≠ s := by
        intro heq
        rw [heq] at hj
        exact hij (hext.trie.index_unique hj hs)
      simp [hij, hps, old]

theorem built_build (ps : List Pattern) :
    ∃ dma paths, build ps = some dma ∧ Built ps dma paths := by
  induction ps using List.reverseRecOn with
  | nil => exact ⟨init [], [[]], rfl, built_init⟩
  | append_singleton ps p ih =>
      obtain ⟨dma, paths, hrun, h⟩ := ih
      obtain ⟨dma', paths', hadd, h'⟩ := h.addString p
      refine ⟨dma', paths', ?_, h'⟩
      simp only [build, List.foldlM_append, List.foldlM_cons, List.foldlM_nil] at hrun ⊢
      simp [hrun, hadd]

end SubutaiTray.Ssdp
