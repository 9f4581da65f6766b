import SubutaiTray.Ssdp.HeaderLines

/-!
The outer loop of `parse_ssdp_datagram` against the lines of the datagram.

One turn outside a header advances the automaton by one byte; one turn behind a
complete header takes the whole value and leaves the automaton where the first
byte of the value leads. Both keep the fold over the header lines of the text
that is left.
-/
namespace SubutaiTray.Ssdp

open SuffixMatching Splitting

section
variable {ps : List Pattern} {paths : List Bytes} {dma : Dma} {s t v y r : Bytes} {c : Int8}
  {rest : List Bytes}

theorem valueEnd_eq (hr : r ≠ []) (h : split crlf r = v :: rest) (i : Int) :
    valueEnd r i = i + v.length - 1 := by
  induction r generalizing v i rest with
  | nil => exact absurd rfl hr
  | cons b r ih =>
      cases r with
      | nil =>
          have hb : ¬ crlf <+: [b] := by
            intro hb
            have := hb.length_le
            simp [crlf] at this
          rw [split_cons_of_not hb] at h
          obtain ⟨rfl, -⟩ : [b] = v ∧ _ := by simpa using h
          simp [valueEnd]
      | cons b' r =>
          by_cases hcrlf : b = cr ∧ b' = lf
          · obtain ⟨rfl, rfl⟩ := hcrlf
            have hsplit : split crlf (cr :: lf :: r) = [] :: split crlf r :=
              split_sep_append (List.cons_ne_nil _ _) r
            rw [hsplit, List.cons.injEq] at h
            rw [valueEnd, if_pos ⟨rfl, rfl⟩, ← h.1]
            simp
          · have hb : ¬ crlf <+: b :: b' :: r := by
              intro hb
              simp only [crlf, List.cons_prefix_cons, List.nil_prefix, and_true] at hb
              exact hcrlf ⟨hb.1.symm, hb.2.symm⟩
            obtain ⟨w, ws, hw⟩ := List.exists_cons_of_ne_nil (split_ne_nil crlf (b' :: r))
            rw [split_cons_of_not hb, hw, List.modifyHead_cons, List.cons.injEq] at h
            rw [valueEnd, if_neg hcrlf, ih (List.cons_ne_nil _ _) hw, ← h.1, List.length_cons]
            push_cast
            omega

theorem keptValue_suffix (v : Bytes) : keptValue v <:+ v := by
  induction v using keptValue.induct with
  | case1 => exact List.suffix_rfl
  | case2 b => exact List.suffix_rfl
  | case3 b' v ih =>
      rw [keptValue, if_pos rfl]
      exact ih.trans (List.suffix_cons _ _)
  | case4 b b' v hb =>
      rw [keptValue, if_neg hb]

theorem skipSpaces_eq (v y : Bytes) (k : Int) :
    skipSpaces (v ++ y) k (k + v.length - 1) = k + (v.length - (keptValue v).length) := by
  induction v using keptValue.induct generalizing k with
  | case1 =>
      cases y with
      | nil => simp [skipSpaces, keptValue]
      | cons b y =>
          have hge : ¬ k < k + ([] : Bytes).length - 1 := by
            rw [List.length_nil]
            omega
          rw [List.nil_append, skipSpaces, if_neg hge]
          simp [keptValue]
  | case2 b => simp [skipSpaces, keptValue]
  | case3 b' v ih =>
      have hlt : k < k + (space :: b' :: v : Bytes).length - 1 := by
        simp only [List.length_cons]
        omega
      have hnext := ih (k + 1)
      rw [List.cons_append, skipSpaces, if_pos hlt, if_neg (by simp), keptValue, if_pos rfl]
      rw [List.length_cons, show k + ((b' :: v : Bytes).length + 1 : ℕ) - 1
        = k + 1 + (b' :: v : Bytes).length - 1 by push_cast; omega, hnext]
      push_cast
      omega
  | case4 b b' v hb =>
      have hlt : k < k + (b :: b' :: v : Bytes).length - 1 := by
        simp only [List.length_cons]
        omega
      rw [List.cons_append, skipSpaces, if_pos hlt, if_pos hb, keptValue, if_neg hb]
      omega

theorem substring_eq {dtgr : Bytes} {n : Nat} (h : dtgr.drop n = v ++ y) (hn : n ≤ dtgr.length) :
    substring dtgr (n + (v.length - (keptValue v).length)) (keptValue v).length =
      some (keptValue v) := by
  obtain ⟨u, hu⟩ := keptValue_suffix v
  have hlen : dtgr.length = n + (v.length + y.length) := by
    have := congrArg List.length h
    rw [List.length_drop, List.length_append] at this
    omega
  have hvlen : v.length = u.length + (keptValue v).length := by
    rw [← List.length_append, hu]
  have hk : (n : Int) + (v.length - (keptValue v).length) = (n + u.length : ℕ) := by
    push_cast
    omega
  rw [hk, substring, if_pos (by omega)]
  have hdrop : dtgr.drop (n + u.length) = keptValue v ++ y := by
    calc dtgr.drop (n + u.length) = (v ++ y).drop u.length := by rw [← List.drop_drop, h]
      _ = (u ++ (keptValue v ++ y)).drop u.length := by rw [← List.append_assoc, hu]
      _ = keptValue v ++ y := List.drop_left
  rw [Int.toNat_natCast, Int.toNat_natCast, hdrop, List.take_left]

theorem headerLines_drop (h : split crlf r = v :: rest) :
    headerLines (r.drop v.length) = rest := by
  cases split_eq_cons (List.cons_ne_nil _ _) h with
  | inl hlast =>
      rw [hlast.1, hlast.2, List.drop_length]
      rfl
  | inr hmore =>
      obtain ⟨ys, rfl, hys⟩ := hmore
      rw [List.drop_left, ← hys]
      exact headerLines_crlf ys

/-- The text behind a value reads the same after the first byte of the value. -/
theorem headerLines_restart_drop (h : split crlf r = v :: rest) (c : Int8) :
    headerLines (restart c ++ r.drop v.length) = rest := by
  rw [headerLines_restart, ← headerLines_drop h]
  have hcons : ¬ crlf <+: c :: r.drop v.length := by
    intro hpre
    obtain ⟨-, hlf⟩ := List.cons_prefix_cons.mp hpre
    cases split_eq_cons (List.cons_ne_nil _ _) h with
    | inl hlast =>
        rw [hlast.2, List.drop_length] at hlf
        exact absurd hlf.length_le (by decide)
    | inr hmore =>
        obtain ⟨ys, rfl, -⟩ := hmore
        rw [List.drop_left] at hlf
        exact absurd (List.cons_prefix_cons.mp hlf).1 (by decide)
  rw [headerLines, split_cons_of_not hcons, List.tail_modifyHead]
  rfl

theorem byteAt_of_drop {dtgr : Bytes} {n : Nat} (h : dtgr.drop n = c :: r) :
    byteAt dtgr n = some c := by
  have hn : ¬ (n : Int) < 0 := by omega
  rw [byteAt, if_neg hn, Int.toNat_natCast, ← List.head?_drop, h]
  rfl

theorem HeaderSet.leafReached (hset : HeaderSet ps) (h : Automaton ps paths dma) {i : Nat}
    (hi : paths[i]? = some s) {x : Vertex} (hx : dma[i]? = some x) :
    ∃ dma', leafReached i x dma = some ((mark ps s).leaf, dma') ∧ Automaton ps paths dma' := by
  have hleaf : x.leaf = (mark ps s).leaf := (h.right i x s hx hi).leaf
  rw [Ssdp.leafReached, ← hleaf]
  by_cases hx' : x.leaf = true
  · rw [if_pos hx', hx']
    exact ⟨dma, rfl, h⟩
  · obtain ⟨u, dma', hrun, h', hspec⟩ := h.nearest hset.not_isPattern_nil hi
    rw [if_neg hx', hrun, Bool.eq_false_iff.mpr hx']
    refine ⟨dma', ?_, h'⟩
    cases hspec with
    | inl hnone => simp [hnone.1]
    | inr hto =>
        obtain ⟨t, -, ht⟩ := hto
        have hs : PatternPrefix ps s := (h.strings s).mp (List.mem_of_getElem? hi)
        exact absurd (hset.eq_of_suffix hs ht.holds ht.suffix) ht.proper

theorem parseLoop_miss {dtgr : Bytes} {n : Nat} (hdrop : dtgr.drop n = c :: r)
    {cs u : Int} {dma₁ dma₂ : Dma} {x : Vertex} (hx : vertexAt dma cs = some x)
    (hleaf : leafReached cs x dma = some (false, dma₁)) (hgo : go cs c dma₁ = some (u, dma₂))
    (fuel : Nat) (packet : Packet) :
    parseLoop dtgr (fuel + 1) n cs dma packet =
      parseLoop dtgr fuel (n + 1 : ℕ) u dma₂ packet := by
  have hlt : (n : Int) < dtgr.length := by
    have := congrArg List.length hdrop
    rw [List.length_drop, List.length_cons] at this
    omega
  rw [parseLoop, if_pos hlt]
  simp [byteAt_of_drop hdrop, hx, hleaf, hgo]

theorem parseLoop_hit {dtgr : Bytes} {n : Nat} (hdrop : dtgr.drop n = c :: r)
    (hsplit : split crlf (c :: r) = v :: rest)
    {cs u : Int} {dma₁ dma₂ : Dma} {x : Vertex} (hx : vertexAt dma cs = some x)
    (hleaf : leafReached cs x dma = some (true, dma₁)) (hgo : go cs c dma₁ = some (u, dma₂))
    (fuel : Nat) (packet : Packet) :
    parseLoop dtgr (fuel + 1) n cs dma packet =
      parseLoop dtgr fuel (n + v.length : ℕ) u dma₂
        (Function.update packet x.ife (some (keptValue v))) := by
  have hlen := congrArg List.length hdrop
  rw [List.length_drop, List.length_cons] at hlen
  have hlt : (n : Int) < dtgr.length := by omega
  obtain ⟨y, hy⟩ := prefix_of_split_eq_cons (List.cons_ne_nil _ _) hsplit
  have hend : valueEnd (dtgr.drop n) n = n + v.length - 1 := by
    rw [hdrop]
    exact valueEnd_eq (List.cons_ne_nil _ _) hsplit n
  have hskip : skipSpaces (dtgr.drop n) n (n + v.length - 1) =
      n + (v.length - (keptValue v).length) := by
    rw [hdrop, ← hy]
    exact skipSpaces_eq v y n
  have hsub := substring_eq (hdrop.trans hy.symm) (by omega)
  have hwidth : (n : Int) + v.length - 1 - (n + (v.length - (keptValue v).length)) + 1 =
      (keptValue v).length := by omega
  have hnext : (n : Int) + v.length - 1 + 1 = (n + v.length : ℕ) := by
    push_cast
    omega
  rw [parseLoop, if_pos hlt]
  simp [byteAt_of_drop hdrop, hx, hleaf, hgo, hend, hskip, hwidth, hsub, hnext]

/-- At the end of the datagram nothing is left to bind: the header that may have
been completed last is cut off. -/
theorem HeaderSet.sourceFold_end (hset : HeaderSet ps) (hs : PatternPrefix ps s)
    (packet : Packet) : sourceFold ps packet (headerLines s) = packet := by
  cases hset.state_cases hs with
  | inl hnil =>
      subst hnil
      rfl
  | inr hcons =>
      obtain ⟨w, rfl, hcr, hw⟩ := hcons
      cases hw with
      | inl hnil =>
          subst hnil
          rfl
      | inr hlf =>
          obtain ⟨u, rfl⟩ := hlf
          have hu : cr ∉ u := fun hu => hcr (List.mem_cons_of_mem _ hu)
          rw [headerLines_crlf, crlf, split_of_notMem hu]
          by_cases hpat : IsPattern ps (cr :: lf :: u)
          · have hline := hset.lineHeader_eq hpat []
            rw [List.append_nil] at hline
            simp [sourceFold, noticedLines, cutOff, hline]
          · have hline : lineHeader ps u = none :=
              hset.lineHeader_eq_none hs hpat (fun p _ hp => hp)
            rw [sourceFold_cons_of_none hline]
            rfl

theorem HeaderSet.sourceFold_hit (hset : HeaderSet ps) (hs : IsPattern ps s)
    (hsplit : split crlf (c :: r) = v :: rest) (packet : Packet) :
    sourceFold ps packet (headerLines (s ++ c :: r)) =
      sourceFold ps (Function.update packet (mark ps s).ife (some (keptValue v))) rest := by
  obtain ⟨p, hp, rfl⟩ := hs
  obtain ⟨hshape, hcr⟩ := hset.shape p hp
  have hpat : IsPattern ps (cr :: lf :: p.str.drop 2) := ⟨p, hp, hshape⟩
  have hlines : headerLines (p.str ++ c :: r) = (p.str.drop 2 ++ v) :: rest := by
    rw [hshape, List.cons_append, List.cons_append, headerLines_crlf, crlf,
      split_append_of_notMem hcr]
    change (split crlf (c :: r)).modifyHead _ = _
    rw [hsplit]
    rfl
  have hnoticed : v ≠ [] ∨ rest ≠ [] := by
    cases split_eq_cons (List.cons_ne_nil _ _) hsplit with
    | inl hlast =>
        rw [← hlast.2]
        exact Or.inl (List.cons_ne_nil _ _)
    | inr hmore =>
        obtain ⟨ys, -, hys⟩ := hmore
        rw [← hys]
        exact Or.inr (split_ne_nil _ _)
  rw [hlines, sourceFold_cons_of_some (hset.lineHeader_eq hpat v) hnoticed, ← hshape]

theorem HeaderSet.mark_restart (hset : HeaderSet ps) (c : Int8) :
    (mark ps (restart c)).leaf = false := by
  rw [Bool.eq_false_iff, ne_eq, mark_leaf_iff]
  rintro ⟨p, hp, hs⟩
  have hlen := congrArg List.length hs
  rw [(hset.shape p hp).1, restart] at hlen
  split at hlen <;> simp at hlen

theorem HeaderSet.stuck (hset : HeaderSet ps) (hs : IsPattern ps s) (c : Int8) :
    ¬ PatternPrefix ps (s ++ [c]) := by
  obtain ⟨p, hp, rfl⟩ := hs
  intro hpre
  cases hpre with
  | inl hnil => exact absurd hnil (by simp)
  | inr hq =>
      obtain ⟨q, hq, hpq⟩ := hq
      have heq := (hset.prefixFree p hp q hq ((List.prefix_append _ _).trans hpq)).1
      have hlen := hpq.length_le
      rw [← heq, List.length_append, List.length_singleton] at hlen
      omega

/-- The loop computes the fold over the lines of the text in front of it. The
measure counts two turns for each byte left, and one for a header just completed:
an empty value is passed without moving on. -/
theorem HeaderSet.parseLoop_eq (hset : HeaderSet ps) {dtgr : Bytes} (fuel : Nat) {dma : Dma}
    (h : Automaton ps paths dma) {n i : Nat} {s : Bytes} (hi : paths[i]? = some s)
    (hn : n ≤ dtgr.length)
    (enough : 2 * (dtgr.length - n) + (mark ps s).leaf.toNat < fuel) (packet : Packet) :
    ∃ dma', parseLoop dtgr fuel n i dma packet =
        some (sourceFold ps packet (headerLines (s ++ dtgr.drop n)), dma') ∧
      Automaton ps paths dma' := by
  induction fuel generalizing dma n i s packet with
  | zero => omega
  | succ fuel ih =>
      have mem_eq : (fun s => s ∈ paths) = PatternPrefix ps := by
        funext s
        exact propext (h.strings s)
      have hs : PatternPrefix ps s := (h.strings s).mp (List.mem_of_getElem? hi)
      cases hdrop : dtgr.drop n with
      | nil =>
          have hle : dtgr.length ≤ n := List.drop_eq_nil_iff.mp hdrop
          have hge : ¬ (n : Int) < dtgr.length := by omega
          rw [parseLoop, if_neg hge, List.append_nil, hset.sourceFold_end hs]
          exact ⟨dma, rfl, h⟩
      | cons c r =>
          have hlen := congrArg List.length hdrop
          rw [List.length_drop, List.length_cons] at hlen
          obtain ⟨x, hx, hright⟩ := h.vertex hi
          have hvertex : vertexAt dma i = some x := by simpa using hx
          obtain ⟨dma₁, hleaf, h₁⟩ := hset.leafReached h hi hx
          obtain ⟨u, dma₂, hgo, h₂, t, ⟨j, rfl, hj⟩, ht⟩ := h₁.go hi c
          rw [mem_eq] at ht
          cases hmark : (mark ps s).leaf with
          | false =>
              have incomplete : ¬ IsPattern ps s := by
                rw [← mark_leaf_iff, hmark]
                exact Bool.false_ne_true
              rw [hmark] at hleaf
              have htoNat := Bool.toNat_le (mark ps t).leaf
              obtain ⟨dma', hrun, h'⟩ := ih h₂ (n := n + 1) hj (by omega) (by omega) packet
              refine ⟨dma', ?_, h'⟩
              have hnext : dtgr.drop (n + 1) = r := by
                rw [← List.drop_drop, hdrop, List.drop_one, List.tail_cons]
              rw [parseLoop_miss hdrop hvertex hleaf hgo, hrun, hnext,
                hset.sourceFold_step hs incomplete ht]
          | true =>
              have hpat : IsPattern ps s := (mark_leaf_iff ps s).mp hmark
              rw [hmark] at hleaf
              rw [hmark, Bool.toNat_true] at enough
              obtain ⟨v, rest, hsplit⟩ :=
                List.exists_cons_of_ne_nil (split_ne_nil crlf (c :: r))
              have hrestart : t = restart c := hset.restart_eq hs (hset.stuck hpat c) ht
              have hv : v.length ≤ (c :: r).length :=
                (prefix_of_split_eq_cons (List.cons_ne_nil _ _) hsplit).length_le
              rw [List.length_cons] at hv
              have hfuel : 2 * (dtgr.length - (n + v.length)) + (mark ps t).leaf.toNat < fuel := by
                rw [hrestart, hset.mark_restart, Bool.toNat_false]
                omega
              obtain ⟨dma', hrun, h'⟩ := ih h₂ (n := n + v.length) hj (by omega) hfuel
                (Function.update packet x.ife (some (keptValue v)))
              refine ⟨dma', ?_, h'⟩
              rw [parseLoop_hit hdrop hsplit hvertex hleaf hgo, hrun, hset.sourceFold_hit hpat hsplit,
                hrestart, ← List.drop_drop, hdrop, headerLines_restart_drop hsplit, hright.ife]

/-- `parse_ssdp_datagram` returns, and returns what it notices of the header lines,
whatever the automaton has been used for before. -/
theorem HeaderSet.parseSsdpDatagram_eq (hset : HeaderSet ps) (h : Automaton ps paths dma)
    (dtgr : Bytes) :
    ∃ dma', parseSsdpDatagram dtgr dma =
        some (sourceFold ps (fun _ => none) (headerLines dtgr), dma') ∧
      Automaton ps paths dma' := by
  have hroot : (mark ps ([] : Bytes)).leaf = false := by
    rw [Bool.eq_false_iff, ne_eq, mark_leaf_iff]
    exact hset.not_isPattern_nil
  have enough : 2 * (dtgr.length - 0) + (mark ps ([] : Bytes)).leaf.toNat <
      2 * dtgr.length + 1 := by
    rw [hroot, Bool.toNat_false]
    omega
  have := hset.parseLoop_eq (2 * dtgr.length + 1) h h.trie.root (Nat.zero_le _) enough
    (fun _ => none)
  simpa [parseSsdpDatagram] using this

end

end SubutaiTray.Ssdp
