import SubutaiTray.Library.Splitting
import SubutaiTray.Ssdp.AhoCorasick
import SubutaiTray.Ssdp.Datagram

/-!
What `parse_ssdp_datagram` reads out of a datagram, as a statement about lines.

The automaton is run over a part of the datagram only: the bytes of a value are
skipped. The text that matters at any moment is the string of the current vertex
followed by the bytes not yet read, and every turn of the loop keeps the header
lines of that text. The reference parser splits the datagram first and looks at
one line at a time.
-/
namespace SubutaiTray.Ssdp

open SuffixMatching Splitting

def crlf : Bytes := [cr, lf]

/-- The lines that are preceded by CR LF. -/
def headerLines (text : Bytes) : List Bytes := (split crlf text).tail

/-- The field of the header string that the line begins with, and the remainder of
the line behind it. The header strings contain the CR LF before the line. -/
def lineHeader (ps : List Pattern) (line : Bytes) : Option (InterestedField × Bytes) :=
  (ps.find? fun p => p.str.isPrefixOf (crlf ++ line)).map
    fun p => (p.ife, (crlf ++ line).drop p.str.length)

def bindLine (value : Bytes → Bytes) (ps : List Pattern) (packet : Packet) (line : Bytes) :
    Packet :=
  match lineHeader ps line with
  | some (f, rest) => Function.update packet f (some (value rest))
  | none => packet

def dropSpaces (rest : Bytes) : Bytes := rest.dropWhile (· == space)

/-- The reference parser. -/
def referencePacket (ps : List Pattern) (dtgr : Bytes) : Packet :=
  (headerLines dtgr).foldl (bindLine dropSpaces ps) (fun _ => none)

/-- What the source makes of the remainder of a line: leading spaces are dropped,
but never its last byte. -/
def keptValue : Bytes → Bytes
  | [] => []
  | [b] => [b]
  | b :: b' :: v => if b = space then keptValue (b' :: v) else b :: b' :: v

def cutOff (ps : List Pattern) (line : Bytes) : Bool :=
  match lineHeader ps line with
  | some (_, []) => true
  | _ => false

def noticedLines (ps : List Pattern) : List Bytes → List Bytes
  | [] => []
  | [line] => if cutOff ps line then [] else [line]
  | line :: line' :: lines => line :: noticedLines ps (line' :: lines)

def sourceFold (ps : List Pattern) (packet : Packet) (lines : List Bytes) : Packet :=
  (noticedLines ps lines).foldl (bindLine keptValue ps) packet

/-- The shape of the header tables: every header is CR LF and a name without CR,
and no header is a prefix of another one. -/
structure HeaderSet (ps : List Pattern) : Prop where
  shape : ∀ p ∈ ps, p.str = cr :: lf :: p.str.drop 2 ∧ cr ∉ p.str.drop 2
  prefixFree : ∀ p ∈ ps, ∀ q ∈ ps, p.str <+: q.str → p.str = q.str ∧ p.ife = q.ife
  inhabited : ps ≠ []

theorem headerSet_headerPatterns (t : SsdpMsgType) : HeaderSet (headerPatterns t) := by
  cases t <;> exact ⟨by decide +kernel, by decide +kernel, by decide +kernel⟩

section
variable {ps : List Pattern} {s t : Bytes} {c : Int8} {text : Bytes}

theorem headerLines_crlf (text : Bytes) :
    headerLines (cr :: lf :: text) = split crlf text := by
  have : split crlf (crlf ++ text) = [] :: split crlf text :=
    split_sep_append (List.cons_ne_nil _ _) text
  exact congrArg List.tail this

theorem headerLines_append (hs : cr ∉ s) (text : Bytes) :
    headerLines (s ++ text) = headerLines text :=
  tail_split_append hs [lf] text

theorem headerLines_cr_cons (hc : c ≠ lf) (text : Bytes) :
    headerLines (cr :: c :: text) = headerLines (c :: text) := by
  have h : ¬ crlf <+: cr :: c :: text := by
    simp only [crlf, List.cons_prefix_cons, true_and]
    exact fun h => hc h.1.symm
  rw [headerLines, split_cons_of_not h, List.tail_modifyHead]
  rfl

def restart (c : Int8) : Bytes := if c = cr then [cr] else []

theorem headerLines_restart (c : Int8) (text : Bytes) :
    headerLines (restart c ++ text) = headerLines (c :: text) := by
  by_cases hc : c = cr
  · subst hc
    rfl
  · rw [restart, if_neg hc, List.nil_append]
    exact (headerLines_append (s := [c]) (by simpa using fun h => hc h.symm) text).symm

theorem HeaderSet.state_cases (h : HeaderSet ps) (hs : PatternPrefix ps s) :
    s = [] ∨ ∃ v, s = cr :: v ∧ cr ∉ v ∧ (v = [] ∨ ∃ u, v = lf :: u) := by
  rcases hs with rfl | ⟨p, hp, hsp⟩
  · exact Or.inl rfl
  · obtain ⟨hshape, hcr⟩ := h.shape p hp
    rw [hshape] at hsp
    rcases List.prefix_cons_iff.mp hsp with rfl | ⟨v, rfl, hv⟩
    · exact Or.inl rfl
    · rcases List.prefix_cons_iff.mp hv with rfl | ⟨u, rfl, hu⟩
      · exact Or.inr ⟨[], rfl, List.not_mem_nil, Or.inl rfl⟩
      · refine Or.inr ⟨lf :: u, rfl, ?_, Or.inr ⟨u, rfl⟩⟩
        rw [List.mem_cons]
        rintro (hlf | hu')
        · exact absurd hlf (by decide)
        · exact hcr (hu.subset hu')

theorem HeaderSet.patternPrefix_crlf (h : HeaderSet ps) : PatternPrefix ps crlf := by
  obtain ⟨p, hp⟩ := List.exists_mem_of_ne_nil ps h.inhabited
  refine Or.inr ⟨p, hp, ?_⟩
  rw [(h.shape p hp).1]
  exact ⟨p.str.drop 2, rfl⟩

theorem HeaderSet.patternPrefix_cr (h : HeaderSet ps) : PatternPrefix ps [cr] := by
  rcases h.patternPrefix_crlf with hnil | ⟨p, hp, hpre⟩
  · exact absurd hnil (List.cons_ne_nil _ _)
  · exact Or.inr ⟨p, hp, (List.prefix_append [cr] [lf]).trans hpre⟩

theorem HeaderSet.not_isPattern_nil (h : HeaderSet ps) : ¬ IsPattern ps [] := by
  rintro ⟨p, hp, hs⟩
  have := (h.shape p hp).1
  rw [hs] at this
  exact absurd this (by simp)

/-- No header ends inside another one, so `nearest` never finds anything. -/
theorem HeaderSet.eq_of_suffix (h : HeaderSet ps) (hs : PatternPrefix ps s)
    (ht : IsPattern ps t) (hts : t <:+ s) : t = s := by
  obtain ⟨p, hp, rfl⟩ := ht
  have hmem : cr ∈ p.str := by
    rw [(h.shape p hp).1]
    exact List.mem_cons_self
  rcases h.state_cases hs with rfl | ⟨v, rfl, hv, -⟩
  · exact List.suffix_nil.mp hts
  · rcases List.suffix_cons_iff.mp hts with heq | hsub
    · exact heq
    · exact absurd (hsub.subset hmem) hv

theorem HeaderSet.restart_eq (h : HeaderSet ps) (hs : PatternPrefix ps s)
    (stuck : ¬ PatternPrefix ps (s ++ [c])) (ht : LongestSuffix (PatternPrefix ps) t (s ++ [c])) :
    t = restart c := by
  rcases h.state_cases ht.holds with rfl | ⟨w, rfl, -, -⟩
  · have hc : c ≠ cr := by
      rintro rfl
      have := ht.longest [cr] h.patternPrefix_cr (List.suffix_append s [cr])
      simp at this
    rw [restart, if_neg hc]
  · rcases List.suffix_concat_iff.mp ht.suffix with hnil | ⟨t', heq, ht'⟩
    · exact absurd hnil (List.cons_ne_nil _ _)
    · cases t' with
      | nil =>
          obtain ⟨rfl, rfl⟩ : c = cr ∧ w = [] := by simpa [eq_comm] using heq
          rfl
      | cons b t' =>
          obtain ⟨rfl, rfl⟩ : cr = b ∧ w = t' ++ [c] := by simpa using heq
          -- a suffix of the state that begins with CR is the whole state
          rcases h.state_cases hs with rfl | ⟨v, rfl, hv, -⟩
          · exact absurd (List.suffix_nil.mp ht') (List.cons_ne_nil _ _)
          · rcases List.suffix_cons_iff.mp ht' with hwhole | hsub
            · rw [← hwhole] at stuck
              exact absurd ht.holds stuck
            · exact absurd (hsub.subset List.mem_cons_self) hv

/-- A line that leaves the headers before its first header is complete begins with
none of them. -/
theorem HeaderSet.lineHeader_eq_none (h : HeaderSet ps) {u line : Bytes}
    (hs : PatternPrefix ps (cr :: lf :: u)) (incomplete : ¬ IsPattern ps (cr :: lf :: u))
    (leaves : ∀ p ∈ ps, p.str <+: crlf ++ line → p.str <+: cr :: lf :: u) :
    lineHeader ps line = none := by
  rw [lineHeader, Option.map_eq_none_iff, List.find?_eq_none]
  intro p hp hpl
  have hpu := leaves p hp (by simpa using hpl)
  rcases hs with hnil | ⟨q, hq, hsq⟩
  · exact List.cons_ne_nil _ _ hnil
  · have heq := (h.prefixFree p hp q hq (hpu.trans hsq)).1
    refine incomplete ⟨p, hp, ?_⟩
    exact hpu.eq_of_length_le (by rw [heq]; exact hsq.length_le)

theorem HeaderSet.lineHeader_eq (h : HeaderSet ps) {u : Bytes}
    (hs : IsPattern ps (cr :: lf :: u)) (v : Bytes) :
    lineHeader ps (u ++ v) = some ((mark ps (cr :: lf :: u)).ife, v) := by
  obtain ⟨q, hq, hqs, hife⟩ := mark_ife hs
  have hpre : q.str <+: crlf ++ (u ++ v) := by
    rw [hqs]
    exact List.prefix_append (cr :: lf :: u) v
  rw [lineHeader]
  cases hfind : ps.find? fun p => p.str.isPrefixOf (crlf ++ (u ++ v)) with
  | none =>
      have := List.find?_eq_none.mp hfind q hq
      exact absurd (List.isPrefixOf_iff_prefix.mpr hpre) this
  | some p =>
      have hp : p ∈ ps := List.mem_of_find?_eq_some hfind
      have hpre' : p.str <+: crlf ++ (u ++ v) :=
        List.isPrefixOf_iff_prefix.mp (by simpa using List.find?_some hfind)
      have heq : p.str = q.str ∧ p.ife = q.ife := by
        cases List.prefix_or_prefix_of_prefix hpre' hpre with
        | inl hpq => exact h.prefixFree p hp q hq hpq
        | inr hqp =>
            have hback := h.prefixFree q hq p hp hqp
            exact ⟨hback.1.symm, hback.2.symm⟩
      rw [Option.map_some, heq.1, heq.2, hqs, hife]
      simp [crlf]

theorem sourceFold_cons_of_none {line : Bytes} (hline : lineHeader ps line = none)
    (packet : Packet) (lines : List Bytes) :
    sourceFold ps packet (line :: lines) = sourceFold ps packet lines := by
  cases lines with
  | nil => simp [sourceFold, noticedLines, cutOff, bindLine, hline]
  | cons line' lines => simp [sourceFold, noticedLines, bindLine, hline]

theorem sourceFold_cons_of_some {line rest : Bytes} {f : InterestedField} {lines : List Bytes}
    (hline : lineHeader ps line = some (f, rest)) (noticed : rest ≠ [] ∨ lines ≠ [])
    (packet : Packet) :
    sourceFold ps packet (line :: lines) =
      sourceFold ps (Function.update packet f (some (keptValue rest))) lines := by
  cases lines with
  | nil =>
      have hrest : rest ≠ [] := noticed.resolve_right (fun h => h rfl)
      simp [sourceFold, noticedLines, cutOff, bindLine, hline, hrest]
  | cons line' lines => simp [sourceFold, noticedLines, bindLine, hline]

theorem HeaderSet.sourceFold_step (h : HeaderSet ps) (hs : PatternPrefix ps s)
    (incomplete : ¬ IsPattern ps s) (ht : LongestSuffix (PatternPrefix ps) t (s ++ [c]))
    (packet : Packet) (text : Bytes) :
    sourceFold ps packet (headerLines (t ++ text)) =
      sourceFold ps packet (headerLines (s ++ c :: text)) := by
  by_cases grows : PatternPrefix ps (s ++ [c])
  · rw [ht.unique (.self grows)]
    simp
  · rw [h.restart_eq hs grows ht, headerLines_restart]
    rcases h.state_cases hs with rfl | ⟨v, rfl, hv, rfl | ⟨u, rfl⟩⟩
    · rfl
    · have hc : c ≠ lf := by
        rintro rfl
        exact grows h.patternPrefix_crlf
      rw [List.singleton_append, headerLines_cr_cons hc]
    · have hu : cr ∉ u := fun hu => hv (List.mem_cons_of_mem _ hu)
      rw [List.cons_append, List.cons_append, headerLines_crlf]
      obtain ⟨line, lines, hsplit⟩ :=
        List.exists_cons_of_ne_nil (split_ne_nil crlf (u ++ c :: text))
      have htail : headerLines (c :: text) = lines := by
        rw [← headerLines_append hu, headerLines, hsplit]
        rfl
      have hline : line <+: u ++ c :: text :=
        prefix_of_split_eq_cons (List.cons_ne_nil _ _) hsplit
      -- a header in front of this line would have to be longer than `u ++ [c]`
      have hnone : lineHeader ps line = none := by
        refine h.lineHeader_eq_none hs incomplete ?_
        intro p hp hpl
        have hpt : p.str <+: (cr :: lf :: u ++ [c]) ++ text := by
          refine hpl.trans ?_
          simpa [crlf] using hline
        rcases List.prefix_or_prefix_of_prefix hpt (List.prefix_append _ text) with hle | hge
        · rcases List.prefix_concat_iff.mp hle with heq | hle
          · exact absurd (Or.inr ⟨p, hp, by rw [heq]⟩) grows
          · exact hle
        · exact absurd (Or.inr ⟨p, hp, hge⟩) grows
      rw [hsplit, htail, sourceFold_cons_of_none hnone]

end

end SubutaiTray.Ssdp
