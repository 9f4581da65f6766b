import SubutaiTray.Ssdp.Parsing

/-!
`parse_ssdp_datagram` as the controller calls it, compared with the reference
parser.

Every datagram that was handled before may have filled caches of the automata, so
the statement is about all controllers a run can reach. Two things separate the
source from the reference: the loop over leading spaces stops at the last byte of
a value, and a header is looked at only when another byte follows it.
-/
namespace SubutaiTray.Ssdp

open Splitting

theorem initDma_automaton (t : SsdpMsgType) :
    ∃ dma paths, initDma t = some dma ∧ Automaton (headerPatterns t) paths dma := by
  obtain ⟨dma₀, paths, hbuild, h⟩ := built_build (headerPatterns t)
  let calls := (List.range dma₀.length).map fun j : Nat => Call.getLink j
  have valid : ∀ call ∈ calls, 0 ≤ call.vertex ∧ call.vertex < dma₀.length := by
    intro call hcall
    obtain ⟨j, hj, rfl⟩ := List.mem_map.mp hcall
    have := List.mem_range.mp hj
    exact ⟨Int.natCast_nonneg j, by simpa [Call.vertex] using this⟩
  obtain ⟨dma, hrun, hauto⟩ :=
    h.automaton.runCalls (headerSet_headerPatterns t).not_isPattern_nil calls valid
  refine ⟨dma, paths, ?_, hauto⟩
  rw [runCalls, List.foldlM_map] at hrun
  rw [initDma, hbuild]
  exact hrun

def Controller.Right (c : Controller) : Prop :=
  ∀ t, ∃ paths, Automaton (headerPatterns t) paths (c.dma t)

theorem Controller.new_right : ∃ c, Controller.new = some c ∧ c.Right := by
  obtain ⟨notify, pathsN, hnotify, hN⟩ := initDma_automaton .smtNotify
  obtain ⟨search, pathsS, hsearch, hS⟩ := initDma_automaton .smtSearch
  obtain ⟨ok, pathsO, hok, hO⟩ := initDma_automaton .smtOk
  refine ⟨⟨notify, search, ok⟩, by simp [Controller.new, hnotify, hsearch, hok], ?_⟩
  intro t
  cases t with
  | smtNotify => exact ⟨pathsN, hN⟩
  | smtSearch => exact ⟨pathsS, hS⟩
  | smtOk => exact ⟨pathsO, hO⟩

theorem Controller.Right.parse {c : Controller} (h : c.Right) (t : SsdpMsgType) (dtgr : Bytes) :
    ∃ dma' paths, parseSsdpDatagram dtgr (c.dma t) =
        some (sourceFold (headerPatterns t) (fun _ => none) (headerLines dtgr), dma') ∧
      Automaton (headerPatterns t) paths dma' := by
  obtain ⟨paths, hauto⟩ := h t
  obtain ⟨dma', hrun, h'⟩ := (headerSet_headerPatterns t).parseSsdpDatagram_eq hauto dtgr
  exact ⟨dma', paths, hrun, h'⟩

theorem Controller.Right.handle {c : Controller} (h : c.Right) (dtgr : Bytes) :
    ∃ found c', handleSsdpPacket dtgr c = some (found, c') ∧ c'.Right := by
  rw [handleSsdpPacket]
  split
  · obtain ⟨dma', paths, hrun, h'⟩ := h.parse .smtNotify dtgr
    refine ⟨none, { c with akNotifyDma := dma' }, ?_, ?_⟩
    · simp only [Controller.dma] at hrun
      simp [handleSsdpNotify, hrun]
    · intro t
      cases t with
      | smtNotify => exact ⟨paths, h'⟩
      | smtSearch => exact h .smtSearch
      | smtOk => exact h .smtOk
  · split
    · exact ⟨none, c, rfl, h⟩
    · split
      · obtain ⟨dma', paths, hrun, h'⟩ := h.parse .smtOk dtgr
        let packet := sourceFold (headerPatterns .smtOk) (fun _ => none) (headerLines dtgr)
        refine ⟨foundDevice packet, { c with akOkDma := dma' }, ?_, ?_⟩
        · simp only [Controller.dma] at hrun
          simp [hanvleSsdpOk, hrun, packet]
        · intro t
          cases t with
          | smtNotify => exact h .smtNotify
          | smtSearch => exact h .smtSearch
          | smtOk => exact ⟨paths, h'⟩
      · exact ⟨none, c, rfl, h⟩

theorem Controller.Right.processPendingDatagrams {c : Controller} (h : c.Right)
    (dtgrs : List Bytes) :
    ∃ c', Ssdp.processPendingDatagrams dtgrs c = some c' ∧ c'.Right := by
  induction dtgrs generalizing c with
  | nil => exact ⟨c, rfl, h⟩
  | cons dtgr dtgrs ih =>
      obtain ⟨found, c₁, hrun, h₁⟩ := h.handle dtgr
      obtain ⟨c₂, hrun₂, h₂⟩ := ih h₁
      refine ⟨c₂, ?_, h₂⟩
      rw [Ssdp.processPendingDatagrams, List.foldlM_cons, hrun]
      exact hrun₂

def fieldValue (ps : List Pattern) (f : InterestedField) (line : Bytes) : Option Bytes :=
  match lineHeader ps line with
  | some (g, rest) => if g = f then some rest else none
  | none => none

def fieldValues (ps : List Pattern) (f : InterestedField) (lines : List Bytes) : List Bytes :=
  lines.filterMap (fieldValue ps f)

def BlankOnly (rest : Bytes) : Prop := rest ≠ [] ∧ ∀ b ∈ rest, b = space

def EndsAt (ps : List Pattern) (f : InterestedField) (lines : List Bytes) : Prop :=
  ∃ line, lines.getLast? = some line ∧ lineHeader ps line = some (f, [])

/-- No field's last line is blank behind its header, and a header at the very end of
the datagram only repeats a header line with nothing behind it. -/
def HeadersReadable (ps : List Pattern) (dtgr : Bytes) : Prop :=
  ∀ f, (∀ rest, (fieldValues ps f (headerLines dtgr)).getLast? = some rest → ¬ BlankOnly rest) ∧
    (EndsAt ps f (headerLines dtgr) →
      (fieldValues ps f (headerLines dtgr).dropLast).getLast? = some [])

section
variable {ps : List Pattern} {f : InterestedField} {lines : List Bytes}

theorem fieldValues_concat (ps : List Pattern) (f : InterestedField) (lines : List Bytes)
    (line : Bytes) :
    fieldValues ps f (lines ++ [line]) =
      fieldValues ps f lines ++ (fieldValue ps f line).toList := by
  rw [fieldValues, List.filterMap_append]
  cases h : fieldValue ps f line <;> simp [fieldValues, h]

theorem bindLine_apply (value : Bytes → Bytes) (ps : List Pattern) (packet : Packet)
    (line : Bytes) (f : InterestedField) :
    bindLine value ps packet line f = ((fieldValue ps f line).map value).or (packet f) := by
  rw [bindLine, fieldValue]
  cases lineHeader ps line with
  | none => rfl
  | some found =>
      obtain ⟨g, rest⟩ := found
      by_cases hg : g = f
      · subst hg
        simp
      · have hfg : f ≠ g := fun h => hg h.symm
        simp [hg, Function.update_of_ne hfg]

theorem foldl_bindLine (value : Bytes → Bytes) (ps : List Pattern) (lines : List Bytes)
    (packet : Packet) (f : InterestedField) :
    lines.foldl (bindLine value ps) packet f =
      ((fieldValues ps f lines).getLast?.map value).or (packet f) := by
  induction lines using List.reverseRecOn with
  | nil => rfl
  | append_singleton lines line ih =>
      rw [List.foldl_append, List.foldl_cons, List.foldl_nil, bindLine_apply, ih,
        fieldValues_concat]
      cases fieldValue ps f line <;> simp

theorem noticedLines_concat (ps : List Pattern) (lines : List Bytes) (line : Bytes) :
    noticedLines ps (lines ++ [line]) =
      if cutOff ps line then lines else lines ++ [line] := by
  induction lines with
  | nil => rfl
  | cons line' lines ih =>
      cases lines with
      | nil =>
          simp only [List.nil_append, noticedLines] at ih
          simp only [List.cons_append, List.nil_append, noticedLines]
          split <;> rfl
      | cons line'' lines =>
          rw [List.cons_append, List.cons_append, noticedLines, ← List.cons_append, ih]
          split <;> rfl

theorem keptValue_eq_nil (rest : Bytes) : keptValue rest = [] ↔ rest = [] := by
  induction rest using keptValue.induct with
  | case1 => simp [keptValue]
  | case2 b => simp [keptValue]
  | case3 b' v ih => simpa [keptValue] using ih
  | case4 b b' v hb => simp [keptValue, hb]

theorem keptValue_eq_dropSpaces (rest : Bytes) :
    keptValue rest = dropSpaces rest ↔ ¬ BlankOnly rest := by
  induction rest using keptValue.induct with
  | case1 => simp [keptValue, dropSpaces, BlankOnly]
  | case2 b =>
      by_cases hb : b = space <;> simp [keptValue, dropSpaces, BlankOnly, hb]
  | case3 b' v ih =>
      have hdrop : dropSpaces (space :: b' :: v) = dropSpaces (b' :: v) := by
        simp [dropSpaces]
      rw [keptValue, if_pos rfl, hdrop, ih]
      simp [BlankOnly]
  | case4 b b' v hb => simp [keptValue, dropSpaces, BlankOnly, hb]

theorem cutOff_iff (ps : List Pattern) (line : Bytes) :
    cutOff ps line = true ↔ ∃ g, lineHeader ps line = some (g, []) := by
  rw [cutOff]
  split
  · exact ⟨fun _ => ⟨_, ‹_›⟩, fun _ => rfl⟩
  · rename_i hno
    apply iff_of_false Bool.false_ne_true
    intro h
    obtain ⟨g, hg⟩ := h
    exact hno g hg

theorem map_keptValue_eq (o : Option Bytes) :
    o.map keptValue = o.map dropSpaces ↔ ∀ rest, o = some rest → ¬ BlankOnly rest := by
  cases o with
  | none => simp
  | some rest => simp [keptValue_eq_dropSpaces]

theorem endsAt_concat (ps : List Pattern) (f : InterestedField) (lines : List Bytes)
    (line : Bytes) :
    EndsAt ps f (lines ++ [line]) ↔ lineHeader ps line = some (f, []) := by
  simp [EndsAt]

theorem sourceFold_eq_at (ps : List Pattern) (f : InterestedField) (lines : List Bytes) :
    sourceFold ps (fun _ => none) lines f =
        lines.foldl (bindLine dropSpaces ps) (fun _ => none) f ↔
      (∀ rest, (fieldValues ps f lines).getLast? = some rest → ¬ BlankOnly rest) ∧
        (EndsAt ps f lines → (fieldValues ps f lines.dropLast).getLast? = some []) := by
  rw [sourceFold, foldl_bindLine, foldl_bindLine, Option.or_none, Option.or_none]
  cases List.eq_nil_or_concat lines with
  | inl hnil =>
      subst hnil
      simp [noticedLines, fieldValues, EndsAt]
  | inr hconcat =>
      obtain ⟨init, line, rfl⟩ := hconcat
      rw [List.concat_eq_append, noticedLines_concat, endsAt_concat, List.dropLast_concat]
      by_cases hcut : cutOff ps line = true
      · rw [if_pos hcut]
        obtain ⟨g, hg⟩ := (cutOff_iff ps line).mp hcut
        by_cases hgf : g = f
        · -- the header at the end is the last one of its field, and it is lost
          subst hgf
          have hvalue : fieldValue ps g line = some [] := by simp [fieldValue, hg]
          rw [fieldValues_concat, hvalue]
          cases (fieldValues ps g init).getLast? with
          | none => simp [hg]
          | some rest => simp [hg, keptValue_eq_nil, BlankOnly, dropSpaces]
        · have hvalue : fieldValue ps f line = none := by simp [fieldValue, hg, hgf]
          have hother : ¬ lineHeader ps line = some (f, []) := by simp [hg, hgf]
          rw [fieldValues_concat, hvalue, Option.toList_none, List.append_nil, map_keptValue_eq]
          simp [hother]
      · have hother : ¬ lineHeader ps line = some (f, []) :=
          fun h => hcut ((cutOff_iff ps line).mpr ⟨f, h⟩)
        rw [if_neg hcut, map_keptValue_eq]
        simp [hother]

end

/-- In every run of the controller parsing returns, and it returns the packet of the
reference parser for exactly the readable datagrams. -/
theorem parseSsdpDatagram_eq_reference_iff (earlier : List Bytes) (t : SsdpMsgType)
    (dtgr : Bytes) :
    ∃ c₀ c dctPacket dma', Controller.new = some c₀ ∧
      processPendingDatagrams earlier c₀ = some c ∧
      parseSsdpDatagram dtgr (c.dma t) = some (dctPacket, dma') ∧
      (dctPacket = referencePacket (headerPatterns t) dtgr ↔
        HeadersReadable (headerPatterns t) dtgr) := by
  obtain ⟨c₀, hnew, h₀⟩ := Controller.new_right
  obtain ⟨c, hrun, h⟩ := h₀.processPendingDatagrams earlier
  obtain ⟨dma', -, hparse, -⟩ := h.parse t dtgr
  refine ⟨c₀, c, _, dma', hnew, hrun, hparse, ?_⟩
  rw [funext_iff, referencePacket, HeadersReadable]
  exact forall_congr' fun f => sourceFold_eq_at (headerPatterns t) f (headerLines dtgr)

/-- A device answers with a search target that is one space: the source binds the
space where the reference parser binds nothing but the empty value. -/
theorem parseSsdpDatagram_blank_value :
    ∃ c dctPacket dma', Controller.new = some c ∧
      parseSsdpDatagram (ascii "HTTP/1.1 200 OK\r\nST: \r\n\r\n") c.akOkDma =
        some (dctPacket, dma') ∧
      dctPacket .ifeSt = some [space] ∧
      referencePacket (headerPatterns .smtOk)
        (ascii "HTTP/1.1 200 OK\r\nST: \r\n\r\n") .ifeSt = some [] ∧
      dctPacket ≠ referencePacket (headerPatterns .smtOk)
        (ascii "HTTP/1.1 200 OK\r\nST: \r\n\r\n") := by
  obtain ⟨c, hnew, h⟩ := Controller.new_right
  obtain ⟨dma', -, hparse, -⟩ := h.parse .smtOk (ascii "HTTP/1.1 200 OK\r\nST: \r\n\r\n")
  have hsource : sourceFold (headerPatterns .smtOk) (fun _ => none)
      (headerLines (ascii "HTTP/1.1 200 OK\r\nST: \r\n\r\n")) .ifeSt = some [space] := by
    decide +kernel
  have hreference : referencePacket (headerPatterns .smtOk)
      (ascii "HTTP/1.1 200 OK\r\nST: \r\n\r\n") .ifeSt = some [] := by
    decide +kernel
  refine ⟨c, _, dma', hnew, hparse, hsource, hreference, ?_⟩
  intro heq
  rw [heq, hreference] at hsource
  exact absurd hsource (by decide)

end SubutaiTray.Ssdp
