import SubutaiTray.Ssdp.ControllerRuns

/-!
The reads of `parse_ssdp_datagram`.

The same loops as in the parser, by index: every index at which `dtgr.data()` is read is
recorded, and what lies around the datagram may be anything. Whenever the parser returns, so do
these loops, with the same packet and with reads inside the datagram.
-/
namespace SubutaiTray.Ssdp

/-- The memory behind `dtgr.data()`. -/
structure Buffer (dtgr : Bytes) where
  data : Int → Int8
  inside : ∀ i b, byteAt dtgr i = some b → data i = b

/-- The datagram between zeros. -/
instance (dtgr : Bytes) : Inhabited (Buffer dtgr) :=
  ⟨{ data := fun i => (byteAt dtgr i).getD 0
     inside := by
       intro i b h
       rw [h, Option.getD_some] }⟩

def InRange (dtgr : Bytes) (reads : List Int) : Prop := ∀ i ∈ reads, 0 ≤ i ∧ i < dtgr.length

namespace Buffer

variable {dtgr : Bytes} (m : Buffer dtgr)

/-- `for (; i < size - 1; ++i)`. The second byte is read only after a CR. -/
def valueEnd : Nat → Int → List Int → Option (Int × List Int)
  | 0, _, _ => none
  | fuel + 1, i, reads =>
      if i < dtgr.length - 1 then
        if m.data i = cr then
          if m.data (i + 1) = lf then some (i - 1, (i + 1) :: i :: reads)
          else valueEnd fuel (i + 1) ((i + 1) :: i :: reads)
        else valueEnd fuel (i + 1) (i :: reads)
      else some (i, reads)

/-- `for (; k < i; ++k)` -/
def skipSpaces : Nat → Int → Int → List Int → Option (Int × List Int)
  | 0, _, _, _ => none
  | fuel + 1, k, i, reads =>
      if k < i then
        if m.data k ≠ space then some (k, k :: reads)
        else skipSpaces fuel (k + 1) i (k :: reads)
      else some (k, reads)

/-- `std::string(&data[k], n)`, which refuses a negative length. -/
def substring (k n : Int) (reads : List Int) : Option (Bytes × List Int) :=
  if n < 0 then none
  else
    some ((List.range n.toNat).map (fun j : Nat => m.data (k + j)),
      (List.range n.toNat).map (fun j : Nat => k + j) ++ reads)

def parseLoop : Nat → Int → Int → Dma → Packet → List Int → Option (Packet × Dma × List Int)
  | 0, _, _, _, _, _ => none
  | fuel + 1, i, cs, dma, dctPacket, reads =>
      if i < dtgr.length then do
        let cc := m.data i
        let vertex ← vertexAt dma cs
        let (hit, dma) ← leafReached cs vertex dma
        let (i, dctPacket, reads) ←
          if hit then do
            let k := i
            let (i, reads) ← m.valueEnd (dtgr.length + 1) i (i :: reads)
            let (k, reads) ← m.skipSpaces (dtgr.length + 1) k i reads
            let (value, reads) ← m.substring k (i - k + 1) reads
            some (i, Function.update dctPacket vertex.ife (some value), reads)
          else some (i, dctPacket, i :: reads)
        let (cs, dma) ← go cs cc dma
        parseLoop fuel (i + 1) cs dma dctPacket reads
      else some (dctPacket, dma, reads)

/-- The fuel bounds the turns of the outer loop. -/
def parseSsdpDatagram (dma : Dma) : Option (Packet × Dma × List Int) :=
  m.parseLoop (2 * dtgr.length + 1) 0 0 dma (fun _ => none) []

end Buffer

/-! ## The reads of the inner loops -/

theorem inRange_cons {dtgr : Bytes} {n : Nat} (hn : n < dtgr.length) {reads : List Int}
    (h : InRange dtgr reads) : InRange dtgr ((n : Int) :: reads) := by
  intro i hi
  rw [List.mem_cons] at hi
  cases hi with
  | inl heq => omega
  | inr hmem => exact h i hmem

theorem length_of_drop {dtgr r : Bytes} {c : Int8} {n : Nat} (h : dtgr.drop n = c :: r) :
    dtgr.length = n + (r.length + 1) := by
  have hlength := congrArg List.length h
  rw [List.length_drop, List.length_cons] at hlength
  omega

theorem drop_succ_of_drop {dtgr r : Bytes} {c : Int8} {n : Nat} (h : dtgr.drop n = c :: r) :
    dtgr.drop (n + 1) = r := by
  rw [← List.drop_drop, h, List.drop_one, List.tail_cons]

namespace Buffer

variable {dtgr : Bytes} (m : Buffer dtgr)

theorem data_of_drop {n : Nat} {c : Int8} {r : Bytes} (h : dtgr.drop n = c :: r) :
    m.data n = c :=
  m.inside n c (byteAt_of_drop h)

theorem valueEnd_eq (fuel : Nat) {n : Nat} {reads : List Int} (hn : n < dtgr.length)
    (enough : dtgr.length - n < fuel) (h : InRange dtgr reads) :
    ∃ reads', m.valueEnd fuel n reads = some (Ssdp.valueEnd (dtgr.drop n) n, reads') ∧
      InRange dtgr reads' := by
  induction fuel generalizing n reads with
  | zero => omega
  | succ fuel ih =>
      obtain ⟨c, r, hdrop⟩ := List.exists_cons_of_ne_nil (mt List.drop_eq_nil_iff.mp (by omega) :
        dtgr.drop n ≠ [])
      have hlength := length_of_drop hdrop
      have hcons := inRange_cons hn h
      cases r with
      | nil =>
          rw [List.length_nil] at hlength
          rw [valueEnd, if_neg (by omega), hdrop]
          exact ⟨reads, rfl, h⟩
      | cons c' r =>
          rw [List.length_cons] at hlength
          have hnext := drop_succ_of_drop hdrop
          have hdata := m.data_of_drop hdrop
          have hdata' : m.data ((n : Int) + 1) = c' := m.data_of_drop hnext
          have hcons' : InRange dtgr (((n : Int) + 1) :: n :: reads) :=
            inRange_cons (n := n + 1) (by omega) hcons
          rw [valueEnd, if_pos (by omega), hdata, hdata', hdrop, Ssdp.valueEnd]
          by_cases hcr : c = cr
          · rw [if_pos hcr]
            by_cases hlf : c' = lf
            · rw [if_pos hlf, if_pos ⟨hcr, hlf⟩]
              exact ⟨_, rfl, hcons'⟩
            · rw [if_neg hlf, if_neg fun hboth => hlf hboth.2, ← hnext]
              exact ih (n := n + 1) (by omega) (by omega) hcons'
          · rw [if_neg hcr, if_neg fun hboth => hcr hboth.1, ← hnext]
            exact ih (n := n + 1) (by omega) (by omega) hcons

theorem skipSpaces_eq (fuel : Nat) {n : Nat} {i : Int} {reads : List Int} (hn : n ≤ dtgr.length)
    (hi : i < dtgr.length) (enough : dtgr.length - n < fuel) (h : InRange dtgr reads) :
    ∃ reads', m.skipSpaces fuel n i reads = some (Ssdp.skipSpaces (dtgr.drop n) n i, reads') ∧
      InRange dtgr reads' := by
  induction fuel generalizing n reads with
  | zero => omega
  | succ fuel ih =>
      cases hdrop : dtgr.drop n with
      | nil =>
          have hle := List.drop_eq_nil_iff.mp hdrop
          rw [skipSpaces, if_neg (by omega)]
          exact ⟨reads, rfl, h⟩
      | cons c r =>
          have hlength := length_of_drop hdrop
          have hcons := inRange_cons (n := n) (by omega) h
          rw [skipSpaces, Ssdp.skipSpaces, m.data_of_drop hdrop]
          by_cases hk : (n : Int) < i
          · rw [if_pos hk, if_pos hk]
            by_cases hspace : c = space
            · rw [if_neg (not_not_intro hspace), if_neg (not_not_intro hspace),
                ← drop_succ_of_drop hdrop]
              exact ih (n := n + 1) (by omega) (by omega) hcons
            · rw [if_pos hspace, if_pos hspace]
              exact ⟨_, rfl, hcons⟩
          · rw [if_neg hk, if_neg hk]
            exact ⟨reads, rfl, h⟩

theorem substring_eq {k n : Int} {value : Bytes} {reads : List Int}
    (hvalue : Ssdp.substring dtgr k n = some value) (h : InRange dtgr reads) :
    ∃ reads', m.substring k n reads = some (value, reads') ∧ InRange dtgr reads' := by
  rw [Ssdp.substring] at hvalue
  split at hvalue
  · rename_i hbounds
    obtain ⟨hk, hn, hend⟩ := hbounds
    obtain ⟨a, rfl⟩ := Int.eq_ofNat_of_zero_le hk
    obtain ⟨l, rfl⟩ := Int.eq_ofNat_of_zero_le hn
    rw [Int.toNat_natCast, Int.toNat_natCast] at hvalue
    refine ⟨(List.range l).map (fun j : Nat => (a : Int) + j) ++ reads, ?_, ?_⟩
    · rw [substring, if_neg (Int.not_lt.mpr hn), Int.toNat_natCast, ← Option.some.inj hvalue]
      have hbytes : (List.range l).map (fun j : Nat => m.data ((a : Int) + j)) =
          (dtgr.drop a).take l := by
        apply List.ext_getElem
        · rw [List.length_map, List.length_range, List.length_take, List.length_drop]
          omega
        · intro j hj _
          rw [List.length_map, List.length_range] at hj
          have hjlt : a + j < dtgr.length := by omega
          rw [List.getElem_map, List.getElem_range, List.getElem_take, List.getElem_drop]
          apply m.inside
          rw [← Int.natCast_add, byteAt, if_neg (by omega), Int.toNat_natCast,
            List.getElem?_eq_getElem hjlt]
      rw [hbytes]
    · intro i hi
      rw [List.mem_append, List.mem_map] at hi
      cases hi with
      | inl hnew =>
          obtain ⟨j, hj, rfl⟩ := hnew
          rw [List.mem_range] at hj
          omega
      | inr hold => exact h i hold
  · exact absurd hvalue.symm (Option.some_ne_none value)

end Buffer

/-! ## The outer loop -/

namespace Buffer

variable {dtgr : Bytes} (m : Buffer dtgr)

/-- One turn behind a header: the value is found with reads inside the datagram. -/
theorem value_eq {n : Nat} {c : Int8} {r : Bytes} (hdrop : dtgr.drop n = c :: r) {value : Bytes}
    {reads : List Int} (h : InRange dtgr reads)
    (hvalue : Ssdp.substring dtgr
      (Ssdp.skipSpaces (dtgr.drop n) n (Ssdp.valueEnd (dtgr.drop n) n))
      (Ssdp.valueEnd (dtgr.drop n) n -
        Ssdp.skipSpaces (dtgr.drop n) n (Ssdp.valueEnd (dtgr.drop n) n) + 1) = some value) :
    ∃ r₁ r₂ r₃,
      m.valueEnd (dtgr.length + 1) n reads = some (Ssdp.valueEnd (dtgr.drop n) n, r₁) ∧
        m.skipSpaces (dtgr.length + 1) n (Ssdp.valueEnd (dtgr.drop n) n) r₁ =
            some (Ssdp.skipSpaces (dtgr.drop n) n (Ssdp.valueEnd (dtgr.drop n) n), r₂) ∧
          m.substring (Ssdp.skipSpaces (dtgr.drop n) n (Ssdp.valueEnd (dtgr.drop n) n))
              (Ssdp.valueEnd (dtgr.drop n) n -
                Ssdp.skipSpaces (dtgr.drop n) n (Ssdp.valueEnd (dtgr.drop n) n) + 1) r₂ =
              some (value, r₃) ∧ InRange dtgr r₃ := by
  have hlength := length_of_drop hdrop
  have hend : Ssdp.valueEnd (dtgr.drop n) n < dtgr.length := by
    obtain ⟨v, rest, hsplit⟩ :=
      List.exists_cons_of_ne_nil (Splitting.split_ne_nil crlf (dtgr.drop n))
    have hv : v.length ≤ (dtgr.drop n).length :=
      (Splitting.prefix_of_split_eq_cons (List.cons_ne_nil _ _) hsplit).length_le
    rw [Ssdp.valueEnd_eq (by rw [hdrop]; exact List.cons_ne_nil _ _) hsplit]
    rw [List.length_drop] at hv
    omega
  obtain ⟨r₁, hr₁, h₁⟩ := m.valueEnd_eq (dtgr.length + 1) (n := n) (by omega) (by omega) h
  obtain ⟨r₂, hr₂, h₂⟩ :=
    m.skipSpaces_eq (dtgr.length + 1) (n := n) (by omega) hend (by omega) h₁
  obtain ⟨r₃, hr₃, h₃⟩ := m.substring_eq hvalue h₂
  exact ⟨r₁, r₂, r₃, hr₁, hr₂, hr₃, h₃⟩

/-- Where the parser returns, the recorded run returns the same and reads in the datagram. -/
theorem parseLoop_of_parseLoop (fuel : Nat) {i cs : Int} {dma dma' : Dma} {packet packet' : Packet}
    {reads : List Int}
    (hrun : Ssdp.parseLoop dtgr fuel i cs dma packet = some (packet', dma'))
    (h : InRange dtgr reads) :
    ∃ reads', m.parseLoop fuel i cs dma packet reads = some (packet', dma', reads') ∧
      InRange dtgr reads' := by
  induction fuel generalizing i cs dma packet reads with
  | zero => exact absurd hrun.symm (Option.some_ne_none _)
  | succ fuel ih =>
      rw [Ssdp.parseLoop] at hrun
      rw [parseLoop]
      split at hrun
      · rename_i hlt
        rw [if_pos hlt]
        simp only [Option.bind_eq_bind, Option.bind_eq_some_iff, Prod.exists] at hrun
        obtain ⟨cc, hcc, vertex, hvertex, hit, dma₁, hleaf, hturn⟩ := hrun
        obtain ⟨n, rfl⟩ : ∃ n : Nat, i = n := by
          rw [byteAt] at hcc
          split at hcc
          · exact absurd hcc.symm (Option.some_ne_none _)
          · exact Int.eq_ofNat_of_zero_le (by omega)
        have hdata : m.data n = cc := m.inside n cc hcc
        have hread : InRange dtgr ((n : Int) :: reads) := inRange_cons (by omega) h
        simp only [Option.bind_eq_bind, hvertex, hleaf, Option.bind_some, hdata]
        cases hit with
        | false =>
            simp only [Bool.false_eq_true, if_false, Option.bind_some, Option.bind_eq_some_iff,
              Prod.exists] at hturn
            obtain ⟨cs', dma₂, hgo, hrest⟩ := hturn
            simpa [hgo] using ih hrest hread
        | true =>
            simp only [if_true, Option.bind_some, Option.bind_eq_some_iff, Prod.exists] at hturn
            obtain ⟨value, hsub, cs', dma₂, hgo, hrest⟩ := hturn
            obtain ⟨c, r, hdrop⟩ := List.exists_cons_of_ne_nil
              (mt List.drop_eq_nil_iff.mp (by omega) : dtgr.drop n ≠ [])
            rw [Int.toNat_natCast] at hsub hrest
            obtain ⟨r₁, r₂, r₃, hr₁, hr₂, hr₃, h₃⟩ := m.value_eq hdrop hread hsub
            simpa [hr₁, hr₂, hr₃, hgo] using ih hrest h₃
      · rename_i hge
        rw [if_neg hge]
        rw [Option.some.injEq, Prod.mk.injEq] at hrun
        exact ⟨reads, by rw [hrun.1, hrun.2], h⟩

end Buffer

/-- The parser ends and reads only inside the datagram, with each automaton of the constructor
and whatever was received before. -/
theorem parse_ends_in_range (earlier : List Bytes) (t : SsdpMsgType) (dtgr : Bytes)
    (m : Buffer dtgr) :
    ∃ c c', Controller.new = some c ∧ processPendingDatagrams earlier c = some c' ∧
      ∃ packet dma reads, m.parseSsdpDatagram (c'.dma t) = some (packet, dma, reads) ∧
        InRange dtgr reads ∧ parseSsdpDatagram dtgr (c'.dma t) = some (packet, dma) := by
  obtain ⟨c, hnew, hright⟩ := Controller.new_right
  obtain ⟨c', hearlier, hright'⟩ := hright.processPendingDatagrams earlier
  obtain ⟨dma, -, hparse, -⟩ := hright'.parse t dtgr
  obtain ⟨reads, hreads, hrange⟩ := m.parseLoop_of_parseLoop _ hparse fun _ hi =>
    absurd hi List.not_mem_nil
  exact ⟨c, c', hnew, hearlier, _, dma, reads, hreads, hrange, hparse⟩

end SubutaiTray.Ssdp
