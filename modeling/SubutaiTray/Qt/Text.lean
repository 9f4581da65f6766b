import Mathlib.Data.List.TakeWhile

/-!
Texts and byte arrays.

A text is a list of Unicode scalar values: a `QString` that is not well-formed
cannot be built. Writing is UTF-8. Reading is a parameter, because of what it
makes of malformed bytes; it is used through two facts only. It takes off a byte
order mark.
-/
namespace SubutaiTray

abbrev QString := List Char
abbrev QByteArray := List UInt8

instance : LawfulBEq QString := List.instLawfulBEq

/-- The character U+0000. -/
def nul : Char := Char.ofNat 0

def toUtf8 (s : QString) : QByteArray := s.flatMap String.utf8EncodeChar

/-- The byte order mark U+FEFF. -/
def bom : Char := Char.ofNat 0xFEFF

def dropBom : QString → QString
  | [] => []
  | c :: s => if c = bom then s else c :: s

/-- `QString::fromUtf8` -/
structure TextReader where
  fromUtf8 : QByteArray → QString
  fromUtf8_toUtf8 : ∀ s, fromUtf8 (toUtf8 s) = dropBom s
  nul_of_mem_fromUtf8 : ∀ ba, nul ∈ fromUtf8 ba → 0 ∈ ba

/-- The constructor of `QString` from a `QByteArray`: it stops at the first NUL. -/
def TextReader.qString (reader : TextReader) (ba : QByteArray) : QString :=
  reader.fromUtf8 (ba.takeWhile (· ≠ 0))

theorem dropBom_eq_self_iff (s : QString) : dropBom s = s ↔ s.head? ≠ some bom := by
  cases s with
  | nil => exact iff_of_true rfl (Option.some_ne_none bom).symm
  | cons c s =>
      rw [dropBom, List.head?_cons, ne_eq, Option.some.injEq]
      split
      · rename_i hbom
        refine iff_of_false (fun h => ?_) (fun h => h hbom)
        have hlength := congrArg List.length h
        rw [List.length_cons] at hlength
        omega
      · rename_i hother
        exact iff_of_true rfl hother

theorem dropBom_suffix (s : QString) : dropBom s <:+ s := by
  cases s with
  | nil => exact List.suffix_rfl
  | cons c s =>
      rw [dropBom]
      split
      · exact List.suffix_cons c s
      · exact List.suffix_rfl

theorem toUtf8_append (s t : QString) : toUtf8 (s ++ t) = toUtf8 s ++ toUtf8 t :=
  List.flatMap_append

theorem toUtf8_cons (c : Char) (s : QString) :
    toUtf8 (c :: s) = String.utf8EncodeChar c ++ toUtf8 s := rfl

theorem zero_mem_utf8EncodeChar (c : Char) : 0 ∈ String.utf8EncodeChar c ↔ c = nul := by
  have byte (n : Nat) (h : n < 256) : 0 = UInt8.ofNat n ↔ n = 0 := by
    rw [← UInt8.toNat_inj, UInt8.toNat_ofNat', Nat.mod_eq_of_lt h]
    exact eq_comm
  have hnul : c = nul ↔ c.val.toNat = 0 := by
    rw [Char.ext_iff, ← UInt32.toNat_inj]
    rfl
  rw [hnul, String.utf8EncodeChar]
  generalize c.val.toNat = v
  split
  · rw [List.mem_singleton, byte v (by omega)]
  · have hv : ¬ v = 0 := by omega
    split
    · rw [List.mem_cons, List.mem_singleton, byte _ (by omega), byte _ (by omega)]
      omega
    · split
      · rw [List.mem_cons, List.mem_cons, List.mem_singleton, byte _ (by omega),
          byte _ (by omega), byte _ (by omega)]
        omega
      · rw [List.mem_cons, List.mem_cons, List.mem_cons, List.mem_singleton, byte _ (by omega),
          byte _ (by omega), byte _ (by omega), byte _ (by omega)]
        omega

theorem takeWhile_toUtf8 (s : QString) :
    (toUtf8 s).takeWhile (· ≠ 0) = toUtf8 (s.takeWhile (· ≠ nul)) := by
  induction s with
  | nil => rfl
  | cons c s ih =>
      by_cases hc : c = nul
      · subst hc
        rfl
      · have hfree : ∀ b ∈ String.utf8EncodeChar c, decide (b ≠ 0) = true := by
          intro b hb
          rw [decide_eq_true_iff]
          rintro rfl
          exact hc ((zero_mem_utf8EncodeChar c).mp hb)
        rw [toUtf8_cons, List.takeWhile_append_of_pos hfree, ih, List.takeWhile_cons_of_pos (by simpa using hc)]
        rfl

namespace TextReader

variable (reader : TextReader)

/-- A text read back from its bytes ends before its first NUL and has lost its byte order mark. -/
theorem qString_toUtf8 (s : QString) :
    reader.qString (toUtf8 s) = dropBom (s.takeWhile (· ≠ nul)) := by
  rw [qString, takeWhile_toUtf8, reader.fromUtf8_toUtf8]

theorem takeWhile_ne_nul {s : QString} (hs : nul ∉ s) : s.takeWhile (· ≠ nul) = s := by
  rw [List.takeWhile_eq_self_iff]
  intro c hc
  rw [decide_eq_true_iff]
  rintro rfl
  exact hs hc

theorem qString_toUtf8_of_notMem {s : QString} (hs : nul ∉ s) :
    reader.qString (toUtf8 s) = reader.fromUtf8 (toUtf8 s) := by
  rw [qString, takeWhile_toUtf8, takeWhile_ne_nul hs]

theorem nul_notMem_qString (ba : QByteArray) : nul ∉ reader.qString ba := by
  intro h
  have hzero := List.mem_takeWhile_imp (reader.nul_of_mem_fromUtf8 _ h)
  simp at hzero

theorem qString_toUtf8_eq_self_iff (s : QString) :
    reader.qString (toUtf8 s) = s ↔ nul ∉ s ∧ s.head? ≠ some bom := by
  constructor
  · intro h
    have hs : nul ∉ s := h ▸ reader.nul_notMem_qString (toUtf8 s)
    rw [qString_toUtf8, takeWhile_ne_nul hs, dropBom_eq_self_iff] at h
    exact ⟨hs, h⟩
  · rintro ⟨hs, hbom⟩
    rw [qString_toUtf8, takeWhile_ne_nul hs, dropBom_eq_self_iff]
    exact hbom

end TextReader

/-- A reader that replaces every byte that begins no character. -/
def readUtf8 : Nat → QByteArray → QString
  | _, [] => []
  | skip + 1, _ :: bytes => readUtf8 skip bytes
  | 0, b :: bytes =>
      match ByteArray.utf8DecodeChar? (b :: bytes).toByteArray 0 with
      | some c => c :: readUtf8 (c.utf8Size - 1) bytes
      | none => Char.ofNat 0xFFFD :: readUtf8 0 bytes

theorem readUtf8_eq_drop (skip : Nat) (bytes : QByteArray) :
    readUtf8 skip bytes = readUtf8 0 (bytes.drop skip) := by
  induction bytes generalizing skip with
  | nil => cases skip <;> rfl
  | cons b bytes ih =>
      cases skip with
      | zero => rfl
      | succ skip => exact ih skip

theorem readUtf8_encode_append (c : Char) (bytes : QByteArray) :
    readUtf8 0 (String.utf8EncodeChar c ++ bytes) = c :: readUtf8 0 bytes := by
  have hsize := String.length_utf8EncodeChar c
  have hdecode := ByteArray.utf8DecodeChar?_utf8EncodeChar_append
    (b := bytes.toByteArray) (c := c)
  rw [← List.toByteArray_append] at hdecode
  cases henc : String.utf8EncodeChar c with
  | nil =>
      have := c.utf8Size_pos
      rw [henc, List.length_nil] at hsize
      omega
  | cons b tail =>
      rw [henc, List.cons_append] at hdecode
      rw [henc, List.length_cons] at hsize
      rw [List.cons_append, readUtf8, hdecode]
      simp only [← hsize, Nat.add_sub_cancel]
      rw [readUtf8_eq_drop, List.drop_left]

theorem readUtf8_toUtf8 (s : QString) : readUtf8 0 (toUtf8 s) = s := by
  induction s with
  | nil => rfl
  | cons c s ih =>
      rw [toUtf8_cons, readUtf8_encode_append, ih]

theorem nul_of_mem_readUtf8 (skip : Nat) (bytes : QByteArray) (h : nul ∈ readUtf8 skip bytes) :
    0 ∈ bytes := by
  induction bytes generalizing skip with
  | nil => cases skip <;> exact absurd h List.not_mem_nil
  | cons b bytes ih =>
      cases skip with
      | succ skip => exact List.mem_cons_of_mem b (ih skip h)
      | zero =>
          rw [readUtf8] at h
          cases hdecode : ByteArray.utf8DecodeChar? (b :: bytes).toByteArray 0 with
          | none =>
              rw [hdecode] at h
              cases List.mem_cons.mp h with
              | inl heq => exact absurd heq (by decide)
              | inr hmem => exact List.mem_cons_of_mem b (ih 0 hmem)
          | some c =>
              rw [hdecode] at h
              cases List.mem_cons.mp h with
              | inr hmem => exact List.mem_cons_of_mem b (ih _ hmem)
              | inl heq =>
                  subst heq
                  have henc := String.toByteArray_utf8EncodeChar_of_utf8DecodeChar?_eq_some hdecode
                  have hdata : String.utf8EncodeChar nul = (b :: bytes).take nul.utf8Size := by
                    simpa [ByteArray.data_extract] using congrArg (fun ba => ba.data.toList) henc
                  have hzero : 0 ∈ (b :: bytes).take nul.utf8Size := by
                    rw [← hdata]
                    exact (zero_mem_utf8EncodeChar nul).mpr rfl
                  exact List.mem_of_mem_take hzero

/-- UTF-8 as the reader of Qt takes it, without a byte order mark. -/
def utf8Reader : TextReader where
  fromUtf8 ba := dropBom (readUtf8 0 ba)
  fromUtf8_toUtf8 s := congrArg dropBom (readUtf8_toUtf8 s)
  nul_of_mem_fromUtf8 ba h := nul_of_mem_readUtf8 0 ba ((dropBom_suffix _).subset h)

end SubutaiTray
