import SubutaiTray.Library.PaddedOrder
import SubutaiTray.Library.Splitting
import SubutaiTray.Qt.Text
import Mathlib.Algebra.Group.Nat.Defs

/-!
`CSystemCallWrapper::versionCompare`, by which the KVM scripts for the versions of Ubuntu are chosen.

The parts between the dots are read as numbers, and a version that ends early goes on with zeros. So a
script is chosen by the order of the versions (`exists_ubuntuScript`).
-/
namespace SubutaiTray.Installer

open Splitting PaddedOrder

def dot : UInt8 := 46

/-- A value of type `int`; `none` is an overflow. -/
def int32 (n : Int) : Option Int :=
  if -2147483648 ≤ n ∧ n < 2147483648 then some n else none

theorem int32_eq {n m : Int} (h : int32 n = some m) : m = n := by
  rw [int32] at h
  split at h
  · exact (Option.some.inj h).symm
  · exact absurd h.symm (Option.some_ne_none m)

/-- `v[i] - '0'`, where `char` is signed. -/
def charValue (c : UInt8) : Int :=
  if c.toNat < 128 then (c.toNat : Int) - 48 else (c.toNat : Int) - 256 - 48

/-- The inner loop: the number, and the text from the dot on. -/
def readNumber (vnum : Int) : QByteArray → Option (Int × QByteArray)
  | [] => some (vnum, [])
  | c :: v =>
      if c = dot then some (vnum, c :: v)
      else
        (int32 (vnum * 10)).bind fun product =>
          (int32 (product + charValue c)).bind fun sum => readNumber sum v

theorem length_readNumber {vnum num : Int} {v rest : QByteArray}
    (h : readNumber vnum v = some (num, rest)) : rest.length ≤ v.length := by
  induction v generalizing vnum with
  | nil =>
      rw [← (Prod.mk.inj (Option.some.inj h)).2]
  | cons c v ih =>
      rw [readNumber] at h
      split at h
      · rw [← (Prod.mk.inj (Option.some.inj h)).2]
      · obtain ⟨product, -, h⟩ := Option.bind_eq_some_iff.mp h
        obtain ⟨sum, -, h⟩ := Option.bind_eq_some_iff.mp h
        exact Nat.le_succ_of_le (ih h)

/-- `none` is an overflow of a number. -/
def versionCompare (v1 v2 : QByteArray) : Option Int :=
  if v1 = [] ∧ v2 = [] then some 0
  else
    match h1 : readNumber 0 v1, h2 : readNumber 0 v2 with
    | some (vnum1, rest1), some (vnum2, rest2) =>
        if vnum1 > vnum2 then some 1
        else if vnum2 > vnum1 then some (-1)
        else versionCompare rest1.tail rest2.tail
    | _, _ => none
termination_by v1.length + v2.length
decreasing_by
  rename_i hnot _ _
  have hlength1 := length_readNumber h1
  have hlength2 := length_readNumber h2
  rw [List.length_tail, List.length_tail]
  rw [← List.length_eq_zero_iff, ← List.length_eq_zero_iff] at hnot
  omega

/-! ## The order of the versions -/

/-- The number that a part is read as. -/
def partValue (part : QByteArray) : Int :=
  part.foldl (fun vnum c => vnum * 10 + charValue c) 0

def versionParts (v : QByteArray) : List Int :=
  (split [dot] v).map partValue

def versionKey (v : QByteArray) : Lex (Nat → Int) :=
  padded 0 (versionParts v)

/-- Numbers of at most nine digits between dots. -/
def Dotted (v : QByteArray) : Prop :=
  ∀ part ∈ split [dot] v, part.length ≤ 9 ∧ ∀ c ∈ part, 48 ≤ c.toNat ∧ c.toNat < 58

/-- What the inner loop reads. -/
structure Reads (vnum : Int) (v : QByteArray) (num : Int) (part rest : QByteArray) : Prop where
  eq_append : v = part ++ rest
  dot_notMem : dot ∉ part
  value : num = part.foldl (fun vnum c => vnum * 10 + charValue c) vnum
  rest : rest = [] ∨ ∃ v', rest = dot :: v'

theorem exists_reads {vnum num : Int} {v rest : QByteArray}
    (h : readNumber vnum v = some (num, rest)) : ∃ part, Reads vnum v num part rest := by
  induction v generalizing vnum with
  | nil =>
      obtain ⟨rfl, rfl⟩ := Prod.mk.inj (Option.some.inj h)
      exact ⟨[], rfl, List.not_mem_nil, rfl, Or.inl rfl⟩
  | cons c v ih =>
      rw [readNumber] at h
      split at h
      · rename_i hdot
        obtain ⟨rfl, rfl⟩ := Prod.mk.inj (Option.some.inj h)
        exact ⟨[], rfl, List.not_mem_nil, rfl, Or.inr ⟨v, by rw [hdot]⟩⟩
      · rename_i hdot
        obtain ⟨product, hproduct, h⟩ := Option.bind_eq_some_iff.mp h
        obtain ⟨sum, hsum, h⟩ := Option.bind_eq_some_iff.mp h
        obtain ⟨part, hreads⟩ := ih h
        refine ⟨c :: part, ?_, ?_, ?_, hreads.rest⟩
        · rw [hreads.eq_append, List.cons_append]
        · rw [List.mem_cons, not_or]
          exact ⟨Ne.symm hdot, hreads.dot_notMem⟩
        · rw [hreads.value, List.foldl_cons, ← int32_eq hproduct, ← int32_eq hsum]

/-- The first part is read, and the other parts are those behind the dot. -/
theorem versionParts_of_reads {num : Int} {v rest : QByteArray}
    (h : readNumber 0 v = some (num, rest)) :
    (versionParts v).headD 0 = num ∧ padded 0 (versionParts v).tail = versionKey rest.tail := by
  obtain ⟨part, hreads⟩ := exists_reads h
  obtain hnil | ⟨v', hdot⟩ := hreads.rest
  · have hsplit : split [dot] v = [part] := by
      rw [hreads.eq_append, hnil, List.append_nil, split_of_notMem hreads.dot_notMem]
    rw [versionKey, versionParts, versionParts, hsplit, hnil]
    exact ⟨hreads.value.symm, (padded_append_rest []).symm⟩
  · have hsplit : split [dot] v = part :: split [dot] v' := by
      rw [hreads.eq_append, hdot]
      exact split_append_sep hreads.dot_notMem [] v'
    rw [versionKey, versionParts, versionParts, hsplit, hdot]
    exact ⟨hreads.value.symm, rfl⟩

/-- Without an overflow the result tells which version is later. -/
theorem compares_versionCompare (v1 v2 : QByteArray) {result : Int}
    (h : versionCompare v1 v2 = some result) : Compares result (versionKey v1) (versionKey v2) := by
  fun_induction versionCompare v1 v2 with
  | case1 v1 v2 hnil =>
      rw [← Option.some.inj h, hnil.1, hnil.2]
      exact compares_refl _
  | case2 v1 v2 hnot num1 rest1 num2 rest2 h1 h2 hgt =>
      rw [← Option.some.inj h]
      apply compares_one
      rw [(versionParts_of_reads h1).1, (versionParts_of_reads h2).1]
      exact hgt
  | case3 v1 v2 hnot num1 rest1 num2 rest2 h1 h2 hle hlt =>
      rw [← Option.some.inj h]
      apply compares_neg_one
      rw [(versionParts_of_reads h1).1, (versionParts_of_reads h2).1]
      exact hlt
  | case4 v1 v2 hnot num1 rest1 num2 rest2 h1 h2 hle hge ih =>
      obtain ⟨hhead1, htail1⟩ := versionParts_of_reads h1
      obtain ⟨hhead2, htail2⟩ := versionParts_of_reads h2
      have hrest := ih h
      rw [← htail1, ← htail2] at hrest
      refine compares_of_tail ?_ hrest
      rw [hhead1, hhead2]
      exact le_antisymm (not_lt.mp hle) (not_lt.mp hge)
  | case5 v1 v2 hnot hoverflow => exact absurd h.symm (Option.some_ne_none result)

/-! ## Versions of numbers -/

/-- Digits are read without an overflow as long as there are few. -/
theorem exists_readNumber {part rest : QByteArray} (hrest : rest = [] ∨ ∃ v', rest = dot :: v')
    (hdigits : ∀ c ∈ part, 48 ≤ c.toNat ∧ c.toNat < 58) {vnum : Int} {read : Nat}
    (hlength : read + part.length ≤ 9) (hnonneg : 0 ≤ vnum) (hlt : vnum < (10 ^ read : Nat)) :
    ∃ num, readNumber vnum (part ++ rest) = some (num, rest) := by
  induction part generalizing vnum read with
  | nil =>
      refine ⟨vnum, ?_⟩
      obtain rfl | ⟨v', rfl⟩ := hrest
      · rfl
      · rw [List.nil_append, readNumber, if_pos rfl]
  | cons c part ih =>
      obtain ⟨hlow, hhigh⟩ := hdigits c List.mem_cons_self
      have hdot : c ≠ dot := by
        rintro rfl
        exact absurd hlow (by decide)
      have hvalue : charValue c = (c.toNat : Int) - 48 := if_pos (Nat.lt_trans hhigh (by decide))
      have hpow : 10 ^ (read + 1) = 10 ^ read * 10 := Nat.pow_succ 10 read
      have hbound : 10 ^ (read + 1) ≤ 10 ^ 9 := by
        apply Nat.pow_le_pow_right (by decide)
        rw [List.length_cons] at hlength
        omega
      have hproduct : int32 (vnum * 10) = some (vnum * 10) := if_pos (by omega)
      have hsum : int32 (vnum * 10 + charValue c) = some (vnum * 10 + charValue c) :=
        if_pos (by omega)
      rw [List.cons_append, readNumber, if_neg hdot, hproduct, Option.bind_some, hsum, Option.bind_some]
      refine ih (fun d hd => hdigits d (List.mem_cons_of_mem c hd))
        (?_ : read + 1 + part.length ≤ 9) ?_ ?_
      · rw [List.length_cons] at hlength
        omega
      · omega
      · omega

/-- The first number of a dotted version is read, and the rest is one. -/
theorem Dotted.exists_readNumber {v : QByteArray} (h : Dotted v) :
    ∃ num rest, readNumber 0 v = some (num, rest) ∧ Dotted rest.tail := by
  obtain ⟨part, parts, hsplit⟩ := List.exists_cons_of_ne_nil (split_ne_nil [dot] v)
  obtain ⟨hlength, hdigits⟩ := h part (by rw [hsplit]; exact List.mem_cons_self)
  have hread (rest : QByteArray) (hrest : rest = [] ∨ ∃ v', rest = dot :: v') :=
    @Installer.exists_readNumber part rest hrest hdigits 0 0
      ((Nat.zero_add part.length).trans_le hlength) (le_refl 0) (by decide)
  obtain ⟨-, rfl⟩ | ⟨v', rfl, hparts⟩ := split_eq_cons (List.cons_ne_nil dot []) hsplit
  · obtain ⟨num, hnum⟩ := hread [] (Or.inl rfl)
    rw [List.append_nil] at hnum
    refine ⟨num, [], hnum, ?_⟩
    intro part hpart
    rw [List.tail_nil, split_nil, List.mem_singleton] at hpart
    rw [hpart]
    exact ⟨Nat.zero_le 9, fun c hc => absurd hc List.not_mem_nil⟩
  · obtain ⟨num, hnum⟩ := hread (dot :: v') (Or.inr ⟨v', rfl⟩)
    refine ⟨num, dot :: v', hnum, ?_⟩
    intro part hpart
    rw [List.tail_cons, hparts] at hpart
    exact h part (by rw [hsplit]; exact List.mem_cons_of_mem _ hpart)

/-- Two versions of numbers are compared number by number, where missing ones are zeros: the comparison
is that of a linear order. -/
theorem exists_versionCompare {v1 v2 : QByteArray} (h1 : Dotted v1) (h2 : Dotted v2) :
    ∃ result, versionCompare v1 v2 = some result ∧
      Compares result (versionKey v1) (versionKey v2) := by
  suffices htotal : ∃ result, versionCompare v1 v2 = some result by
    obtain ⟨result, hresult⟩ := htotal
    exact ⟨result, hresult, compares_versionCompare v1 v2 hresult⟩
  fun_induction versionCompare v1 v2 with
  | case1 v1 v2 hnil => exact ⟨0, rfl⟩
  | case2 v1 v2 hnot num1 rest1 num2 rest2 hread1 hread2 hgt => exact ⟨1, rfl⟩
  | case3 v1 v2 hnot num1 rest1 num2 rest2 hread1 hread2 hle hlt => exact ⟨-1, rfl⟩
  | case4 v1 v2 hnot num1 rest1 num2 rest2 hread1 hread2 hle hge ih =>
      obtain ⟨found1, after1, hfound1, hdotted1⟩ := h1.exists_readNumber
      obtain ⟨found2, after2, hfound2, hdotted2⟩ := h2.exists_readNumber
      rw [hread1, Option.some_inj, Prod.mk.injEq] at hfound1
      rw [hread2, Option.some_inj, Prod.mk.injEq] at hfound2
      rw [← hfound1.2] at hdotted1
      rw [← hfound2.2] at hdotted2
      exact ih hdotted1 hdotted2
  | case5 v1 v2 hnot hoverflow =>
      obtain ⟨num1, rest1, hread1, -⟩ := h1.exists_readNumber
      obtain ⟨num2, rest2, hread2, -⟩ := h2.exists_readNumber
      exact absurd hread2 (hoverflow num1 rest1 num2 rest2 hread1)

def keramic : QByteArray := toUtf8 "9.10".toList

def lucid : QByteArray := toUtf8 "10.04".toList

theorem dotted_keramic : Dotted keramic := by
  unfold Dotted
  decide +kernel

theorem dotted_lucid : Dotted lucid := by
  unfold Dotted
  decide +kernel

theorem exists_versionCompare_lucid :
    Dotted lucid ∧ Dotted keramic ∧ ∃ result, versionCompare lucid keramic = some result ∧
      Compares result (versionKey lucid) (versionKey keramic) :=
  ⟨dotted_lucid, dotted_keramic, exists_versionCompare dotted_lucid dotted_keramic⟩

/-! ## The scripts -/

/-- The script that `kvm_install_internal` makes for a version of Ubuntu. -/
inductive KvmScript where
  | aptGet
  | aptitude
  | empty
  deriving DecidableEq

def ubuntuScript (version : QByteArray) : Option KvmScript :=
  (versionCompare version lucid).bind fun later =>
    if later > 0 then some .aptGet
    else (versionCompare keramic version).map fun earlier => if earlier > 0 then .aptitude else .empty

theorem keramic_lt_lucid : versionKey keramic < versionKey lucid := by
  have hparts : versionParts keramic = [9, 10] ∧ versionParts lucid = [10, 4] := by decide +kernel
  rw [versionKey, versionKey, hparts.1, hparts.2, padded_lt_iff]
  exact Or.inl (by decide)

/-- From 9.10 to 10.04 no command is run at all. -/
theorem exists_ubuntuScript {version : QByteArray} (h : Dotted version) :
    ∃ script, ubuntuScript version = some script ∧
      (script = .aptGet ↔ versionKey lucid < versionKey version) ∧
        (script = .aptitude ↔ versionKey version < versionKey keramic) := by
  obtain ⟨later, hlater, hcompares⟩ := exists_versionCompare h dotted_lucid
  obtain ⟨earlier, hearlier, hcompares'⟩ := exists_versionCompare dotted_keramic h
  rw [ubuntuScript, hlater, Option.bind_some]
  by_cases hlt : versionKey lucid < versionKey version
  · refine ⟨.aptGet, if_pos (hcompares.pos_iff.mpr hlt), iff_of_true rfl hlt, ?_⟩
    exact iff_of_false (by decide) (keramic_lt_lucid.trans hlt).asymm
  · rw [if_neg (mt hcompares.pos_iff.mp hlt), hearlier, Option.map_some]
    refine ⟨_, rfl, iff_of_false ?_ hlt, ?_⟩
    · split <;> decide
    · rw [← hcompares'.pos_iff]
      split
      · rename_i hpos
        exact iff_of_true rfl hpos
      · rename_i hpos
        exact iff_of_false (by decide) hpos

end SubutaiTray.Installer
