import Mathlib.Algebra.Group.Int.Defs
import Mathlib.Algebra.Group.Nat.Defs
import SubutaiTray.Qt.Text

/-!
Digits and numbers in texts, and the search for the first number of a text by the
regular expression `(-?\d+(?:[\.,]\d+(?:e\d+)?)?)`.
-/
namespace SubutaiTray

/-- The decimal digits of all scripts within 16 bits come in blocks of ten. -/
def digitZeros : List Nat :=
  [0x0030, 0x0660, 0x06F0, 0x07C0, 0x0966, 0x09E6, 0x0A66, 0x0AE6, 0x0B66, 0x0BE6, 0x0C66,
    0x0CE6, 0x0D66, 0x0DE6, 0x0E50, 0x0ED0, 0x0F20, 0x1040, 0x1090, 0x17E0, 0x1810, 0x1946,
    0x19D0, 0x1A80, 0x1A90, 0x1B50, 0x1BB0, 0x1C40, 0x1C50, 0xA620, 0xA8D0, 0xA900, 0xA9D0,
    0xA9F0, 0xAA50, 0xABF0, 0xFF10]

/-- `QChar::isDigit` -/
def isDigit (c : Char) : Bool :=
  digitZeros.any fun first => first ≤ c.toNat && c.toNat ≤ first + 9

def decimal (digits : QString) : Nat :=
  digits.foldl (fun n c => 10 * n + (c.toNat - 48)) 0

/-- The signed number, zero when these are not digits or when it does not fit. -/
def signedInt (sign : Int) (digits : QString) : Int :=
  if digits ≠ [] ∧ digits.all Char.isDigit then
    if -2 ^ 31 ≤ sign * decimal digits ∧ sign * decimal digits < 2 ^ 31 then
      sign * decimal digits
    else 0
  else 0

/-- `QString::toInt` of a text without blanks. -/
def toInt : QString → Int
  | '-' :: digits => signedInt (-1) digits
  | '+' :: digits => signedInt 1 digits
  | digits => signedInt 1 digits

def exponent : QString → QString
  | 'e' :: s => if s.takeWhile isDigit = [] then [] else 'e' :: s.takeWhile isDigit
  | _ => []

def fraction : QString → QString
  | c :: s =>
      if (c = '.' ∨ c = ',') ∧ s.takeWhile isDigit ≠ [] then
        c :: (s.takeWhile isDigit ++ exponent (s.dropWhile isDigit))
      else []
  | [] => []

def unsignedNumber (s : QString) : Option QString :=
  if s.takeWhile isDigit = [] then none
  else some (s.takeWhile isDigit ++ fraction (s.dropWhile isDigit))

def numberAt : QString → Option QString
  | '-' :: s => (unsignedNumber s).map ('-' :: ·)
  | s => unsignedNumber s

/-- The text of the leftmost match, empty when there is none. -/
def firstNumber : QString → QString
  | [] => []
  | c :: s => (numberAt (c :: s)).getD (firstNumber s)

/-- The first digits of a text, as a reader of interface names finds them. -/
def firstDigits (s : QString) : QString :=
  (s.dropWhile fun c => !c.isDigit).takeWhile Char.isDigit

theorem isDigit_of_ascii {c : Char} (h : c.isDigit = true) : isDigit c = true := by
  rw [Char.isDigit, Bool.and_eq_true, decide_eq_true_eq, decide_eq_true_eq] at h
  rw [isDigit, List.any_eq_true]
  refine ⟨0x0030, List.mem_cons_self, ?_⟩
  rw [Bool.and_eq_true, decide_eq_true_eq, decide_eq_true_eq]
  exact ⟨UInt32.le_iff_toNat_le.mp h.1, UInt32.le_iff_toNat_le.mp h.2⟩

theorem takeWhile_eq_of_all {p q : Char → Bool} (himp : ∀ c, q c = true → p c = true)
    {s : QString} (hall : ∀ c ∈ s.takeWhile p, q c = true) : s.takeWhile q = s.takeWhile p := by
  induction s with
  | nil => rfl
  | cons c s ih =>
      by_cases hp : p c = true
      · rw [List.takeWhile_cons_of_pos hp] at hall ⊢
        rw [List.takeWhile_cons_of_pos (hall c List.mem_cons_self),
          ih fun d hd => hall d (List.mem_cons_of_mem c hd)]
      · have hq : ¬ q c = true := fun h => hp (himp c h)
        rw [List.takeWhile_cons_of_neg hp, List.takeWhile_cons_of_neg hq]

/-- The text from the first digit of any script on. -/
def fromDigit (s : QString) : QString := s.dropWhile fun c => !isDigit c

theorem fromDigit_of_digit {c : Char} (h : isDigit c = true) (s : QString) :
    fromDigit (c :: s) = c :: s :=
  List.dropWhile_cons_of_neg (by rw [h]; decide)

theorem fromDigit_of_not {c : Char} (h : ¬ isDigit c = true) (s : QString) :
    fromDigit (c :: s) = fromDigit s :=
  List.dropWhile_cons_of_pos (by rw [Bool.not_eq_true] at h; rw [h]; rfl)

theorem unsignedNumber_of_digit {c : Char} (h : isDigit c = true) (s : QString) :
    unsignedNumber (c :: s) =
      some ((c :: s).takeWhile isDigit ++ fraction ((c :: s).dropWhile isDigit)) := by
  rw [unsignedNumber, if_neg]
  rw [List.takeWhile_cons_of_pos h]
  exact List.cons_ne_nil c _

theorem unsignedNumber_of_not {c : Char} (h : ¬ isDigit c = true) (s : QString) :
    unsignedNumber (c :: s) = none := by
  rw [unsignedNumber, if_pos]
  exact List.takeWhile_cons_of_neg h

theorem numberAt_cons {c : Char} (h : c ≠ '-') (s : QString) :
    numberAt (c :: s) = unsignedNumber (c :: s) := by
  rw [numberAt]
  intro t heq
  exact h (List.cons.inj heq).1

/-- The match, with or without the sign. -/
theorem firstNumber_cases (s : QString) :
    firstNumber s = [] ∨ ∃ c t, isDigit c = true ∧ fromDigit s = c :: t ∧
      (firstNumber s = (c :: t).takeWhile isDigit ++ fraction ((c :: t).dropWhile isDigit) ∨
        firstNumber s =
          '-' :: ((c :: t).takeWhile isDigit ++ fraction ((c :: t).dropWhile isDigit))) := by
  induction s with
  | nil => exact Or.inl rfl
  | cons c s ih =>
      by_cases hdigit : isDigit c = true
      · have hsign : c ≠ '-' := by
          intro heq
          rw [heq] at hdigit
          exact absurd hdigit (by decide)
        right
        refine ⟨c, s, hdigit, fromDigit_of_digit hdigit s, Or.inl ?_⟩
        rw [firstNumber, numberAt_cons hsign, unsignedNumber_of_digit hdigit]
        rfl
      · rw [firstNumber, fromDigit_of_not hdigit]
        by_cases hsign : c = '-'
        · rw [hsign]
          cases s with
          | nil => exact Or.inl rfl
          | cons d s =>
              by_cases hnext : isDigit d = true
              · right
                refine ⟨d, s, hnext, fromDigit_of_digit hnext s, Or.inr ?_⟩
                rw [numberAt, unsignedNumber_of_digit hnext]
                rfl
              · rw [numberAt, unsignedNumber_of_not hnext]
                exact ih
        · rw [numberAt_cons hsign, unsignedNumber_of_not hdigit]
          exact ih

theorem firstDigits_eq {c : Char} {s t : QString} (hdigit : isDigit c = true)
    (hfrom : fromDigit s = c :: t) (hall : ∀ d ∈ (c :: t).takeWhile isDigit, d.isDigit = true) :
    firstDigits s = (c :: t).takeWhile isDigit := by
  induction s with
  | nil => exact absurd hfrom.symm (List.cons_ne_nil c t)
  | cons d s ih =>
      by_cases hd : isDigit d = true
      · rw [fromDigit_of_digit hd] at hfrom
        rw [hfrom]
        have hascii : c.isDigit = true := by
          apply hall
          rw [List.takeWhile_cons_of_pos hdigit]
          exact List.mem_cons_self
        rw [firstDigits, List.dropWhile_cons_of_neg (by rw [hascii]; decide)]
        exact takeWhile_eq_of_all (fun _ => isDigit_of_ascii) hall
      · rw [fromDigit_of_not hd] at hfrom
        have hskip : (!d.isDigit) = true := by
          rw [Bool.not_eq_true', ← Bool.not_eq_true]
          exact fun hascii => hd (isDigit_of_ascii hascii)
        rw [firstDigits, List.dropWhile_cons_of_pos (p := fun c : Char => !c.isDigit) hskip]
        exact ih hfrom

theorem mem_firstDigits {c : Char} {s : QString} (h : c ∈ firstDigits s) : c.isDigit = true :=
  List.mem_takeWhile_imp h

theorem fraction_cases (s : QString) :
    fraction s = [] ∨ '.' ∈ fraction s ∨ ',' ∈ fraction s := by
  cases s with
  | nil => exact Or.inl rfl
  | cons c s =>
      rw [fraction]
      split
      · rename_i h
        cases h.1 with
        | inl hdot => exact Or.inr (Or.inl (hdot ▸ List.mem_cons_self))
        | inr hcomma => exact Or.inr (Or.inr (hcomma ▸ List.mem_cons_self))
      · exact Or.inl rfl

/-- A match of plain digits is the first digits of the text. -/
theorem firstDigits_of_all {c : Char} {s t : QString} (hdigit : isDigit c = true)
    (hfrom : fromDigit s = c :: t)
    (hall : ∀ d ∈ (c :: t).takeWhile isDigit ++ fraction ((c :: t).dropWhile isDigit),
      d.isDigit = true) :
    (c :: t).takeWhile isDigit ++ fraction ((c :: t).dropWhile isDigit) = firstDigits s := by
  have hnone : fraction ((c :: t).dropWhile isDigit) = [] := by
    cases fraction_cases ((c :: t).dropWhile isDigit) with
    | inl hnil => exact hnil
    | inr hmark =>
        cases hmark with
        | inl hdot => exact absurd (hall _ (List.mem_append_right _ hdot)) (by decide)
        | inr hcomma => exact absurd (hall _ (List.mem_append_right _ hcomma)) (by decide)
  rw [firstDigits_eq hdigit hfrom fun d hd => hall d (List.mem_append_left _ hd), hnone,
    List.append_nil]

theorem toInt_unsigned {c : Char} (hdigit : isDigit c = true) (w : QString) :
    toInt (c :: w) =
      if (c :: w).all Char.isDigit ∧ decimal (c :: w) < 2 ^ 31 then (decimal (c :: w) : Int)
      else 0 := by
  have hunsigned : toInt (c :: w) = signedInt 1 (c :: w) := by
    rw [toInt]
    · intro digits heq
      rw [(List.cons.inj heq).1] at hdigit
      exact absurd hdigit (by decide)
    · intro digits heq
      rw [(List.cons.inj heq).1] at hdigit
      exact absurd hdigit (by decide)
  rw [hunsigned, signedInt, Int.one_mul]
  by_cases hall : (c :: w).all Char.isDigit = true
  · rw [if_pos ⟨List.cons_ne_nil c w, hall⟩]
    by_cases hless : decimal (c :: w) < 2 ^ 31
    · have hfits : -2 ^ 31 ≤ (decimal (c :: w) : Int) ∧ (decimal (c :: w) : Int) < 2 ^ 31 := by
        omega
      rw [if_pos hfits, if_pos ⟨hall, hless⟩]
    · have hlarge : ¬ (-2 ^ 31 ≤ (decimal (c :: w) : Int) ∧ (decimal (c :: w) : Int) < 2 ^ 31) := by
        omega
      rw [if_neg hlarge, if_neg fun h => hless h.2]
  · rw [if_neg fun h => hall h.2, if_neg fun h => hall h.1]

theorem toInt_minus (w : QString) :
    toInt ('-' :: w) = 0 ∨ w.all Char.isDigit = true ∧ toInt ('-' :: w) = -decimal w := by
  rw [toInt, signedInt]
  split
  · rename_i hdigits
    split
    · right
      exact ⟨hdigits.2, by omega⟩
    · exact Or.inl rfl
  · exact Or.inl rfl

/-- The number that the expression finds is the number in the text, if that is zero or
if the match is just its digits and they fit. -/
theorem toInt_firstNumber_iff {s : QString} (hdigits : firstDigits s ≠ []) :
    toInt (firstNumber s) = decimal (firstDigits s) ↔
      decimal (firstDigits s) = 0 ∨
        firstNumber s = firstDigits s ∧ decimal (firstDigits s) < 2 ^ 31 := by
  cases firstNumber_cases s with
  | inl hnone =>
      have hzero : toInt [] = 0 := rfl
      rw [hnone, hzero, or_iff_left fun h => hdigits h.1.symm]
      omega
  | inr hfound =>
      obtain ⟨c, t, hdigit, hfrom, hmatch⟩ := hfound
      have hascii := @firstDigits_of_all c s t hdigit hfrom
      obtain ⟨w, hw⟩ : ∃ w, (c :: t).takeWhile isDigit ++ fraction ((c :: t).dropWhile isDigit) =
          c :: w := by
        rw [List.takeWhile_cons_of_pos hdigit]
        exact ⟨_, rfl⟩
      rw [hw] at hmatch hascii
      cases hmatch with
      | inl hplain =>
          rw [hplain, toInt_unsigned hdigit]
          by_cases hall : (c :: w).all Char.isDigit = true
          · have hfirst := hascii (List.all_eq_true.mp hall)
            rw [hfirst] at hall ⊢
            by_cases hless : decimal (firstDigits s) < 2 ^ 31
            · rw [if_pos ⟨hall, hless⟩]
              exact iff_of_true rfl (Or.inr ⟨rfl, hless⟩)
            · rw [if_neg fun h => hless h.2, or_iff_left fun h => hless h.2]
              omega
          · have hother : c :: w ≠ firstDigits s := by
              intro heq
              apply hall
              rw [List.all_eq_true, heq]
              exact fun d => mem_firstDigits
            rw [if_neg fun h => hall h.1, or_iff_left fun h => hother h.1]
            omega
      | inr hsigned =>
          have hother : '-' :: c :: w ≠ firstDigits s := by
            intro heq
            have hminus : '-' ∈ firstDigits s := heq ▸ List.mem_cons_self
            exact absurd (mem_firstDigits hminus) (by decide)
          rw [hsigned, or_iff_left fun h => hother h.1]
          cases toInt_minus (c :: w) with
          | inl hzero =>
              rw [hzero]
              omega
          | inr hminus =>
              rw [hminus.2, hascii (List.all_eq_true.mp hminus.1)]
              omega

/-- `QString::number` -/
def number (n : Int) : QString :=
  if n < 0 then '-' :: Nat.toDigits 10 n.natAbs else Nat.toDigits 10 n.natAbs

theorem number_natCast (n : Nat) : number n = Nat.toDigits 10 n := by
  rw [number, if_neg (Int.not_lt.mpr (Int.natCast_nonneg n)), Int.natAbs_natCast]

theorem decimal_toDigits (n : Nat) : decimal (Nat.toDigits 10 n) = n := by
  have h := @Nat.ofDigitChars_ten_toDigits n
  rw [Nat.ofDigitChars_eq_foldl] at h
  exact h

theorem all_isDigit_toDigits (n : Nat) : (Nat.toDigits 10 n).all Char.isDigit = true :=
  List.all_eq_true.mpr fun _ => Nat.isDigit_of_mem_toDigits (by decide) (by decide)

/-- Only digits and the sign are written. -/
theorem notMem_number {c : Char} (hdigit : c.isDigit = false) (hminus : c ≠ '-') (n : Int) :
    c ∉ number n := by
  have hdigits : c ∉ Nat.toDigits 10 n.natAbs := by
    intro hmem
    have hall := List.all_eq_true.mp (all_isDigit_toDigits n.natAbs) c hmem
    rw [hdigit] at hall
    exact absurd hall Bool.false_ne_true
  rw [number]
  split
  · rw [List.mem_cons, not_or]
    exact ⟨hminus, hdigits⟩
  · exact hdigits

theorem toInt_toDigits (n : Nat) :
    toInt (Nat.toDigits 10 n) = if n < 2 ^ 31 then (n : Int) else 0 := by
  have hall := all_isDigit_toDigits n
  have hvalue := decimal_toDigits n
  cases heq : Nat.toDigits 10 n with
  | nil => exact absurd heq Nat.toDigits_ne_nil
  | cons c w =>
      rw [heq] at hall hvalue
      have hdigit : c.isDigit = true := List.all_eq_true.mp hall c List.mem_cons_self
      rw [toInt_unsigned (isDigit_of_ascii hdigit), hvalue]
      apply if_congr _ rfl rfl
      exact and_iff_right hall

theorem toInt_number_natCast (n : Nat) :
    toInt (number n) = if n < 2 ^ 31 then (n : Int) else 0 := by
  rw [number_natCast]
  exact toInt_toDigits n

end SubutaiTray
