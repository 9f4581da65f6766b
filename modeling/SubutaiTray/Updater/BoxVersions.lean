import SubutaiTray.Library.JoinedOrder
import SubutaiTray.Library.Words
import SubutaiTray.Installer.Functions
import Mathlib.Data.List.DropRight

/-!
When the Subutai box has an update (`CUpdaterComponentSUBUTAI_BOX`).

The installed version is the one in the last row of `vagrant box list` that names the
box and the provider, and it is compared with the version in the cloud as a text.
-/
namespace SubutaiTray.Updater

open Words JoinedOrder Installer

/-- The UTF-16 code units of a text. -/
def codeUnits (s : QString) : List Nat :=
  s.flatMap fun c =>
    if c.toNat < 0x10000 then [c.toNat]
    else [0xD800 + (c.toNat - 0x10000) / 0x400, 0xDC00 + (c.toNat - 0x10000) % 0x400]

/-- `operator <` of `QString` -/
def textLess (s t : QString) : Bool := codeUnits s < codeUnits t

/-- `QChar::isLetterOrNumber`, as far as it matters here. -/
structure CharTest where
  isLetterOrNumber : Char → Bool
  digit : ∀ c : Char, c.isDigit → isLetterOrNumber c
  lineEnd : isLetterOrNumber '\r' = false

section
variable (test : CharTest)

def removeMarks (s : QString) : QString := s.filter fun c => ¬ (c = '(' ∨ c = ',' ∨ c = ')')

/-- One turn of the loop over the rows. -/
def scanRow (box provider : QString) (version s : QString) : QString :=
  match wordsBy (· = ' ') (removeMarks s) with
  | name :: prov :: ver :: _ => if name = box ∧ prov = provider then ver else version
  | _ => version

/-- The loop that cuts off what is neither letter nor number at the end; `none` when
the text is used up. -/
def cutEnd (version : QString) : Option QString :=
  match version.rdropWhile fun c => !test.isLetterOrNumber c with
  | [] => none
  | c :: rest => some (c :: rest)

/-- `vagrant_latest_box_version`, `vagrantVersion` being what `vagrant_version` found. -/
def vagrantLatestBoxVersion (vagrantVersion : QString) (res : SystemCallRes)
    (box provider : QString) : Option (SystemCallWrapperError × QString) :=
  if vagrantVersion = undefinedVersion then
    some (.createProcess, "Install Vagrant first".toList)
  else if res.res ≠ .success ∨ res.exitCode ≠ 0 then some (.createProcess, undefinedVersion)
  else (cutEnd test (res.out.foldl (scanRow box provider) undefinedVersion)).map
    fun version => (.success, version)

/-- `CUpdaterComponentSUBUTAI_BOX::update_available_internal` -/
def boxUpdateAvailable (vagrantVersion : QString) (res : SystemCallRes) (box provider : QString)
    (cloudVersion : QString) : Option Bool :=
  (vagrantLatestBoxVersion test vagrantVersion res box provider).map fun (res, version) =>
    if version = undefinedVersion then true
    else if res ≠ .success then false
    else if cloudVersion = undefinedVersion ∨ cloudVersion = [] then false
    else textLess version cloudVersion

end

def digitOf (d : Fin 10) : Char := Char.ofNat (48 + d)

theorem toNat_digitOf (d : Fin 10) : (digitOf d).toNat = 48 + d := by
  revert d
  decide

theorem digitOf_plain (d : Fin 10) :
    (digitOf d).isDigit ∧ digitOf d ≠ ' ' ∧ digitOf d ≠ '(' ∧ digitOf d ≠ ',' ∧ digitOf d ≠ ')' ∧
      digitOf d ≠ '\n' ∧ digitOf d ≠ 'u' := by
  revert d
  decide

/-- A version: numbers with a dot between them. -/
structure Version where
  parts : List (List (Fin 10))
  parts_ne_nil : parts ≠ []
  part_ne_nil : ∀ part ∈ parts, part ≠ []

def Version.text (v : Version) : QString :=
  ['.'].intercalate (v.parts.map fun part => part.map digitOf)

/-- The order from the first number on. A version is above its own beginnings. -/
def Version.Lower (v w : Version) : Prop := v.parts.map numeral < w.parts.map numeral

instance (v w : Version) : Decidable (v.Lower w) :=
  inferInstanceAs (Decidable (v.parts.map numeral < w.parts.map numeral))

/-- A name as it stands in a row. -/
structure RowWord where
  str : QString
  ne_nil : str ≠ []
  plain : ∀ c ∈ str, c ≠ ' ' ∧ c ≠ '(' ∧ c ≠ ',' ∧ c ≠ ')' ∧ c ≠ '\n'

/-- A row of `vagrant box list`. The boxes are padded to one width. -/
structure Row where
  box : RowWord
  padding : Nat
  provider : RowWord
  version : Version
  carriageReturn : Bool

def Row.lineEnd (r : Row) : QString := if r.carriageReturn then ['\r'] else []

def Row.text (r : Row) : QString :=
  r.box.str ++ List.replicate (r.padding + 1) ' ' ++ '(' :: r.provider.str ++ [',', ' '] ++
    r.version.text ++ ')' :: r.lineEnd

def Row.Names (box provider : QString) (r : Row) : Prop :=
  r.box.str = box ∧ r.provider.str = provider

instance (box provider : QString) (r : Row) : Decidable (r.Names box provider) :=
  inferInstanceAs (Decidable (_ ∧ _))

/-- What the command prints, with a row for the wanted box and provider in it. -/
structure BoxList (box provider : QString) where
  rows : List Row
  wanted : ∃ r ∈ rows, r.Names box provider

section
variable {box provider : QString}

def BoxList.output (boxes : BoxList box provider) : QString :=
  boxes.rows.flatMap fun r => r.text ++ ['\n']

/-- The result of the system call: its output without empty lines. -/
def BoxList.res (boxes : BoxList box provider) : SystemCallRes :=
  { res := .success, out := wordsBy (· = '\n') boxes.output, exitCode := 0 }

/-- The installed versions of the box for the provider, in the order of the rows. -/
def BoxList.installed (boxes : BoxList box provider) : List Version :=
  (boxes.rows.filter (·.Names box provider)).map (·.version)

theorem BoxList.installed_ne_nil (boxes : BoxList box provider) : boxes.installed ≠ [] := by
  obtain ⟨r, hr, hnames⟩ := boxes.wanted
  have hmem : r.version ∈ boxes.installed :=
    List.mem_map_of_mem (List.mem_filter.mpr ⟨hr, by simpa using hnames⟩)
  exact List.ne_nil_of_mem hmem

def BoxList.last (boxes : BoxList box provider) : Version :=
  boxes.installed.getLast boxes.installed_ne_nil

end

section text
variable (v w : Version)

theorem Version.cons_text :
    '.' :: v.text = v.parts.flatMap fun part => '.' :: part.map digitOf := by
  have hparts : v.parts.map (fun part => part.map digitOf) ≠ [] := by
    simpa using v.parts_ne_nil
  rw [Version.text, ← flatMap_cons_eq_intercalate hparts, List.flatMap_map]

theorem Version.text_chars {c : Char} (hc : c ∈ v.text) : c = '.' ∨ ∃ d, c = digitOf d := by
  have hmem : c ∈ '.' :: v.text := List.mem_cons_of_mem _ hc
  rw [v.cons_text, List.mem_flatMap] at hmem
  obtain ⟨part, -, hpart⟩ := hmem
  cases List.mem_cons.mp hpart with
  | inl hdot => exact Or.inl hdot
  | inr hdigit =>
      obtain ⟨d, -, rfl⟩ := List.mem_map.mp hdigit
      exact Or.inr ⟨d, rfl⟩

theorem Version.text_plain {c : Char} (hc : c ∈ v.text) :
    c ≠ ' ' ∧ c ≠ '(' ∧ c ≠ ',' ∧ c ≠ ')' ∧ c ≠ '\n' ∧ c ≠ 'u' := by
  cases v.text_chars hc with
  | inl hdot =>
      rw [hdot]
      decide
  | inr hdigit =>
      obtain ⟨d, rfl⟩ := hdigit
      exact (digitOf_plain d).2

/-- A version ends with a digit. -/
theorem Version.text_concat : ∃ t d, v.text = t ++ [digitOf d] := by
  obtain ⟨parts, part, hparts⟩ := List.eq_nil_or_concat v.parts |>.resolve_left v.parts_ne_nil
  have hpart : part ≠ [] := v.part_ne_nil part (by rw [hparts]; simp)
  obtain ⟨digits, d, hdigits⟩ := List.eq_nil_or_concat part |>.resolve_left hpart
  have htext := v.cons_text
  rw [hparts, hdigits] at htext
  refine ⟨((parts.flatMap fun part => '.' :: part.map digitOf) ++
    '.' :: digits.map digitOf).tail, d, ?_⟩
  have htail : v.text = ('.' :: v.text).tail := rfl
  rw [htail, htext, ← List.tail_append_of_ne_nil (by simp)]
  simp

theorem Version.text_ne_nil : v.text ≠ [] := by
  obtain ⟨t, d, htext⟩ := v.text_concat
  rw [htext]
  simp

theorem Version.text_ne_undefined : v.text ≠ undefinedVersion := by
  intro h
  have hu : 'u' ∈ v.text := by
    rw [h]
    decide
  exact (v.text_plain hu).2.2.2.2.2 rfl

theorem codeUnits_of_ascii {s : QString} (h : ∀ c ∈ s, c.toNat < 0x10000) :
    codeUnits s = s.map Char.toNat := by
  induction s with
  | nil => rfl
  | cons c s ih =>
      obtain ⟨hc, hs⟩ := List.forall_mem_cons.mp h
      rw [codeUnits, List.flatMap_cons, if_pos hc, List.map_cons, ← ih hs]
      rfl

theorem Version.cons_codeUnits_text :
    46 :: codeUnits v.text =
      (v.parts.map fun part => part.map fun d => 48 + d.val).flatMap (46 :: ·) := by
  have hsmall : ∀ c ∈ v.text, c.toNat < 0x10000 := by
    intro c hc
    cases v.text_chars hc with
    | inl hdot =>
        rw [hdot]
        decide
    | inr hdigit =>
        obtain ⟨d, rfl⟩ := hdigit
        rw [toNat_digitOf]
        omega
  have hdot : 46 :: v.text.map Char.toNat = ('.' :: v.text).map Char.toNat := rfl
  rw [codeUnits_of_ascii hsmall, hdot, v.cons_text, List.map_flatMap, List.flatMap_map]
  refine List.flatMap_congr ?_
  intro part hpart
  rw [List.map_cons, List.map_map]
  refine congrArg _ (List.map_congr_left ?_)
  intro d hd
  exact toNat_digitOf d

/-- The dot is below the digits: texts are ordered as the versions are, part by part, by
their digits. -/
theorem textLess_text : textLess v.text w.text ↔ v.parts < w.parts := by
  have hunit : StrictMono fun d : Fin 10 => 48 + d.val := by
    intro d e hlt
    exact Nat.add_lt_add_left hlt 48
  have habove (u : Version) : ∀ part ∈ u.parts.map fun part => part.map fun d => 48 + d.val,
      ∀ a ∈ part, 46 < a := by
    intro part hpart a ha
    obtain ⟨digits, -, rfl⟩ := List.mem_map.mp hpart
    obtain ⟨d, -, rfl⟩ := List.mem_map.mp ha
    omega
  have hcons : textLess v.text w.text ↔ 46 :: codeUnits v.text < 46 :: codeUnits w.text := by
    rw [textLess, decide_eq_true_iff, List.cons_lt_cons_iff]
    simp
  rw [hcons, v.cons_codeUnits_text, w.cons_codeUnits_text,
    flatMap_lt_flatMap_iff (habove v) (habove w)]
  refine map_lt_map_iff ?_ v.parts w.parts
  intro part part' hlt
  exact (map_lt_map_iff hunit part part').mpr hlt

end text

section rows
variable {box provider : QString} (r : Row)

theorem removeMarks_of_plain {s : QString} (h : ∀ c ∈ s, c ≠ '(' ∧ c ≠ ',' ∧ c ≠ ')') :
    removeMarks s = s := by
  rw [removeMarks, List.filter_eq_self]
  intro c hc
  simpa using h c hc

theorem removeMarks_append (s t : QString) :
    removeMarks (s ++ t) = removeMarks s ++ removeMarks t :=
  List.filter_append _ _

theorem Row.lineEnd_plain {c : Char} (hc : c ∈ r.lineEnd) : c = '\r' := by
  rw [Row.lineEnd] at hc
  split at hc
  · exact List.mem_singleton.mp hc
  · exact absurd hc List.not_mem_nil

theorem Row.removeMarks_text :
    removeMarks r.text =
      r.box.str ++ List.replicate (r.padding + 1) ' ' ++
        (r.provider.str ++ [' '] ++ (r.version.text ++ r.lineEnd)) := by
  have hword (word : RowWord) : removeMarks word.str = word.str := by
    refine removeMarks_of_plain ?_
    intro c hc
    have := word.plain c hc
    exact ⟨this.2.1, this.2.2.1, this.2.2.2.1⟩
  have hversion : removeMarks r.version.text = r.version.text := by
    refine removeMarks_of_plain ?_
    intro c hc
    have := r.version.text_plain hc
    exact ⟨this.2.1, this.2.2.1, this.2.2.2.1⟩
  have hpadding : removeMarks (List.replicate (r.padding + 1) ' ') =
      List.replicate (r.padding + 1) ' ' := by
    refine removeMarks_of_plain ?_
    intro c hc
    rw [List.eq_of_mem_replicate hc]
    decide
  have hend : removeMarks r.lineEnd = r.lineEnd := by
    refine removeMarks_of_plain ?_
    intro c hc
    rw [r.lineEnd_plain hc]
    decide
  have htext : r.text = r.box.str ++ (List.replicate (r.padding + 1) ' ' ++ (['('] ++
      (r.provider.str ++ ([',', ' '] ++ (r.version.text ++ ([')'] ++ r.lineEnd)))))) := by
    simp [Row.text]
  have hmarks : removeMarks ['('] = [] ∧ removeMarks [',', ' '] = [' '] ∧ removeMarks [')'] = [] :=
    ⟨rfl, rfl, rfl⟩
  simp only [htext, removeMarks_append, hword, hversion, hpadding, hend, hmarks,
    List.nil_append, List.append_assoc]

/-- A row falls into three words. -/
theorem Row.words_text :
    wordsBy (· = ' ') (removeMarks r.text) =
      [r.box.str, r.provider.str, r.version.text ++ r.lineEnd] := by
  have hword (word : RowWord) : wordsBy (fun c => decide (c = ' ')) word.str = [word.str] := by
    refine wordsBy_of_word word.ne_nil ?_
    intro c hc
    simpa using (word.plain c hc).1
  have hversion : wordsBy (fun c => decide (c = ' ')) (r.version.text ++ r.lineEnd) =
      [r.version.text ++ r.lineEnd] := by
    refine wordsBy_of_word (by simp [r.version.text_ne_nil]) ?_
    intro c hc
    cases List.mem_append.mp hc with
    | inl htext => simpa using (r.version.text_plain htext).1
    | inr hend =>
        rw [r.lineEnd_plain hend]
        rfl
  rw [r.removeMarks_text,
    wordsBy_append_seps_append (by simp) (by
      intro c hc
      simpa using List.eq_of_mem_replicate hc),
    wordsBy_append_seps_append (by simp) (by simp), hword, hword, hversion]
  rfl

theorem scanRow_text (version : QString) :
    scanRow box provider version r.text =
      if r.Names box provider then r.version.text ++ r.lineEnd else version := by
  rw [scanRow, r.words_text]
  rfl

theorem foldl_scanRow (rows : List Row) (version : QString) :
    (rows.map Row.text).foldl (scanRow box provider) version =
      ((rows.filter (·.Names box provider)).getLast?.map
        fun r => r.version.text ++ r.lineEnd).getD version := by
  induction rows generalizing version with
  | nil => rfl
  | cons r rows ih =>
      rw [List.map_cons, List.foldl_cons, ih, scanRow_text]
      by_cases hr : r.Names box provider
      · rw [if_pos hr, List.filter_cons_of_pos (by simpa using hr), List.getLast?_cons]
        cases (rows.filter (·.Names box provider)).getLast? <;> rfl
      · rw [if_neg hr, List.filter_cons_of_neg (by simpa using hr)]

theorem Row.text_oneLine : r.text ≠ [] ∧ ∀ c ∈ r.text, decide (c = '\n') = false := by
  refine ⟨by simp [Row.text], ?_⟩
  intro c hc
  rw [decide_eq_false_iff_not]
  rintro rfl
  have hbox : '\n' ∉ r.box.str := fun h => (r.box.plain _ h).2.2.2.2 rfl
  have hprovider : '\n' ∉ r.provider.str := fun h => (r.provider.plain _ h).2.2.2.2 rfl
  have hversion : '\n' ∉ r.version.text := fun h => (r.version.text_plain h).2.2.2.2.1 rfl
  have hend : '\n' ∉ r.lineEnd := fun h => absurd (r.lineEnd_plain h) (by decide)
  simp [Row.text, hbox, hprovider, hversion, hend] at hc

theorem words_output (rows : List Row) :
    wordsBy (· = '\n') (rows.flatMap fun r => r.text ++ ['\n']) = rows.map Row.text := by
  induction rows with
  | nil => exact wordsBy_nil
  | cons r rows ih =>
      rw [List.flatMap_cons, wordsBy_append_seps_append (by simp) (by simp),
        wordsBy_of_word r.text_oneLine.1 r.text_oneLine.2, ih]
      rfl

theorem cutEnd_text (test : CharTest) :
    cutEnd test (r.version.text ++ r.lineEnd) = some r.version.text := by
  obtain ⟨t, d, htext⟩ := r.version.text_concat
  have hkept : (t ++ [digitOf d]).rdropWhile (fun c => !test.isLetterOrNumber c) =
      t ++ [digitOf d] :=
    List.rdropWhile_concat_neg _ _ _ (by simp [test.digit _ (digitOf_plain d).1])
  have hcut : (r.version.text ++ r.lineEnd).rdropWhile (fun c => !test.isLetterOrNumber c) =
      t ++ [digitOf d] := by
    rw [htext, Row.lineEnd]
    split
    · rw [List.rdropWhile_concat_pos _ _ _ (by simp [test.lineEnd]), hkept]
    · rw [List.append_nil, hkept]
  rw [cutEnd, hcut, htext]
  cases t <;> rfl

end rows

section decision
variable {box provider : QString} (boxes : BoxList box provider)

theorem BoxList.last_mem : boxes.last ∈ boxes.installed := List.getLast_mem _

theorem BoxList.foldl_out :
    ∃ r : Row, r.version = boxes.last ∧
      boxes.res.out.foldl (scanRow box provider) undefinedVersion = r.version.text ++ r.lineEnd := by
  have hout : boxes.res.out = boxes.rows.map Row.text := words_output boxes.rows
  have hlast : boxes.installed.getLast? = some boxes.last :=
    List.getLast?_eq_some_getLast boxes.installed_ne_nil
  rw [BoxList.installed, List.getLast?_map, Option.map_eq_some_iff] at hlast
  obtain ⟨r, hr, hversion⟩ := hlast
  refine ⟨r, hversion, ?_⟩
  rw [hout, foldl_scanRow, hr]
  rfl

/-- With Vagrant found, the last row decides, by its text. -/
theorem boxUpdateAvailable_eq (test : CharTest) {vagrantVersion : QString}
    (hvagrant : vagrantVersion ≠ undefinedVersion) (cloud : Version) :
    boxUpdateAvailable test vagrantVersion boxes.res box provider cloud.text =
      some (decide (boxes.last.parts < cloud.parts)) := by
  obtain ⟨r, hr, hfold⟩ := boxes.foldl_out
  have hlatest : vagrantLatestBoxVersion test vagrantVersion boxes.res box provider =
      some (.success, boxes.last.text) := by
    rw [vagrantLatestBoxVersion, if_neg hvagrant, if_neg (by simp [BoxList.res]), hfold,
      cutEnd_text, hr]
    rfl
  have hcloud : ¬ (cloud.text = undefinedVersion ∨ cloud.text = []) := by
    rintro (hundefined | hnil)
    · exact cloud.text_ne_undefined hundefined
    · exact cloud.text_ne_nil hnil
  rw [boxUpdateAvailable, hlatest, Option.map_some, Option.some_inj]
  dsimp only
  rw [if_neg boxes.last.text_ne_undefined, if_neg (by simp), if_neg hcloud, Bool.eq_iff_iff,
    decide_eq_true_iff]
  exact textLess_text _ _

/-- An update is reported exactly when the cloud has a version above all installed ones. -/
def UpdateRight (available : Option Bool) (cloud : Version) : Prop :=
  ∃ update, available = some update ∧ (update = true ↔ ∀ v ∈ boxes.installed, v.Lower cloud)

/-- Where the digits of the last version and of the cloud's mislead, it must be a lower
version that some other one makes up for; elsewhere no installed version may be above the
cloud's when the last is not. -/
def LastDecides (cloud : Version) : Prop :=
  if Misled numeral boxes.last.parts cloud.parts then
    boxes.last.Lower cloud ∧ ∃ v ∈ boxes.installed, ¬ v.Lower cloud
  else boxes.last.Lower cloud → ∀ v ∈ boxes.installed, v.Lower cloud

/-- The decision is right exactly when the text of the last row may stand for all. -/
theorem boxUpdate_right_iff_lastDecides (test : CharTest) {vagrantVersion : QString}
    (hvagrant : vagrantVersion ≠ undefinedVersion) (cloud : Version) :
    UpdateRight boxes
        (boxUpdateAvailable test vagrantVersion boxes.res box provider cloud.text) cloud ↔
      LastDecides boxes cloud := by
  have hlast : (∀ v ∈ boxes.installed, v.Lower cloud) → boxes.last.Lower cloud :=
    fun hall => hall _ boxes.last_mem
  have horder : (boxes.last.parts < cloud.parts ↔ boxes.last.Lower cloud) ↔
      ¬ Misled numeral boxes.last.parts cloud.parts :=
    lt_iff_map_lt_iff_not_misled _ _
  have hright : UpdateRight boxes
      (boxUpdateAvailable test vagrantVersion boxes.res box provider cloud.text) cloud ↔
        (boxes.last.parts < cloud.parts ↔ ∀ v ∈ boxes.installed, v.Lower cloud) := by
    rw [UpdateRight, boxUpdateAvailable_eq boxes test hvagrant]
    simp
  rw [hright, LastDecides]
  split
  · rename_i hmisled
    have hwrong : ¬ (boxes.last.parts < cloud.parts ↔ boxes.last.Lower cloud) :=
      fun h => horder.mp h hmisled
    have hsome : (∃ v ∈ boxes.installed, ¬ v.Lower cloud) ↔
        ¬ ∀ v ∈ boxes.installed, v.Lower cloud := by
      simp
    rw [hsome]
    by_cases hlower : boxes.last.Lower cloud
    · have htext : ¬ boxes.last.parts < cloud.parts :=
        fun htext => hwrong (iff_of_true htext hlower)
      simp [htext, hlower]
    · have htext : boxes.last.parts < cloud.parts :=
        not_not.mp fun htext => hwrong (iff_of_false htext hlower)
      have hnot : ¬ ∀ v ∈ boxes.installed, v.Lower cloud := fun hall => hlower (hlast hall)
      exact iff_of_false (fun h => hnot (h.mp htext)) fun h => hlower h.1
  · rename_i hmisled
    rw [horder.mpr hmisled]
    exact ⟨fun h => h.mp, fun h => ⟨h, hlast⟩⟩

/-- So the decision is right when the rows end with the highest version and the parts of
versions have a fixed width. -/
theorem lastDecides_of_width {cloud : Version}
    (width : ∀ p ∈ boxes.last.parts.zip cloud.parts, p.1.length = p.2.length)
    (highest : ∀ v ∈ boxes.installed, ¬ boxes.last.Lower v) : LastDecides boxes cloud := by
  rw [LastDecides, if_neg (not_misled_numeral width)]
  intro hlast v hv
  exact lt_of_le_of_lt (not_lt.mp (highest v hv)) hlast

end decision

def RowWord.ofAll (str : QString) (ne_nil : str ≠ [])
    (all : str.all (fun c => c ≠ ' ' ∧ c ≠ '(' ∧ c ≠ ',' ∧ c ≠ ')' ∧ c ≠ '\n') = true) : RowWord :=
  ⟨str, ne_nil, fun c hc => of_decide_eq_true (List.all_eq_true.mp all c hc)⟩

def stretch : RowWord := .ofAll "subutai/stretch".toList (by decide) (by decide +kernel)
def virtualbox : RowWord := .ofAll "virtualbox".toList (by decide) (by decide +kernel)

def zero : Fin 10 := ⟨0, by decide⟩
def one : Fin 10 := ⟨1, by decide⟩
def nine : Fin 10 := ⟨9, by decide⟩

def versionNine : Version := ⟨[[nine], [zero], [zero]], by decide, by decide⟩
def versionTen : Version := ⟨[[one, zero], [zero], [zero]], by decide, by decide⟩

def asciiTest : CharTest where
  isLetterOrNumber := Char.isAlphanum
  digit := by
    intro c hc
    rw [Char.isAlphanum, hc, Bool.or_true]
  lineEnd := by decide

def oneRow : BoxList stretch.str virtualbox.str where
  rows := [⟨stretch, 0, virtualbox, versionNine, false⟩]
  wanted := ⟨_, List.mem_singleton_self _, rfl, rfl⟩

theorem boxUpdate_right_iff_oneRow :
    "2.1.2".toList ≠ undefinedVersion ∧
      (UpdateRight oneRow
          (boxUpdateAvailable asciiTest "2.1.2".toList oneRow.res stretch.str virtualbox.str
            versionTen.text) versionTen ↔
        LastDecides oneRow versionTen) :=
  ⟨by decide, boxUpdate_right_iff_lastDecides oneRow asciiTest (by decide) versionTen⟩

/-- From 9.0.0 there is no update to 10.0.0. -/
theorem not_updateRight_ten :
    boxUpdateAvailable asciiTest "2.1.2".toList oneRow.res stretch.str virtualbox.str
        versionTen.text = some false ∧
      ¬ UpdateRight oneRow
        (boxUpdateAvailable asciiTest "2.1.2".toList oneRow.res stretch.str virtualbox.str
          versionTen.text) versionTen := by
  have hno : boxUpdateAvailable asciiTest "2.1.2".toList oneRow.res stretch.str virtualbox.str
      versionTen.text = some false := by
    decide +kernel
  refine ⟨hno, ?_⟩
  rintro ⟨update, hupdate, hiff⟩
  rw [hno, Option.some_inj] at hupdate
  subst hupdate
  exact absurd (hiff.mpr (by decide)) Bool.false_ne_true

end SubutaiTray.Updater
