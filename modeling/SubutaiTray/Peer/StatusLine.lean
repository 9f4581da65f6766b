import SubutaiTray.Library.Words
import SubutaiTray.P2P.Swarms
import SubutaiTray.Peer.ConfigFile

/-!
One line of `vagrant global-status` (`parse_status_line`).

The id, the name and the provider are the first words of the line. In a line of five words the
state is the fourth, and the directory is searched for; in a longer line state and directory
stand in the columns of the header.
-/
namespace SubutaiTray.Peer

open Words Installer

/-- `QChar::isLetterOrNumber`; three facts are used. -/
structure Letters where
  isLetterOrNumber : Char → Bool
  space : ∀ c, isSpace c = true → isLetterOrNumber c = false
  slash : isLetterOrNumber '/' = false
  backslash : isLetterOrNumber '\\' = false

/-- What the function writes. -/
structure StatusArgs where
  id : QString
  name : QString
  provider : QString
  state : QString
  directory : QString
  deriving DecidableEq

/-- `QString::mid` -/
def mid (s : QString) (position n : Int) : QString :=
  if n < 0 then s.drop position.toNat else (s.take (position + n).toNat).drop position.toNat

/-- Characters are removed from the end, which comes first here. Of an empty text the character
before the first is read. -/
def stripTail (letters : Letters) : QString → Option QString
  | [] => none
  | c :: s => if letters.isLetterOrNumber c then some (c :: s) else stripTail letters s

/-- `status_line.remove(0, status_line.indexOf(word))` -/
def fromFirst (word line : QString) : QString := line.drop ((P2P.indexOf word line).getD 0)

/-- A line of less than five words leaves all but the state as it was. The result is nothing when
a character outside the directory is read. -/
def parseStatusLine (letters : Letters) (indexState indexDirectory : Int) (args : StatusArgs)
    (line : QString) : Option StatusArgs :=
  match words line with
  | id :: name :: provider :: state :: word :: rest =>
      if rest = [] then
        (stripTail letters (fromFirst word line).reverse).map fun directory =>
          ⟨id, name, provider, state, directory.reverse⟩
      else
        some ⟨id, name, provider, trimmed (mid line indexState (indexDirectory - indexState)),
          trimmed (mid line indexDirectory (line.length - indexDirectory))⟩
  | _ => some { args with state := [] }

/-! ## Rows of the table -/

def IsWord (s : QString) : Prop := s ≠ [] ∧ ∀ c ∈ s, isSpace c = false

instance (s : QString) : Decidable (IsWord s) :=
  @instDecidableAnd _ _ inferInstance (List.decidableBAll _ s)

/-- With a drive letter on Windows. -/
def Absolute (path : QString) : Prop :=
  ∃ c rest, path = c :: rest ∧ (c = '/' ∨ c.isAlpha = true ∧ rest.head? = some ':')

def blanks (n : Nat) : QString := List.replicate n ' '

structure StatusRow where
  id : QString
  name : QString
  provider : QString
  state : QString
  directory : QString
  idPad : Nat
  namePad : Nat
  providerPad : Nat
  statePad : Nat
  tail : Nat
  idWord : IsWord id
  nameWord : IsWord name
  providerWord : IsWord provider
  stateTrimmed : state ≠ [] ∧ trimmed state = state
  absolute : Absolute directory

namespace StatusRow

variable (row : StatusRow)

def beforeState : QString :=
  row.id ++ blanks (row.idPad + 1) ++ row.name ++ blanks (row.namePad + 1) ++ row.provider ++
    blanks (row.providerPad + 1)

def beforeDirectory : QString := row.beforeState ++ row.state ++ blanks (row.statePad + 1)

def text : QString := row.beforeDirectory ++ row.directory ++ blanks row.tail

/-- The columns of the header at which the row is aligned. -/
def indexState : Int := row.beforeState.length

def indexDirectory : Int := row.beforeDirectory.length

/-- The directory is found as a word, or it ends where its column does. -/
def Readable (letters : Letters) : Prop :=
  if (words row.text).length = 5 then
    (∃ c ∈ row.directory.getLast?, letters.isLetterOrNumber c = true) ∧
      ∀ word ∈ words row.beforeDirectory, ¬ row.directory <:+: word
  else ∀ c ∈ row.directory.getLast?, isSpace c = false

/-- The column of the header begins at the directory or among the blanks before it. -/
def InColumn (index : Int) : Prop :=
  row.beforeState.length + row.state.length ≤ index ∧ index ≤ row.beforeDirectory.length

end StatusRow

/-! ## Words and blanks -/

theorem words_eq (s : QString) : words s = wordsBy isSpace s := rfl

theorem isSpace_blanks (n : Nat) : ∀ c ∈ blanks n, isSpace c = true := by
  intro c hc
  rw [List.eq_of_mem_replicate hc]
  decide

theorem IsWord.words_eq {s : QString} (h : IsWord s) : words s = [s] := wordsBy_of_word h.1 h.2

theorem words_append_blanks_append (xs ys : QString) (n : Nat) :
    words (xs ++ blanks (n + 1) ++ ys) = words xs ++ words ys :=
  wordsBy_append_seps_append (List.cons_ne_nil _ _) (isSpace_blanks (n + 1)) xs ys

theorem words_append_blanks (xs : QString) (n : Nat) : words (xs ++ blanks n) = words xs :=
  wordsBy_append_seps (isSpace_blanks n) xs

theorem isSpace_of_isAlphanum {c : Char} (hc : c.isAlphanum = true) : isSpace c = false := by
  have hcodes : ((decide (65 ≤ c.toNat ∧ c.toNat ≤ 90) || decide (97 ≤ c.toNat) && decide (c.toNat ≤ 122)) ||
      decide (48 ≤ c.toNat) && decide (c.toNat ≤ 57)) = true := hc
  simp only [Bool.or_eq_true, Bool.and_eq_true, decide_eq_true_eq] at hcodes
  simp only [isSpace, Bool.or_eq_false_iff, Bool.and_eq_false_iff, decide_eq_false_iff_not,
    List.mem_cons, List.not_mem_nil, or_false]
  refine ⟨⟨?_, ?_⟩, ?_⟩ <;> omega

theorem Absolute.eq_cons {path : QString} (h : Absolute path) :
    ∃ c rest, path = c :: rest ∧ isSpace c = false := by
  obtain ⟨c, rest, rfl, hc⟩ := h
  refine ⟨c, rest, rfl, ?_⟩
  cases hc with
  | inl hslash =>
      rw [hslash]
      decide
  | inr hdrive =>
      apply isSpace_of_isAlphanum
      exact Bool.or_eq_true_iff.mpr (Or.inl hdrive.1)

theorem Absolute.ne_nil {path : QString} (h : Absolute path) : path ≠ [] := by
  obtain ⟨c, rest, rfl, -⟩ := h
  exact List.cons_ne_nil c rest

namespace StatusRow

variable (row : StatusRow)

theorem words_beforeDirectory :
    words row.beforeDirectory = row.id :: row.name :: row.provider :: words row.state := by
  rw [beforeDirectory, beforeState, words_append_blanks, words_append_blanks_append, words_append_blanks_append,
    words_append_blanks_append, row.idWord.words_eq, row.nameWord.words_eq, row.providerWord.words_eq]
  rfl

theorem words_text :
    words row.text =
      row.id :: row.name :: row.provider :: (words row.state ++ words row.directory) := by
  have hbefore := row.words_beforeDirectory
  rw [beforeDirectory, words_append_blanks] at hbefore
  rw [text, words_append_blanks, beforeDirectory, words_append_blanks_append, hbefore]
  rfl

end StatusRow

/-! ## Columns -/

theorem mid_toEnd (s : QString) (index : Int) : mid s index (s.length - index) = s.drop index.toNat := by
  rw [mid]
  split
  · rfl
  · have hall : (index + (s.length - index)).toNat = s.length := by omega
    rw [hall, List.take_length]

theorem mid_between {before column rest : QString} {index n : Int} (hindex : index = before.length)
    (hn : n = column.length) : mid (before ++ column ++ rest) index n = column := by
  have hnonneg : ¬ n < 0 := by omega
  have htake : (index + n).toNat = (before ++ column).length := by
    rw [List.length_append]
    omega
  have hdrop : index.toNat = before.length := by omega
  rw [mid, if_neg hnonneg, htake, List.take_left, hdrop, List.drop_left]

theorem rdropWhile_append_cons {d : Char} (hd : isSpace d = false) (xs ys : QString) :
    (xs ++ d :: ys).rdropWhile isSpace = xs ++ d :: ys.rdropWhile isSpace := by
  induction ys using List.reverseRecOn with
  | nil => exact List.rdropWhile_concat_neg _ _ _ (by rw [hd]; exact Bool.false_ne_true)
  | append_singleton ys y ih =>
      rw [← List.cons_append, ← List.append_assoc, List.rdropWhile_concat, List.rdropWhile_concat]
      split
      · exact ih
      · rw [List.append_assoc, List.cons_append]

theorem trimmed_pad {before after : QString} (hbefore : ∀ c ∈ before, isSpace c = true)
    (hafter : ∀ c ∈ after, isSpace c = true) (s : QString) :
    trimmed (before ++ s ++ after) = trimmed s := by
  have hend (xs : QString) : (xs ++ after).rdropWhile isSpace = xs.rdropWhile isSpace := by
    rw [List.rdropWhile, List.reverse_append, List.dropWhile_append_of_pos (by simpa using hafter)]
    rfl
  rw [trimmed, List.append_assoc, List.dropWhile_append_of_pos hbefore, List.dropWhile_append]
  split
  · rename_i hempty
    rw [List.isEmpty_iff] at hempty
    rw [trimmed, hempty, List.dropWhile_eq_nil_iff.mpr hafter]
  · exact hend _

theorem trimmed_append {after : QString} (hafter : ∀ c ∈ after, isSpace c = true) (s : QString) :
    trimmed (s ++ after) = trimmed s :=
  @trimmed_pad [] after (fun _ hc => absurd hc List.not_mem_nil) hafter s

theorem length_trimmed_le (s : QString) : (trimmed s).length ≤ s.length := by
  have hend := List.rdropWhile_prefix isSpace (s.dropWhile isSpace)
  exact hend.length_le.trans (s.dropWhile_suffix isSpace).length_le

/-- What stands between two characters that are no blanks is kept. -/
theorem length_le_trimmed {c d : Char} (hc : isSpace c = false) (hd : isSpace d = false)
    (before between after : QString) :
    between.length + 2 ≤ (trimmed (before ++ c :: between ++ d :: after)).length := by
  have hdrop : ∃ before', (before ++ c :: (between ++ d :: after)).dropWhile isSpace =
      before' ++ c :: (between ++ d :: after) := by
    rw [List.dropWhile_append]
    split
    · exact ⟨[], List.dropWhile_cons_of_neg (by rw [hc]; exact Bool.false_ne_true)⟩
    · exact ⟨_, rfl⟩
  obtain ⟨before', hbefore'⟩ := hdrop
  rw [trimmed, List.append_assoc, List.cons_append, hbefore', ← List.cons_append, ← List.append_assoc,
    rdropWhile_append_cons hd]
  simp only [List.length_append, List.length_cons]
  omega

theorem trimmed_eq_self_iff {c : Char} {rest : QString} (hc : isSpace c = false) :
    trimmed (c :: rest) = c :: rest ↔ ∀ d ∈ (c :: rest).getLast?, isSpace d = false := by
  rw [trimmed, List.dropWhile_cons_of_neg (by rw [hc]; exact Bool.false_ne_true),
    List.rdropWhile_eq_self_iff, List.getLast?_eq_some_getLast (List.cons_ne_nil c rest)]
  simp

theorem getLast_trimmed {s : QString} {d : Char} (hd : d ∈ (trimmed s).getLast?) :
    isSpace d = false := by
  obtain ⟨hne, rfl⟩ := List.mem_getLast?_eq_getLast hd
  rw [← Bool.not_eq_true]
  exact List.rdropWhile_last_not _ _ hne

/-! ## The search for the directory -/

section
variable {letters : Letters}

theorem stripTail_append {xs : QString} (hxs : ∀ c ∈ xs, letters.isLetterOrNumber c = false)
    (ys : QString) : stripTail letters (xs ++ ys) = stripTail letters ys := by
  induction xs with
  | nil => rfl
  | cons c xs ih =>
      rw [List.forall_mem_cons] at hxs
      rw [List.cons_append, stripTail, hxs.1, if_neg Bool.false_ne_true, ih hxs.2]

theorem stripTail_cons {c : Char} (hc : letters.isLetterOrNumber c = true) (s : QString) :
    stripTail letters (c :: s) = some (c :: s) := by
  rw [stripTail, if_pos hc]

theorem head_stripTail {s t : QString} (h : stripTail letters s = some t) :
    ∃ c ∈ t.head?, letters.isLetterOrNumber c = true := by
  induction s with
  | nil => cases h
  | cons c s ih =>
      rw [stripTail] at h
      split at h
      · rename_i hc
        cases h
        exact ⟨c, rfl, hc⟩
      · exact ih h

theorem stripTail_isSome_iff (s : QString) :
    (stripTail letters s).isSome = true ↔ ∃ c ∈ s, letters.isLetterOrNumber c = true := by
  induction s with
  | nil => simp [stripTail]
  | cons c s ih =>
      rw [stripTail, List.exists_mem_cons_iff]
      split
      · rename_i hc
        simp [hc]
      · rename_i hc
        rw [ih, or_iff_right hc]

end

section
variable {word : QString}

theorem indexOf_behind_blank (hne : word ≠ []) (hblank : ' ' ∉ word) {before : QString}
    (hbefore : ¬ word <:+: before) (rest : QString) :
    P2P.indexOf word (before ++ ' ' :: (word ++ rest)) = some (before.length + 1) := by
  induction before with
  | nil =>
      have hstart : ¬ word <+: ' ' :: (word ++ rest) := by
        have h := prefix_append_cons_iff hblank [] (word ++ rest)
        rw [List.nil_append, List.prefix_nil] at h
        exact fun hword => hne (h.mp hword)
      rw [List.nil_append, P2P.indexOf, if_neg hstart, P2P.indexOf_append_self]
      rfl
  | cons c before ih =>
      rw [List.infix_cons_iff, not_or] at hbefore
      have hstart : ¬ word <+: c :: (before ++ ' ' :: (word ++ rest)) := by
        rw [← List.cons_append, prefix_append_cons_iff hblank]
        exact hbefore.1
      rw [List.cons_append, P2P.indexOf, if_neg hstart, ih hbefore.2]
      rfl

theorem fromFirst_behind_blank (hne : word ≠ []) (hblank : ' ' ∉ word) {before : QString}
    (hbefore : ¬ word <:+: before) (rest : QString) :
    fromFirst word (before ++ ' ' :: (word ++ rest)) = word ++ rest := by
  rw [fromFirst, indexOf_behind_blank hne hblank hbefore, Option.getD_some, List.drop_append]
  simp

/-- A word that occurs before is found there. -/
theorem fromFirst_of_infix (hne : word ≠ []) {before : QString} (hbefore : word <:+: before)
    (rest : QString) :
    ∃ occurrence, occurrence ≠ [] ∧ fromFirst word (before ++ rest) = occurrence ++ rest := by
  obtain ⟨i, hi, hle⟩ := P2P.indexOf_append_of_infix hbefore rest
  have hpos := List.length_pos_iff.mpr hne
  refine ⟨before.drop i, ?_, ?_⟩
  · rw [Ne, List.drop_eq_nil_iff]
    omega
  · rw [fromFirst, hi, Option.getD_some, List.drop_append_of_le_length (by omega)]

end

/-! ## Reading a row -/

/-- A trimmed text does not begin with a blank. -/
theorem exists_cons_of_trimmed {s : QString} (hne : s ≠ []) (hs : trimmed s = s) :
    ∃ c rest, s = c :: rest ∧ isSpace c = false := by
  obtain ⟨c, rest, rfl⟩ := List.exists_cons_of_ne_nil hne
  refine ⟨c, rest, rfl, ?_⟩
  rw [← Bool.not_eq_true]
  intro hc
  have hle := length_trimmed_le rest
  rw [trimmed, List.dropWhile_cons_of_pos hc, ← trimmed] at hs
  rw [hs, List.length_cons] at hle
  omega

/-- A text that is its only word but for blanks is the word when it ends with no blank. -/
theorem eq_word_of_trimmed {s word : QString} (hs : trimmed s = s) (hne : s ≠ [])
    (hword : words s = [word]) : s = word := by
  obtain ⟨c, rest, rfl, hc⟩ := exists_cons_of_trimmed hne hs
  obtain ⟨-, seps, hsplit, hseps⟩ := eq_append_of_wordsBy_eq_singleton hc hword
  have hle := length_trimmed_le word
  have hpad := trimmed_append hseps word
  rw [← hsplit, hs] at hpad
  rw [← hpad, hsplit, List.length_append] at hle
  have hnone : seps = [] := List.eq_nil_of_length_eq_zero (by omega)
  rw [hsplit, hnone, List.append_nil]

theorem exists_of_three_le {l : List QString} (h : 3 ≤ l.length) :
    ∃ a b c rest, l = a :: b :: c :: rest := by
  match l, h with
  | a :: b :: c :: rest, _ => exact ⟨a, b, c, rest, rfl⟩

theorem words_ne_nil {c : Char} (hc : isSpace c = false) (s : QString) : words (c :: s) ≠ [] := by
  rw [words_eq, wordsBy_cons hc]
  exact List.cons_ne_nil _ _

namespace StatusRow

variable (row : StatusRow) {letters : Letters}

theorem length_words_pos : 0 < (words row.state).length ∧ 0 < (words row.directory).length := by
  obtain ⟨c, rest, hstate, hc⟩ := exists_cons_of_trimmed row.stateTrimmed.1 row.stateTrimmed.2
  obtain ⟨d, rest', hdirectory, hd⟩ := row.absolute.eq_cons
  rw [hstate, hdirectory]
  exact ⟨List.length_pos_iff.mpr (words_ne_nil hc rest), List.length_pos_iff.mpr (words_ne_nil hd rest')⟩

theorem length_words_text :
    (words row.text).length = 3 + (words row.state).length + (words row.directory).length := by
  rw [words_text]
  simp only [List.length_append, List.length_cons]
  omega

/-- One word of state, and a directory of one word with blanks behind it. -/
theorem five_words (h : (words row.text).length = 5) :
    words row.state = [row.state] ∧ ∃ word seps, words row.directory = [word] ∧ IsWord word ∧
      row.directory = word ++ seps ∧ ∀ c ∈ seps, isSpace c = true := by
  obtain ⟨hpos, hpos'⟩ := row.length_words_pos
  rw [length_words_text] at h
  obtain ⟨word', hword'⟩ := List.length_eq_one_iff.mp (show (words row.state).length = 1 by omega)
  obtain ⟨word, hword⟩ := List.length_eq_one_iff.mp (show (words row.directory).length = 1 by omega)
  refine ⟨?_, word, ?_⟩
  · rw [hword', ← eq_word_of_trimmed row.stateTrimmed.2 row.stateTrimmed.1 hword']
  · obtain ⟨d, rest, hdirectory, hd⟩ := row.absolute.eq_cons
    rw [hdirectory] at hword
    obtain ⟨hisWord, seps, hsplit, hseps⟩ := eq_append_of_wordsBy_eq_singleton hd hword
    exact ⟨seps, by rw [hdirectory, hword], hisWord, by rw [hdirectory, hsplit], hseps⟩

theorem parse_five {indexState indexDirectory : Int} (args : StatusArgs)
    (h : (words row.text).length = 5) {word : QString} (hword : words row.directory = [word]) :
    parseStatusLine letters indexState indexDirectory args row.text =
      (stripTail letters (fromFirst word row.text).reverse).map fun directory =>
        ⟨row.id, row.name, row.provider, row.state, directory.reverse⟩ := by
  have hwords := row.words_text
  rw [(row.five_words h).1, hword] at hwords
  rw [parseStatusLine, hwords]
  dsimp only [List.cons_append, List.nil_append]
  rw [if_pos rfl]

theorem parse_columns {indexState indexDirectory : Int} (args : StatusArgs)
    (h : (words row.text).length ≠ 5) :
    parseStatusLine letters indexState indexDirectory args row.text =
      some ⟨row.id, row.name, row.provider,
        trimmed (mid row.text indexState (indexDirectory - indexState)),
        trimmed (row.text.drop indexDirectory.toNat)⟩ := by
  obtain ⟨hpos, hpos'⟩ := row.length_words_pos
  have hwords := row.words_text
  rw [length_words_text] at h
  have hlength : 3 ≤ (words row.state ++ words row.directory).length := by
    rw [List.length_append]
    omega
  obtain ⟨state, word, more, rest, hmore⟩ := exists_of_three_le hlength
  rw [hmore] at hwords
  rw [parseStatusLine, hwords]
  dsimp only
  rw [if_neg (List.cons_ne_nil more rest), mid_toEnd]

theorem trimmed_indexState :
    trimmed (mid row.text row.indexState (row.indexDirectory - row.indexState)) = row.state := by
  have htext : row.text =
      row.beforeState ++ (row.state ++ blanks (row.statePad + 1)) ++ (row.directory ++ blanks row.tail) := by
    simp [text, beforeDirectory]
  have hwidth : row.indexDirectory - row.indexState = (row.state ++ blanks (row.statePad + 1)).length := by
    rw [indexDirectory, indexState, beforeDirectory, List.append_assoc, List.length_append]
    omega
  have hpad := trimmed_append (isSpace_blanks (row.statePad + 1)) row.state
  rw [row.stateTrimmed.2] at hpad
  have hmid := @mid_between row.beforeState _ (row.directory ++ blanks row.tail) _ _ rfl hwidth
  rw [htext]
  exact (congrArg trimmed hmid).trans hpad

/-- A column that begins among the blanks before the directory. -/
theorem trimmed_inColumn {index : Int} (hindex : row.InColumn index)
    (hlast : ∀ c ∈ row.directory.getLast?, isSpace c = false) :
    trimmed (row.text.drop index.toNat) = row.directory := by
  obtain ⟨d, rest, hdirectory, hd⟩ := row.absolute.eq_cons
  obtain ⟨hle, hge⟩ := hindex
  have htext : row.text =
      (row.beforeState ++ row.state) ++ (blanks (row.statePad + 1) ++ (row.directory ++ blanks row.tail)) := by
    simp [text, beforeDirectory]
  have hbefore : row.beforeDirectory.length = (row.beforeState ++ row.state).length + (row.statePad + 1) := by
    simp [beforeDirectory, blanks, Nat.add_assoc]
  obtain ⟨k, hk⟩ : ∃ k, index.toNat = (row.beforeState ++ row.state).length + k := by
    refine ⟨index.toNat - (row.beforeState ++ row.state).length, ?_⟩
    rw [List.length_append]
    omega
  have hkle : k ≤ (blanks (row.statePad + 1)).length := by
    rw [blanks, List.length_replicate]
    omega
  rw [htext, hk, List.drop_length_add_append, List.drop_append_of_le_length hkle, ← List.append_assoc,
    trimmed_pad (fun c hc => isSpace_blanks _ c (List.mem_of_mem_drop hc)) (isSpace_blanks _)]
  rw [hdirectory] at hlast ⊢
  exact (trimmed_eq_self_iff hd).mpr hlast

/-- Before the end of the state too much is read. -/
theorem length_lt_of_early {index : Int} (hlast : ∀ c ∈ row.directory.getLast?, isSpace c = false)
    (hearly : index < row.beforeState.length + row.state.length) :
    row.directory.length < (trimmed (row.text.drop index.toNat)).length := by
  obtain ⟨c, rest, hstate, hc⟩ := exists_cons_of_trimmed row.stateTrimmed.1 row.stateTrimmed.2
  have hdirectory := row.absolute.ne_nil
  have hpos := List.length_pos_iff.mpr hdirectory
  have hpos' := List.length_pos_iff.mpr row.stateTrimmed.1
  have hstateLast := (trimmed_eq_self_iff hc).mp (hstate ▸ row.stateTrimmed.2)
  rw [← hstate] at hstateLast
  have hd := hlast _ (List.getLast?_eq_some_getLast hdirectory)
  have he := hstateLast _ (List.getLast?_eq_some_getLast row.stateTrimmed.1)
  have hends := List.dropLast_append_getLast hdirectory
  have hends' := List.dropLast_append_getLast row.stateTrimmed.1
  have htext : row.text = (row.beforeState ++ row.state.dropLast) ++
      (row.state.getLast row.stateTrimmed.1 :: (blanks (row.statePad + 1) ++ row.directory.dropLast) ++
        row.directory.getLast hdirectory :: blanks row.tail) := by
    rw [text, beforeDirectory]
    nth_rewrite 1 [← hends, ← hends']
    simp
  have hle : index.toNat ≤ (row.beforeState ++ row.state.dropLast).length := by
    rw [List.length_append, List.length_dropLast]
    omega
  have hlong := length_le_trimmed he hd ((row.beforeState ++ row.state.dropLast).drop index.toNat)
    (blanks (row.statePad + 1) ++ row.directory.dropLast) (blanks row.tail)
  rw [htext, List.drop_append_of_le_length hle, ← List.append_assoc]
  rw [List.length_append, List.length_dropLast, blanks, List.length_replicate] at hlong
  rw [blanks]
  omega

/-- Behind the first character of the directory too little is read. -/
theorem length_lt_of_late {index : Int} (hlate : row.beforeDirectory.length < index) :
    (trimmed (row.text.drop index.toNat)).length < row.directory.length := by
  have hpos := List.length_pos_iff.mpr row.absolute.ne_nil
  obtain ⟨k, hk⟩ : ∃ k, index.toNat = row.beforeDirectory.length + (k + 1) := by
    refine ⟨index.toNat - row.beforeDirectory.length - 1, ?_⟩
    omega
  have hle := length_trimmed_le (row.directory.drop (k + 1))
  have hblanks : ∀ c ∈ (blanks row.tail).drop (k + 1 - row.directory.length), isSpace c = true :=
    fun c hc => isSpace_blanks row.tail c (List.mem_of_mem_drop hc)
  rw [text, List.append_assoc, hk, List.drop_length_add_append, List.drop_append,
    trimmed_append hblanks]
  rw [List.length_drop] at hle
  omega

theorem inColumn_of_length {index : Int} (hlast : ∀ c ∈ row.directory.getLast?, isSpace c = false)
    (hlength : (trimmed (row.text.drop index.toNat)).length = row.directory.length) :
    row.InColumn index := by
  refine ⟨?_, ?_⟩
  · by_contra hearly
    have hlong := row.length_lt_of_early hlast (Int.not_le.mp hearly)
    omega
  · by_contra hlate
    have hshort := row.length_lt_of_late (Int.not_le.mp hlate)
    omega

/-- A directory that ends with a letter has no blanks behind its word. -/
theorem directory_eq_word {word seps : QString} (hsplit : row.directory = word ++ seps)
    (hseps : ∀ c ∈ seps, isSpace c = true) {d : Char} (hd : d ∈ row.directory.getLast?)
    (hletter : letters.isLetterOrNumber d = true) : row.directory = word := by
  cases seps using List.reverseRecOn with
  | nil => rw [hsplit, List.append_nil]
  | append_singleton seps c =>
      rw [hsplit, ← List.append_assoc, List.getLast?_concat, Option.mem_some_iff] at hd
      have hspace := letters.space c (hseps c (by simp))
      rw [hd, hletter] at hspace
      cases hspace

/-- The tail is stripped down to the directory and what stands before it. -/
theorem stripTail_directory {d : Char} (hd : d ∈ row.directory.getLast?)
    (hletter : letters.isLetterOrNumber d = true) (before : QString) :
    stripTail letters (before ++ (row.directory ++ blanks row.tail)).reverse =
      some (before ++ row.directory).reverse := by
  obtain ⟨start, hstart⟩ := List.getLast?_eq_some_iff.mp hd
  have hblanks : ∀ c ∈ (blanks row.tail).reverse, letters.isLetterOrNumber c = false :=
    fun c hc => letters.space c (isSpace_blanks row.tail c (List.mem_reverse.mp hc))
  rw [← List.append_assoc, List.reverse_append, stripTail_append hblanks, hstart, ← List.append_assoc,
    List.reverse_append]
  exact stripTail_cons hletter _

theorem infix_beforeDirectory_iff {word : QString} (hword : IsWord word) :
    word <:+: row.beforeDirectory ↔ ∃ earlier ∈ words row.beforeDirectory, word <:+: earlier :=
  infix_iff_infix_word hword.1 hword.2 row.beforeDirectory

theorem fromFirst_directory (hword : IsWord row.directory)
    (hearlier : ∀ word ∈ words row.beforeDirectory, ¬ row.directory <:+: word) :
    fromFirst row.directory row.text = row.directory ++ blanks row.tail := by
  have hbefore : row.beforeDirectory = row.beforeState ++ row.state ++ blanks row.statePad ++ [' '] := by
    rw [beforeDirectory, blanks, List.replicate_succ', ← List.append_assoc]
    rfl
  have hnot : ¬ row.directory <:+: row.beforeState ++ row.state ++ blanks row.statePad := by
    intro h
    have hinfix : row.directory <:+: row.beforeDirectory := by
      rw [hbefore]
      exact h.trans (List.prefix_append _ _).isInfix
    obtain ⟨word, hmem, hin⟩ := (row.infix_beforeDirectory_iff hword).mp hinfix
    exact hearlier word hmem hin
  have hblank : ' ' ∉ row.directory := by
    intro h
    have := hword.2 ' ' h
    cases this
  have h := fromFirst_behind_blank hword.1 hblank hnot (blanks row.tail)
  rw [text, hbefore, List.append_assoc, List.append_assoc]
  exact h

theorem parse_readable {indexState indexDirectory : Int} (args : StatusArgs)
    (hread : row.Readable letters)
    (hcolumn : (words row.text).length ≠ 5 → row.InColumn indexDirectory) :
    ∃ state, parseStatusLine letters indexState indexDirectory args row.text =
      some ⟨row.id, row.name, row.provider, state, row.directory⟩ ∧
      (indexState = row.indexState → indexDirectory = row.indexDirectory → state = row.state) := by
  by_cases h : (words row.text).length = 5
  · rw [Readable, if_pos h] at hread
    obtain ⟨⟨d, hd, hletter⟩, hearlier⟩ := hread
    obtain ⟨-, word, seps, hword, hisWord, hsplit, hseps⟩ := row.five_words h
    have hdirectory := row.directory_eq_word hsplit hseps hd hletter
    have hstrip := row.stripTail_directory hd hletter []
    rw [List.nil_append, List.nil_append] at hstrip
    refine ⟨row.state, ?_, fun _ _ => rfl⟩
    rw [row.parse_five args h hword, ← hdirectory, row.fromFirst_directory (hdirectory ▸ hisWord) hearlier,
      hstrip, Option.map_some, List.reverse_reverse]
  · rw [Readable, if_neg h] at hread
    rw [row.parse_columns args h, row.trimmed_inColumn (hcolumn h) hread]
    refine ⟨_, rfl, ?_⟩
    rintro rfl rfl
    exact row.trimmed_indexState

/-- Also up to the spelling of the separators nothing else is read as the directory. -/
theorem readable_of_parse {indexState indexDirectory : Int} {args result : StatusArgs} {f : Char → Char}
    (hspace : ∀ c, isSpace (f c) = isSpace c)
    (hletters : ∀ c, letters.isLetterOrNumber (f c) = letters.isLetterOrNumber c)
    (hparse : parseStatusLine letters indexState indexDirectory args row.text = some result)
    (heq : result.directory.map f = row.directory.map f) :
    row.Readable letters ∧ ((words row.text).length ≠ 5 → row.InColumn indexDirectory) := by
  have hlength := congrArg List.length heq
  have hlast := congrArg List.getLast? heq
  rw [List.length_map, List.length_map] at hlength
  rw [List.getLast?_map, List.getLast?_map] at hlast
  by_cases h : (words row.text).length = 5
  · refine ⟨?_, fun hne => absurd h hne⟩
    obtain ⟨-, word, seps, hword, hisWord, hsplit, hseps⟩ := row.five_words h
    rw [row.parse_five args h hword] at hparse
    obtain ⟨t, ht, rfl⟩ := Option.map_eq_some_iff.mp hparse
    obtain ⟨c, hc, hletter⟩ := head_stripTail ht
    dsimp only at hlast hlength
    rw [List.getLast?_reverse, Option.mem_def.mp hc, Option.map_some] at hlast
    obtain ⟨d, hd, hfd⟩ := Option.map_eq_some_iff.mp hlast.symm
    rw [← hletters, ← hfd, hletters] at hletter
    have hdirectory := row.directory_eq_word hsplit hseps hd hletter
    rw [Readable, if_pos h]
    refine ⟨⟨d, hd, hletter⟩, fun earlier hmem hin => ?_⟩
    rw [← hdirectory] at hisWord ht
    have hinfix := (row.infix_beforeDirectory_iff hisWord).mpr ⟨earlier, hmem, hin⟩
    obtain ⟨occurrence, hne, hfrom⟩ := fromFirst_of_infix hisWord.1 hinfix (row.directory ++ blanks row.tail)
    rw [text, List.append_assoc, hfrom, row.stripTail_directory hd hletter, Option.some.injEq] at ht
    have hpos := List.length_pos_iff.mpr hne
    rw [← ht, List.reverse_reverse, List.length_append] at hlength
    omega
  · rw [row.parse_columns args h, Option.some.injEq] at hparse
    subst hparse
    dsimp only at hlast hlength
    have hsolid : ∀ d ∈ row.directory.getLast?, isSpace d = false := by
      intro d hd
      rw [Option.mem_def.mp hd, Option.map_some] at hlast
      obtain ⟨c, hc, hfc⟩ := Option.map_eq_some_iff.mp hlast
      rw [← hspace, ← hfc, hspace]
      exact getLast_trimmed hc
    rw [Readable, if_neg h]
    exact ⟨hsolid, fun _ => row.inColumn_of_length hsolid hlength⟩

end StatusRow

/-! ## Rows and lines -/

/-- In a line of five words a letter or a number stands at or behind the first occurrence of the
fifth. -/
def Searchable (letters : Letters) (line : QString) : Prop :=
  ∀ id name provider state word, words line = [id, name, provider, state, word] →
    ∃ c ∈ fromFirst word line, letters.isLetterOrNumber c = true

theorem parseStatusLine_isSome_iff {letters : Letters} {indexState indexDirectory : Int}
    (args : StatusArgs) (line : QString) :
    (parseStatusLine letters indexState indexDirectory args line).isSome = true ↔
      Searchable letters line := by
  unfold Searchable
  rw [parseStatusLine]
  split
  · rename_i id name provider state word rest hwords
    rw [hwords]
    split
    · rename_i hrest
      subst hrest
      rw [Option.isSome_map, stripTail_isSome_iff]
      simp only [List.mem_reverse]
      constructor
      · intro hletter _ _ _ _ _ heq
        cases heq
        exact hletter
      · exact fun h => h id name provider state word rfl
    · rename_i hrest
      simp [hrest]
  · rename_i hless
    refine iff_of_true rfl fun id name provider state word hwords => ?_
    exact absurd hwords (hless id name provider state word [])

/-- Letters and numbers of ASCII. -/
def asciiLetters : Letters where
  isLetterOrNumber := Char.isAlphanum
  space := by
    intro c hc
    rw [← Bool.not_eq_true]
    intro halnum
    rw [isSpace_of_isAlphanum halnum] at hc
    cases hc
  slash := by decide
  backslash := by decide

/-- A peer in a directory whose name ends with a hyphen. -/
def hyphenRow : StatusRow where
  id := "1a2b3c4".toList
  name := "default".toList
  provider := "virtualbox".toList
  state := "running".toList
  directory := "/home/x/peer-".toList
  idPad := 1
  namePad := 0
  providerPad := 0
  statePad := 0
  tail := 1
  idWord := by decide
  nameWord := by decide
  providerWord := by decide
  stateTrimmed := by decide
  absolute := ⟨'/', "home/x/peer-".toList, by decide, .inl rfl⟩

end SubutaiTray.Peer
