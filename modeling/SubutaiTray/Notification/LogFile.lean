import SubutaiTray.Library.Counting
import SubutaiTray.Library.Runs
import SubutaiTray.Notification.Logger
import Mathlib.Data.List.DropRight
import Mathlib.Tactic.IntervalCases

/-!
What `init_records` recovers from the log file.

A record is one line and three fields, each closed by the separator, and nothing
is escaped. Reading a line back gives the notification it was written for exactly
when the message keeps clear of the line end, of the separator and of the NUL at
which the conversion to text stops.
-/
namespace SubutaiTray.Notification

open Splitting RemoveIf

section fields
variable {msg t w : QString}

theorem fieldSep_ne_nil : fieldSep ≠ [] := List.cons_ne_nil _ _

theorem append_fieldSep_comm (ht : ∀ c ∈ t, c = '#') : t ++ fieldSep = fieldSep ++ t := by
  have hrep : t = List.replicate t.length '#' := List.eq_replicate_of_mem ht
  have hsep : fieldSep = List.replicate 3 '#' := rfl
  rw [hrep, hsep, List.replicate_append_replicate, List.replicate_append_replicate, Nat.add_comm]

theorem not_infix_concat_hashes (hcontains : ¬ fieldSep <:+: w) (hlast : w.getLast? ≠ some '#') :
    ¬ fieldSep <:+: w ++ fieldSep.dropLast := by
  have hno (v : QString) (hv : v ++ ['#'] <:+ w) : False := by
    obtain ⟨u, rfl⟩ := hv
    exact hlast (by simp)
  intro h
  have hsplit : w ++ fieldSep.dropLast = (w ++ ['#']) ++ ['#'] := by
    rw [List.append_assoc]
    rfl
  rw [hsplit] at h
  cases List.infix_concat_iff.mp h with
  | inl hsuffix =>
      have : ['#'] ++ ['#'] <:+ w ++ ['#'] :=
        List.suffix_append_self_iff.mp (show ['#', '#'] ++ ['#'] <:+ (w ++ ['#']) ++ ['#'] from hsuffix)
      exact hno [] (List.suffix_append_self_iff.mp this)
  | inr hcontains' =>
      cases List.infix_concat_iff.mp hcontains' with
      | inl hsuffix =>
          exact hno ['#'] (List.suffix_append_self_iff.mp
            (show ['#', '#'] ++ ['#'] <:+ w ++ ['#'] from hsuffix))
      | inr hcontains'' => exact hcontains hcontains''

/-- The message field and the separator behind it: the hash signs at the end of the
message are cut off. -/
theorem split_msg (hcontains : ¬ fieldSep <:+: msg) :
    split fieldSep (msg ++ fieldSep) =
      [msg.rdropWhile (· = '#'), msg.rtakeWhile (· = '#')] := by
  have ht : ∀ c ∈ msg.rtakeWhile (· = '#'), c = '#' := by
    intro c hc
    simpa using List.mem_rtakeWhile_imp hc
  have hw : ¬ fieldSep <:+: msg.rdropWhile (· = '#') := fun h =>
    hcontains (h.trans (List.rdropWhile_prefix _ _).isInfix)
  have hlast : (msg.rdropWhile (· = '#')).getLast? ≠ some '#' := by
    intro h
    have hne : msg.rdropWhile (· = '#') ≠ [] := by
      intro hnil
      simp [hnil] at h
    rw [List.getLast?_eq_some_getLast hne, Option.some_inj] at h
    exact List.rdropWhile_last_not _ _ hne (by simpa using h)
  have hrest : ¬ fieldSep <:+: msg.rtakeWhile (· = '#') := fun h =>
    hcontains (h.trans (List.rtakeWhile_suffix _ _).isInfix)
  have hmsg : msg ++ fieldSep =
      msg.rdropWhile (· = '#') ++ (fieldSep ++ msg.rtakeWhile (· = '#')) := by
    rw [← append_fieldSep_comm ht, ← List.append_assoc, List.rdropWhile_append_rtakeWhile]
  rw [hmsg, split_append_sep_of_first fieldSep_ne_nil (not_infix_concat_hashes hw hlast),
    split_of_not_infix hrest]

theorem filter_split_msg_iff (hne : msg ≠ []) (hcontains : ¬ fieldSep <:+: msg) :
    (split fieldSep (msg ++ fieldSep)).filter (· ≠ []) = [msg] ↔
      msg.getLast? ≠ some '#' ∨ ∀ c ∈ msg, c = '#' := by
  have hparts : msg.rdropWhile (· = '#') ++ msg.rtakeWhile (· = '#') = msg :=
    List.rdropWhile_append_rtakeWhile
  have hlast : msg.getLast? ≠ some '#' ↔ msg.rtakeWhile (· = '#') = [] := by
    rw [List.rtakeWhile_eq_nil_iff, List.getLast?_eq_some_getLast hne]
    simp [hne]
  have hall : (∀ c ∈ msg, c = '#') ↔ msg.rdropWhile (· = '#') = [] := by
    rw [List.rdropWhile_eq_nil_iff]
    simp
  rw [split_msg hcontains, hlast, hall]
  by_cases ht : msg.rtakeWhile (· = '#') = []
  · rw [ht, List.append_nil] at hparts
    simp [ht, hparts, hne]
  · by_cases hw : msg.rdropWhile (· = '#') = []
    · rw [hw, List.nil_append] at hparts
      simp [hw, hparts, hne]
    · simp [ht, hw]

end fields

/-- The messages that a record can hold. -/
structure Storable (msg : QString) : Prop where
  nonempty : msg ≠ []
  oneLine : '\n' ∉ msg
  nulFree : nul ∉ msg
  noSep : ¬ fieldSep <:+: msg
  lastChar : msg.getLast? ≠ some '#' ∨ ∀ c ∈ msg, c = '#'

section
variable {Date : Type} (iso : IsoDate Date)

/-- A notification as the constructor makes it. -/
def CNotification.Made (n : CNotification Date) : Prop :=
  ∃ level, n.level = some level ∧ n.levelStr = level.str

def CNotification.line (n : CNotification Date) : QString :=
  iso.toString n.dateTime ++ (fieldSep ++ (n.levelStr ++ (fieldSep ++ (n.msg ++ fieldSep))))

theorem Level.str_plain (l : Level) :
    l.str ≠ [] ∧ ∀ c ∈ l.str, c ≠ '#' ∧ c ≠ '%' ∧ c ≠ '\n' ∧ c ≠ nul := by
  have hall : l.str.all (fun c => c ≠ '#' ∧ c ≠ '%' ∧ c ≠ '\n' ∧ c ≠ nul) = true := by
    cases l <;> decide
  refine ⟨by cases l <;> decide, ?_⟩
  intro c hc
  exact of_decide_eq_true (List.all_eq_true.mp hall c hc)

theorem Level.find_str (l : Level) : (Level.all.filter fun l' => l'.str = l.str).getLast? = some l := by
  cases l <;> decide

variable {iso} {n : CNotification Date}

theorem CNotification.Made.toString_eq (hn : n.Made) :
    n.toString iso = n.line iso ++ ['\n'] := by
  obtain ⟨level, -, hstr⟩ := hn
  have hdate : '%' ∉ iso.toString n.dateTime := fun h => (iso.plain _ _ h).2.1 rfl
  have hlevel : '%' ∉ fieldSep ++ (level.str ++ fieldSep) := by
    cases level <;> decide
  have hfirst : arg "%1###%2###%3###\n".toList (iso.toString n.dateTime) =
      iso.toString n.dateTime ++ "###%2###%3###\n".toList := rfl
  have hsecond : arg "###%2###%3###\n".toList level.str =
      (fieldSep ++ (level.str ++ fieldSep)) ++ "%3###\n".toList := by
    cases level <;> rfl
  have hthird : arg "%3###\n".toList n.msg = n.msg ++ (fieldSep ++ ['\n']) := rfl
  rw [CNotification.toString, hstr, hfirst, arg_append hdate, arg_append hdate, hsecond,
    arg_append hlevel, hthird, CNotification.line, hstr]
  simp

theorem CNotification.Made.filter_split_line (hn : n.Made) :
    (split fieldSep (n.line iso)).filter (· ≠ []) =
      iso.toString n.dateTime :: n.levelStr ::
        (split fieldSep (n.msg ++ fieldSep)).filter (· ≠ []) := by
  obtain ⟨level, -, hstr⟩ := hn
  have hdate : '#' ∉ iso.toString n.dateTime := fun h => (iso.plain _ _ h).1 rfl
  have hlevel : '#' ∉ n.levelStr := by
    rw [hstr]
    exact fun h => (level.str_plain.2 _ h).1 rfl
  have hne : n.levelStr ≠ [] := hstr ▸ level.str_plain.1
  have hsplit : split fieldSep (n.line iso) =
      iso.toString n.dateTime :: n.levelStr :: split fieldSep (n.msg ++ fieldSep) := by
    have hsep : fieldSep = '#' :: ['#', '#'] := rfl
    rw [CNotification.line, hsep, split_append_sep hdate, split_append_sep hlevel]
  simp [hsplit, iso.toString_ne_nil, hne]

theorem CNotification.Made.eq_new (hn : n.Made) :
    n = ⟨n.dateTime, (Level.all.filter fun l => l.str = n.levelStr).getLast?, n.levelStr, n.msg⟩ := by
  obtain ⟨level, hlevel, hstr⟩ := hn
  rw [hstr, level.find_str, ← hlevel, ← hstr]

theorem CNotification.Made.fromString_line_iff (hn : n.Made) :
    CNotification.fromString iso (n.line iso) = some n ↔
      (split fieldSep (n.msg ++ fieldSep)).filter (· ≠ []) = [n.msg] := by
  rw [CNotification.fromString, hn.filter_split_line]
  cases hparts : (split fieldSep (n.msg ++ fieldSep)).filter (· ≠ []) with
  | nil => simp
  | cons part parts =>
      cases parts with
      | nil =>
          simp only [iso.fromString_toString, Option.some_inj, List.cons.injEq, and_true]
          constructor
          · intro h
            exact congrArg CNotification.msg h
          · rintro rfl
            exact hn.eq_new.symm
      | cons part' parts => simp

theorem CNotification.of_fromString {line : QString}
    (h : CNotification.fromString iso line = some n) :
    n.msg ≠ [] ∧ ¬ fieldSep <:+: n.msg ∧ n.msg <:+: line := by
  rw [CNotification.fromString] at h
  split at h
  · rename_i date level msg hparts
    have hmem : msg ∈ (split fieldSep line).filter (· ≠ []) := by
      rw [hparts]
      simp
    obtain ⟨hmem, hne⟩ := List.mem_filter.mp hmem
    split at h
    · exact absurd h.symm (Option.some_ne_none _)
    · have hmsg : n.msg = msg := by
        rw [← Option.some.inj h]
      rw [hmsg]
      exact ⟨by simpa using hne, not_infix_of_mem_split fieldSep_ne_nil hmem,
        infix_of_mem_split fieldSep_ne_nil hmem⟩
  · exact absurd h.symm (Option.some_ne_none _)

/-- The file holds the records of the notifications in memory, in order. -/
structure Logger.InFile (iso : IsoDate Date) (lg : Logger Date) : Prop where
  made : ∀ n ∈ lg.lstNotifications, n.Made
  file : lg.file.getD [] = toUtf8 (lg.lstNotifications.flatMap fun n => n.toString iso)
  noFile : lg.file = none → lg.lstNotifications = []

variable {lg : Logger Date}

theorem Logger.InFile.text_eq (h : lg.InFile iso) :
    (lg.lstNotifications.flatMap fun n => n.toString iso) =
      lg.lstNotifications.flatMap fun n => n.line iso ++ ['\n'] :=
  List.flatMap_congr fun n hn => (h.made n hn).toString_eq

theorem CNotification.Made.notMem_line {n : CNotification Date} (hn : n.Made) {c : Char}
    (hc : c = '\n' ∨ c = nul) (hmsg : c ∉ n.msg) : c ∉ n.line iso := by
  obtain ⟨level, -, hstr⟩ := hn
  have hdate : c ∉ iso.toString n.dateTime := by
    intro h
    have := iso.plain _ _ h
    cases hc with
    | inl hnl => exact this.2.2.1 hnl
    | inr hnul => exact this.2.2.2.1 hnul
  have hlevel : c ∉ level.str := by
    intro h
    have := level.str_plain.2 _ h
    cases hc with
    | inl hnl => exact this.2.2.1 hnl
    | inr hnul => exact this.2.2.2 hnul
  have hsep : c ∉ fieldSep := by
    cases hc with
    | inl hnl =>
        rw [hnl]
        decide
    | inr hnul =>
        rw [hnul]
        decide
  simp [CNotification.line, hstr, hdate, hlevel, hsep, hmsg]

/-- A line begins with its date. -/
theorem CNotification.head?_line_append (n : CNotification Date) (rest : QString) :
    (n.line iso ++ rest).head? ≠ some bom := by
  rw [CNotification.line]
  cases hdate : iso.toString n.dateTime with
  | nil => exact absurd hdate (iso.toString_ne_nil _)
  | cons c date =>
      have hplain := iso.plain n.dateTime c (hdate ▸ List.mem_cons_self)
      exact fun h => hplain.2.2.2.2 (Option.some.inj h)

theorem Logger.InFile.split_file (reader : TextReader) (h : lg.InFile iso)
    (clean : ∀ n ∈ lg.lstNotifications, '\n' ∉ n.msg ∧ nul ∉ n.msg) :
    split ['\n'] (reader.qString (lg.file.getD [])) =
      lg.lstNotifications.map (·.line iso) ++ [[]] := by
  have hnul : nul ∉ lg.lstNotifications.flatMap fun n => n.line iso ++ ['\n'] := by
    rw [List.mem_flatMap]
    rintro ⟨n, hn, hmem⟩
    cases List.mem_append.mp hmem with
    | inl hline => exact (h.made n hn).notMem_line (Or.inr rfl) (clean n hn).2 hline
    | inr hlast => exact absurd hlast (by decide)
  have hbom : (lg.lstNotifications.flatMap fun n => n.line iso ++ ['\n']).head? ≠ some bom := by
    cases lg.lstNotifications with
    | nil => exact (Option.some_ne_none bom).symm
    | cons n rest =>
        rw [List.flatMap_cons, List.append_assoc]
        exact n.head?_line_append _
  have hwhole := (reader.qString_toUtf8_eq_self_iff _).mpr ⟨hnul, hbom⟩
  rw [h.file, h.text_eq, hwhole, ← split_lines, List.flatMap_map]
  intro line hline
  obtain ⟨n, hn, rfl⟩ := List.mem_map.mp hline
  exact (h.made n hn).notMem_line (Or.inl rfl) (clean n hn).1

end

section
variable {Date : Type} [LT Date] [DecidableLT Date] (iso : IsoDate Date) (reader : TextReader)

/-- The notification that `init_records` makes of a line. -/
def readLine (fromDate : Date) (line : QString) : Option (CNotification Date) :=
  (CNotification.fromString iso line).filter fun n => !decide (n.dateTime < fromDate)

theorem foldl_initRecord (fromDate : Date) (lines : List QString) (lg : Logger Date) :
    (lines.foldl (initRecord iso fromDate) lg).lstNotifications =
      lg.lstNotifications ++ lines.filterMap (readLine iso fromDate) := by
  induction lines generalizing lg with
  | nil => simp
  | cons line lines ih =>
      rw [List.foldl_cons, ih, initRecord, List.filterMap_cons, readLine]
      cases CNotification.fromString iso line with
      | none => rfl
      | some n =>
          by_cases hold : n.dateTime < fromDate
          · simp [hold, Option.filter]
          · simp [hold, Option.filter, addNotification]

def Logger.onFile (file : Option QByteArray) : Logger Date :=
  { lstNotifications := [], lstNotificationUnions := [], file := file }

theorem lstNotifications_initRecords (fromDate : Date) (file : Option QByteArray) :
    (initRecords iso reader true fromDate (Logger.onFile file)).lstNotifications =
      (split ['\n'] (reader.qString (file.getD []))).filterMap (readLine iso fromDate) := by
  have hempty : (split ['\n'] (reader.qString [])).filterMap (readLine iso fromDate) = [] := by
    have hnil : reader.qString [] = [] := reader.fromUtf8_toUtf8 []
    rw [hnil]
    rfl
  cases file with
  | none => exact hempty.symm
  | some bytes =>
      cases bytes with
      | nil => exact hempty.symm
      | cons b bytes =>
          rw [initRecords]
          exact foldl_initRecord iso fromDate _ _

variable {iso} {lg : Logger Date}

theorem Logger.InFile.recovered_iff (h : lg.InFile iso) {fromDate : Date}
    (newer : ∀ n ∈ lg.lstNotifications, ¬ n.dateTime < fromDate) :
    (initRecords iso reader true fromDate (Logger.onFile lg.file)).lstNotifications =
        lg.lstNotifications ↔
      ∀ n ∈ lg.lstNotifications, Storable n.msg := by
  rw [lstNotifications_initRecords]
  have hread (n : CNotification Date) (hn : n ∈ lg.lstNotifications) :
      readLine iso fromDate (n.line iso) = some n ↔
        CNotification.fromString iso (n.line iso) = some n := by
    rw [readLine, Option.filter_eq_some_iff]
    simp [newer n hn]
  have hlast : readLine iso fromDate [] = none := rfl
  constructor
  · intro hrec
    -- what comes back has been through both splits
    have hback (n : CNotification Date) (hn : n ∈ lg.lstNotifications) :
        n.msg ≠ [] ∧ ¬ fieldSep <:+: n.msg ∧ '\n' ∉ n.msg ∧ nul ∉ n.msg := by
      rw [← hrec] at hn
      obtain ⟨line, hline, hsome⟩ := List.mem_filterMap.mp hn
      obtain ⟨hne, hsep, hmsg⟩ := CNotification.of_fromString (Option.filter_eq_some_iff.mp hsome).1
      refine ⟨hne, hsep, ?_, ?_⟩
      · intro hnl
        exact not_infix_of_mem_split (List.cons_ne_nil _ _) hline
          ((List.singleton_infix_iff _ _).mpr (hmsg.subset hnl))
      · intro hnul
        have htext := infix_of_mem_split (List.cons_ne_nil _ _) hline
        exact reader.nul_notMem_qString _ (htext.subset (hmsg.subset hnul))
    rw [h.split_file reader fun n hn => (hback n hn).2.2, List.filterMap_append,
      List.filterMap_map, List.filterMap_cons, hlast, List.filterMap_nil, List.append_nil] at hrec
    have hback' := hrec.trans List.filterMap_some.symm
    rw [Counting.filterMap_eq_filterMap_iff _ fun n _ hnone => absurd hnone (Option.some_ne_none n)]
      at hback'
    intro n hn
    have hsome := (hread n hn).mp (hback' n hn)
    obtain ⟨hne, hsep, hnl, hnul⟩ := hback n hn
    exact ⟨hne, hnl, hnul, hsep,
      (filter_split_msg_iff hne hsep).mp ((h.made n hn).fromString_line_iff.mp hsome)⟩
  · intro hstorable
    rw [h.split_file reader fun n hn => ⟨(hstorable n hn).oneLine, (hstorable n hn).nulFree⟩,
      List.filterMap_append, List.filterMap_map, List.filterMap_cons, hlast, List.filterMap_nil,
      List.append_nil]
    refine (List.filterMap_congr fun n hn => ?_).trans List.filterMap_some
    have hs := hstorable n hn
    exact (hread n hn).mpr ((h.made n hn).fromString_line_iff.mpr
      ((filter_split_msg_iff hs.nonempty hs.noSep).mpr hs.lastChar))

variable (iso)

/-- What writes to the log. A notification is lost as a whole when the file cannot be
opened; a rewrite opens it. -/
inductive LogStep (Date : Type) where
  | notificationReceived (opened : Bool) (now : Date) (level : Level) (str : QString)
  | clearOldRecords (old : Date)

def Logger.logStep (lg : Logger Date) : LogStep Date → Logger Date
  | .notificationReceived opened now level str =>
      Notification.notificationReceived iso opened now level str lg
  | .clearOldRecords old => Notification.clearOldRecords iso true old lg

theorem lstNotifications_clearOldRecords (opened : Bool) (old : Date) (lg : Logger Date) :
    (Notification.clearOldRecords iso opened old lg).lstNotifications =
      kept (fun n => decide (n.dateTime < old)) lg.lstNotifications := by
  rw [Notification.clearOldRecords, removeIf_eq]
  exact List.take_left

/-- Appending a record and rewriting all of them come to the same file. -/
theorem Logger.InFile.logStep (h : lg.InFile iso) (step : LogStep Date) :
    (lg.logStep iso step).InFile iso := by
  cases step with
  | notificationReceived opened now level str =>
      cases opened with
      | false => exact h
      | true =>
          refine ⟨?_, ?_, fun hnone => absurd hnone (Option.some_ne_none _)⟩
          · intro n hn
            cases List.mem_append.mp hn with
            | inl hold => exact h.made n hold
            | inr hnew =>
                rw [List.mem_singleton.mp hnew]
                exact ⟨level, rfl, rfl⟩
          · change lg.file.getD [] ++ toUtf8 _ = toUtf8 ((lg.lstNotifications ++ [_]).flatMap _)
            rw [h.file, List.flatMap_append, toUtf8_append, List.flatMap_singleton]
  | clearOldRecords old =>
      have hlst := lstNotifications_clearOldRecords iso true old lg
      have hsub : ∀ n ∈ (Notification.clearOldRecords iso true old lg).lstNotifications,
          n ∈ lg.lstNotifications := by
        intro n hn
        rw [hlst] at hn
        exact (List.mem_filter.mp hn).1
      cases hfile : lg.file with
      | none =>
          have hempty : kept (fun n => decide (n.dateTime < old)) lg.lstNotifications = [] := by
            rw [h.noFile hfile]
            rfl
          refine ⟨fun n hn => h.made n (hsub n hn), ?_, fun _ => hlst.trans hempty⟩
          change (Notification.clearOldRecords iso true old lg).file.getD [] =
            toUtf8 ((Notification.clearOldRecords iso true old lg).lstNotifications.flatMap _)
          rw [hlst, hempty]
          simp [Notification.clearOldRecords, hfile, toUtf8]
      | some bytes =>
          have hbytes : (Notification.clearOldRecords iso true old lg).file =
              some ((Notification.clearOldRecords iso true old lg).lstNotifications.flatMap
                fun n => toUtf8 (n.toString iso)) := by
            simp [Notification.clearOldRecords, hfile]
          refine ⟨fun n hn => h.made n (hsub n hn), ?_, ?_⟩
          · change (Notification.clearOldRecords iso true old lg).file.getD [] =
              toUtf8 ((Notification.clearOldRecords iso true old lg).lstNotifications.flatMap _)
            rw [hbytes, toUtf8, List.flatMap_assoc]
            rfl
          · intro hnone
            exact absurd (hbytes.symm.trans hnone) (Option.some_ne_none _)

/-- After every sequence of appends and rewrites the log is read back exactly when
all the messages still in memory are storable. -/
theorem initRecords_recovers_iff (steps : List (LogStep Date)) (fromDate : Date)
    (newer : ∀ n ∈ (steps.foldl (Logger.logStep iso) (Logger.onFile none)).lstNotifications,
      ¬ n.dateTime < fromDate) :
    (initRecords iso reader true fromDate
        (Logger.onFile (steps.foldl (Logger.logStep iso) (Logger.onFile none)).file)).lstNotifications =
        (steps.foldl (Logger.logStep iso) (Logger.onFile none)).lstNotifications ↔
      ∀ n ∈ (steps.foldl (Logger.logStep iso) (Logger.onFile none)).lstNotifications,
        Storable n.msg := by
  have hstart : (Logger.onFile none : Logger Date).InFile iso :=
    ⟨fun n hn => absurd hn List.not_mem_nil, rfl, fun _ => rfl⟩
  have hfile : (steps.foldl (Logger.logStep iso) (Logger.onFile none)).InFile iso :=
    Runs.invariant hstart (fun lg step h => Logger.InFile.logStep iso h step) steps
  exact hfile.recovered_iff reader newer

end

/-- A local date by its digits, from the first one of the year to the last one of the
seconds. -/
structure DigitDate where
  digits : Vector (Fin 10) 14

instance : LT DigitDate := ⟨fun a b => a.digits.toList < b.digits.toList⟩

instance : DecidableLT DigitDate := fun a b =>
  inferInstanceAs (Decidable (a.digits.toList < b.digits.toList))

def digitChar (d : Fin 10) : Char := Char.ofNat (48 + d)

def charDigit (c : Char) : Option (Fin 10) :=
  if h : 48 ≤ c.toNat ∧ c.toNat - 48 < 10 then some ⟨c.toNat - 48, h.2⟩ else none

theorem charDigit_digitChar (d : Fin 10) : charDigit (digitChar d) = some d := by
  revert d
  decide

theorem digitChar_plain (d : Fin 10) :
    digitChar d ≠ '#' ∧ digitChar d ≠ '%' ∧ digitChar d ≠ '\n' ∧ digitChar d ≠ nul ∧
      digitChar d ≠ bom := by
  revert d
  decide

def DigitDate.toString (date : DigitDate) : QString :=
  let d := date.digits
  [digitChar d[0], digitChar d[1], digitChar d[2], digitChar d[3], '-', digitChar d[4],
    digitChar d[5], '-', digitChar d[6], digitChar d[7], 'T', digitChar d[8], digitChar d[9], ':',
    digitChar d[10], digitChar d[11], ':', digitChar d[12], digitChar d[13]]

def DigitDate.fromString : QString → Option DigitDate
  | [y₁, y₂, y₃, y₄, '-', m₁, m₂, '-', d₁, d₂, 'T', h₁, h₂, ':', n₁, n₂, ':', s₁, s₂] => do
      some ⟨#v[← charDigit y₁, ← charDigit y₂, ← charDigit y₃, ← charDigit y₄, ← charDigit m₁,
        ← charDigit m₂, ← charDigit d₁, ← charDigit d₂, ← charDigit h₁, ← charDigit h₂,
        ← charDigit n₁, ← charDigit n₂, ← charDigit s₁, ← charDigit s₂]⟩
  | _ => none

def digitIso : IsoDate DigitDate where
  toString := DigitDate.toString
  fromString := DigitDate.fromString
  fromString_toString := by
    intro date
    simp only [DigitDate.fromString, DigitDate.toString, charDigit_digitChar,
      Option.bind_eq_bind, Option.bind_some]
    refine congrArg (fun d => some (DigitDate.mk d)) (Vector.ext fun i hi => ?_)
    interval_cases i <;> rfl
  toString_ne_nil := fun date => List.cons_ne_nil _ _
  plain := by
    intro date
    simp only [DigitDate.toString, List.forall_mem_cons, List.not_mem_nil, IsEmpty.forall_iff,
      implies_true, digitChar_plain, ne_eq, not_false_eq_true, and_self, true_and]
    decide

def newYear : DigitDate := ⟨#v[2, 0, 1, 9, 0, 1, 0, 1, 0, 0, 0, 0, 0, 0]⟩
def january : DigitDate := ⟨#v[2, 0, 1, 9, 0, 1, 2, 0, 1, 2, 3, 0, 0, 0]⟩

theorem initRecords_recovers_january :
    (initRecords digitIso utf8Reader true newYear (Logger.onFile
        ([.notificationReceived true january .nlError "#1: 50%1 of\t# lost".toList,
          .clearOldRecords newYear].foldl (Logger.logStep digitIso)
          (Logger.onFile none)).file)).lstNotifications =
        ([.notificationReceived true january .nlError "#1: 50%1 of\t# lost".toList,
          .clearOldRecords newYear].foldl (Logger.logStep digitIso)
          (Logger.onFile none)).lstNotifications ↔
      ∀ n ∈ ([.notificationReceived true january .nlError "#1: 50%1 of\t# lost".toList,
        .clearOldRecords newYear].foldl (Logger.logStep digitIso)
        (Logger.onFile none)).lstNotifications, Storable n.msg :=
  initRecords_recovers_iff digitIso utf8Reader
    [.notificationReceived true january .nlError "#1: 50%1 of\t# lost".toList,
      .clearOldRecords newYear] newYear (by decide +kernel)

/-- A message that ends in a hash sign is not recovered. -/
theorem initRecords_loses_last_hash :
    ([.notificationReceived true january .nlInfo "issue #".toList].foldl (Logger.logStep digitIso)
        (Logger.onFile none)).lstNotifications =
        [CNotification.new january .nlInfo "issue #".toList] ∧
      (initRecords digitIso utf8Reader true newYear (Logger.onFile
        ([.notificationReceived true january .nlInfo "issue #".toList].foldl
          (Logger.logStep digitIso) (Logger.onFile none)).file)).lstNotifications.length = 0 ∧
      (initRecords digitIso utf8Reader true newYear (Logger.onFile
        ([.notificationReceived true january .nlInfo "issue #".toList].foldl
          (Logger.logStep digitIso) (Logger.onFile none)).file)).lstNotifications ≠
        ([.notificationReceived true january .nlInfo "issue #".toList].foldl
          (Logger.logStep digitIso) (Logger.onFile none)).lstNotifications := by
  have hlost : (initRecords digitIso utf8Reader true newYear (Logger.onFile
      ([.notificationReceived true january .nlInfo "issue #".toList].foldl
        (Logger.logStep digitIso) (Logger.onFile none)).file)).lstNotifications.length = 0 := by
    decide +kernel
  refine ⟨rfl, hlost, ?_⟩
  intro heq
  rw [heq] at hlost
  exact absurd hlost (by decide +kernel)

end SubutaiTray.Notification
