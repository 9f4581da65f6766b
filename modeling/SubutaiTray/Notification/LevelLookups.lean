import SubutaiTray.Notification.LogFile

/-!
The table models of the notifications dialog (`DlgNotificationsModel.cpp`).

Both models look up the colour of a row by the level of its notification.
`fromString` leaves the level as it was before when the name in the record is
none of the four, and before there was nothing.
-/
namespace SubutaiTray.Notification

open Splitting RemoveIf

structure QColor where
  red : UInt8
  green : UInt8
  blue : UInt8
  deriving DecidableEq

/-- What the models hand to the view. -/
inductive Cell (Date : Type) where
  | invalid
  | brush (color : QColor)
  | date (dateTime : Date)
  | text (str : QString)
  | count (n : UInt32)
  | flag (on : Bool)
  | check (on : Bool)
  deriving DecidableEq

inductive Role where
  | backgroundColor
  | checkState
  | display
  | edit
  | other
  deriving DecidableEq

def Level.index : Level → Nat
  | .nlInfo => 0
  | .nlWarning => 1
  | .nlError => 2
  | .nlCritical => 3

def colorsByLevel : List QColor :=
  [⟨145, 255, 200⟩, ⟨255, 200, 145⟩, ⟨255, 145, 145⟩, ⟨210, 0, 15⟩]

/-- The entry of the table at a level. A level that was not set is no place in it. -/
def colorByLevel (level : Option Level) : Option QColor :=
  level.bind fun l => colorsByLevel[l.index]?

def ntmColCount : Nat := 3
def nucColCount : Nat := 4
def nucColChkIgnored : Nat := 3

section
variable {Date : Type} (isIgnored : QString → Bool)

/-- `DlgNotificationsTableModel::data`; `none` is a read outside of an array. -/
def notificationsData (ds : List (CNotification Date)) (row column : Nat) (role : Role) :
    Option (Cell Date) :=
  match ds[row]? with
  | none => some .invalid
  | some n =>
      match role with
      | .backgroundColor => (colorByLevel n.level).map .brush
      | .display | .edit => [Cell.date n.dateTime, .text n.levelStr, .text n.msg][column]?
      | .checkState | .other => some .invalid

/-- `DlgNotificationUnionsTableModel::data`. -/
def unionsData (ds : List CNotificationUnion) (row column : Nat) (role : Role) :
    Option (Cell Date) :=
  match ds[row]? with
  | none => some .invalid
  | some u =>
      match role with
      | .backgroundColor => (colorByLevel u.level).map .brush
      | .checkState =>
          if column = nucColChkIgnored then some (.check (isIgnored u.msg)) else some .invalid
      | .display | .edit =>
          [Cell.count u.count, .text u.levelStr, .text u.msg, .flag (isIgnored u.msg)][column]?
      | .other => some .invalid

theorem colorByLevel_isSome {level : Option Level} :
    (colorByLevel level).isSome ↔ level.isSome := by
  cases level with
  | none => exact Iff.rfl
  | some l => cases l <;> exact Iff.rfl

theorem notificationsData_isSome {ds : List (CNotification Date)}
    (leveled : ∀ n ∈ ds, n.level.isSome) {column : Nat} (hcolumn : column < ntmColCount)
    (row : Nat) (role : Role) : (notificationsData ds row column role).isSome := by
  rw [notificationsData]
  cases hrow : ds[row]? with
  | none => rfl
  | some n =>
      have hlevel := leveled n (List.mem_of_getElem? hrow)
      cases role with
      | backgroundColor =>
          rw [Option.isSome_map]
          exact colorByLevel_isSome.mpr hlevel
      | display | edit =>
          rw [isSome_getElem?]
          exact hcolumn
      | checkState | other => rfl

theorem unionsData_isSome {ds : List CNotificationUnion}
    (leveled : ∀ u ∈ ds, u.level.isSome) {column : Nat} (hcolumn : column < nucColCount)
    (row : Nat) (role : Role) :
    (unionsData isIgnored ds row column role : Option (Cell Date)).isSome := by
  rw [unionsData]
  cases hrow : ds[row]? with
  | none => rfl
  | some u =>
      have hlevel := leveled u (List.mem_of_getElem? hrow)
      cases role with
      | backgroundColor =>
          rw [Option.isSome_map]
          exact colorByLevel_isSome.mpr hlevel
      | display | edit =>
          rw [isSome_getElem?]
          exact hcolumn
      | checkState =>
          dsimp only
          split <;> rfl
      | other => rfl

end

section denoted
variable {Date : Type}

/-- The record that a line denotes: its date is one, and its level has one of the names. -/
def denoted (iso : IsoDate Date) (line : QString) : Option (CNotification Date) :=
  match (split fieldSep line).filter (· ≠ []) with
  | [date, level, msg] => do
      let date ← iso.fromString date
      let level ← Level.all.find? fun l => l.str = level
      some (CNotification.new date level msg)
  | _ => none

variable {iso : IsoDate Date}

theorem fromString_of_parts {line date level msg : QString}
    (hparts : (split fieldSep line).filter (· ≠ []) = [date, level, msg]) :
    CNotification.fromString iso line = (iso.fromString date).map fun d =>
      ⟨d, (Level.all.filter fun l => l.str = level).getLast?, level, msg⟩ := by
  rw [CNotification.fromString, hparts]
  dsimp only
  cases iso.fromString date <;> rfl

theorem denoted_of_parts {line date level msg : QString}
    (hparts : (split fieldSep line).filter (· ≠ []) = [date, level, msg]) :
    denoted iso line = (iso.fromString date).bind fun d =>
      (Level.all.find? fun l => l.str = level).map fun l => CNotification.new d l msg := by
  rw [denoted, hparts]
  dsimp only
  rw [Option.bind_eq_bind]
  refine congrArg _ (funext fun d => ?_)
  cases Level.all.find? fun l => l.str = level <;> rfl

theorem fromString_of_no_parts {line : QString}
    (hparts : ∀ date level msg, (split fieldSep line).filter (· ≠ []) ≠ [date, level, msg]) :
    CNotification.fromString iso line = none := by
  rw [CNotification.fromString]
  split
  · rename_i date level msg heq
    exact absurd heq (hparts date level msg)
  · rfl

theorem denoted_of_no_parts {line : QString}
    (hparts : ∀ date level msg, (split fieldSep line).filter (· ≠ []) ≠ [date, level, msg]) :
    denoted iso line = none := by
  rw [denoted]
  split
  · rename_i date level msg heq
    exact absurd heq (hparts date level msg)
  · rfl

theorem made_of_denoted {line : QString} {n : CNotification Date} (h : denoted iso line = some n) :
    n.Made := by
  by_cases hrecord : ∃ date level msg, (split fieldSep line).filter (· ≠ []) = [date, level, msg]
  · obtain ⟨date, level, msg, hparts⟩ := hrecord
    rw [denoted_of_parts hparts] at h
    obtain ⟨d, -, hlevel⟩ := Option.bind_eq_some_iff.mp h
    obtain ⟨l, -, hn⟩ := Option.map_eq_some_iff.mp hlevel
    rw [← hn]
    exact ⟨l, rfl, rfl⟩
  · have hnone : denoted iso line = none :=
      denoted_of_no_parts fun date level msg heq => hrecord ⟨date, level, msg, heq⟩
    rw [hnone] at h
    exact absurd h.symm (Option.some_ne_none _)

end denoted

/-- All levels in memory are levels, with their own names beside them. -/
structure Logger.Leveled {Date : Type} (lg : Logger Date) : Prop where
  notifications : ∀ n ∈ lg.lstNotifications, n.Made
  unions : ∀ u ∈ lg.lstNotificationUnions, ∃ level, u.level = some level ∧ u.levelStr = level.str

theorem forall_mem_updateFirst {α : Type} {found : α → Bool} {change : α → α} {p : α → Prop}
    (keeps : ∀ x, p x → p (change x)) {l : List α} (h : ∀ x ∈ l, p x) :
    ∀ x ∈ updateFirst found change l, p x := by
  induction l with
  | nil => exact h
  | cons a l ih =>
      obtain ⟨ha, hl⟩ := List.forall_mem_cons.mp h
      rw [updateFirst]
      split
      · exact List.forall_mem_cons.mpr ⟨keeps a ha, hl⟩
      · exact List.forall_mem_cons.mpr ⟨ha, ih hl⟩

section
variable {Date : Type} {lg : Logger Date}

theorem Logger.Leveled.isSome (h : lg.Leveled) :
    (∀ n ∈ lg.lstNotifications, n.level.isSome) ∧
      ∀ u ∈ lg.lstNotificationUnions, u.level.isSome := by
  refine ⟨?_, ?_⟩
  · intro n hn
    obtain ⟨level, hlevel, -⟩ := h.notifications n hn
    rw [hlevel]
    rfl
  · intro u hu
    obtain ⟨level, hlevel, -⟩ := h.unions u hu
    rw [hlevel]
    rfl

theorem Logger.Leveled.addNotification (h : lg.Leveled) {n : CNotification Date} (hn : n.Made) :
    (addNotification n lg).Leveled := by
  refine ⟨?_, ?_⟩
  · intro n' hn'
    cases List.mem_append.mp hn' with
    | inl hold => exact h.notifications n' hold
    | inr hnew =>
        rw [List.mem_singleton.mp hnew]
        exact hn
  · simp only [Notification.addNotification]
    split
    · refine forall_mem_updateFirst ?_ h.unions
      intro u hu
      exact hu
    · intro u hu
      cases List.mem_append.mp hu with
      | inl hold => exact h.unions u hold
      | inr hnew =>
          rw [List.mem_singleton.mp hnew]
          exact hn

theorem forall_mem_decrementUnions {p : CNotificationUnion → Prop}
    (keeps : ∀ u, p u → p u.decrementCount) (removed : List (CNotification Date))
    {unions : List CNotificationUnion} (h : ∀ u ∈ unions, p u) :
    ∀ u ∈ decrementUnions removed unions, p u := by
  induction removed generalizing unions with
  | nil => exact h
  | cons n removed ih => exact ih (forall_mem_updateFirst keeps h)

variable [LT Date] [DecidableLT Date] (iso : IsoDate Date) (reader : TextReader)

theorem Logger.Leveled.clearOldRecords (h : lg.Leveled) (opened : Bool) (old : Date) :
    (clearOldRecords iso opened old lg).Leveled := by
  refine ⟨?_, forall_mem_decrementUnions (fun u hu => hu) _ h.unions⟩
  intro n hn
  rw [lstNotifications_clearOldRecords] at hn
  exact h.notifications n (List.mem_filter.mp hn).1

/-- What a log that was loaded can become. A table is sorted in place when one of its
headers is clicked. -/
inductive Later (lg : Logger Date) : Logger Date → Prop where
  | loaded : Later lg lg
  | notificationReceived {lg' : Logger Date} (h : Later lg lg') (opened : Bool) (now : Date)
      (level : Level) (str : QString) :
      Later lg (notificationReceived iso opened now level str lg')
  | clearOldRecords {lg' : Logger Date} (h : Later lg lg') (opened : Bool) (old : Date) :
      Later lg (clearOldRecords iso opened old lg')
  | sortNotifications {lg' : Logger Date} (h : Later lg lg') {ds : List (CNotification Date)}
      (hds : ds.Perm lg'.lstNotifications) : Later lg { lg' with lstNotifications := ds }
  | sortUnions {lg' : Logger Date} (h : Later lg lg') {ds : List CNotificationUnion}
      (hds : ds.Perm lg'.lstNotificationUnions) : Later lg { lg' with lstNotificationUnions := ds }

variable {iso}

theorem Logger.Leveled.later (h : lg.Leveled) {lg' : Logger Date} (hlater : Later iso lg lg') :
    lg'.Leveled := by
  induction hlater with
  | loaded => exact h
  | notificationReceived _ opened now level str ih =>
      cases opened with
      | false => exact ih
      | true =>
          have hadd := ih.addNotification (n := CNotification.new now level str) ⟨level, rfl, rfl⟩
          exact ⟨hadd.notifications, hadd.unions⟩
  | clearOldRecords _ opened old ih => exact ih.clearOldRecords iso opened old
  | sortNotifications _ hds ih =>
      exact ⟨fun n hn => ih.notifications n (hds.mem_iff.mp hn), ih.unions⟩
  | sortUnions _ hds ih =>
      exact ⟨ih.notifications, fun u hu => ih.unions u (hds.mem_iff.mp hu)⟩

variable (iso)

/-- The lines that `init_records` reads, none when the file cannot be opened. -/
def fileLines (opened : Bool) (file : Option QByteArray) : List QString :=
  if opened then split ['\n'] (reader.qString (file.getD [])) else []

/-- The log is loaded right: what is in memory is what the lines denote, and from then
on every table look-up is one inside the table. -/
structure LoadedRight (opened : Bool) (fromDate : Date) (file : Option QByteArray)
    (lg : Logger Date) : Prop where
  records : lg.lstNotifications =
    (fileLines reader opened file).filterMap fun line =>
      (denoted iso line).filter fun n => !decide (n.dateTime < fromDate)
  leveled : ∀ lg', Later iso lg lg' → lg'.Leveled
  notifications : ∀ lg', Later iso lg lg' → ∀ row column role, column < ntmColCount →
    (notificationsData lg'.lstNotifications row column role).isSome
  unions : ∀ lg', Later iso lg lg' → ∀ isIgnored row column role, column < nucColCount →
    (unionsData isIgnored lg'.lstNotificationUnions row column role : Option (Cell Date)).isSome

/-- Every record of the file that is new enough names a level. -/
def LevelsNamed (opened : Bool) (fromDate : Date) (file : Option QByteArray) : Prop :=
  ∀ line ∈ fileLines reader opened file, ∀ date level msg,
    (split fieldSep line).filter (· ≠ []) = [date, level, msg] →
    ∀ d, iso.fromString date = some d → ¬ d < fromDate → ∃ l : Level, l.str = level

variable {iso reader} {opened : Bool} {fromDate : Date} {file : Option QByteArray}

theorem lstNotifications_fileLines :
    (initRecords iso reader opened fromDate (Logger.onFile file)).lstNotifications =
      (fileLines reader opened file).filterMap (readLine iso fromDate) := by
  cases opened with
  | true => exact lstNotifications_initRecords iso reader fromDate file
  | false => cases file <;> rfl

theorem Level.find?_str (l : Level) : (Level.all.find? fun l' => l'.str = l.str) = some l := by
  cases l <;> decide

/-- A line is read as the record it denotes when its level has one of the names. -/
theorem readLine_eq_denoted {line : QString}
    (named : ∀ date level msg, (split fieldSep line).filter (· ≠ []) = [date, level, msg] →
      ∀ d, iso.fromString date = some d → ¬ d < fromDate → ∃ l : Level, l.str = level) :
    readLine iso fromDate line = (denoted iso line).filter fun n => !decide (n.dateTime < fromDate) := by
  by_cases hrecord : ∃ date level msg, (split fieldSep line).filter (· ≠ []) = [date, level, msg]
  · obtain ⟨date, level, msg, hparts⟩ := hrecord
    rw [readLine, fromString_of_parts hparts, denoted_of_parts hparts]
    cases hdate : iso.fromString date with
    | none => rfl
    | some d =>
        rw [Option.map_some, Option.bind_some]
        by_cases hold : d < fromDate
        · cases Level.all.find? fun l => l.str = level with
          | none => simp [hold, Option.filter]
          | some l => simp [hold, Option.filter, CNotification.new]
        · obtain ⟨l, rfl⟩ := named date level msg hparts d hdate hold
          rw [Level.find?_str, Level.find_str]
          rfl
  · have hparts : ∀ date level msg,
        (split fieldSep line).filter (· ≠ []) ≠ [date, level, msg] :=
      fun date level msg heq => hrecord ⟨date, level, msg, heq⟩
    rw [readLine, fromString_of_no_parts hparts, denoted_of_no_parts hparts]

theorem Logger.Leveled.initRecord {lg : Logger Date} (h : lg.Leveled) {line : QString}
    (made : ∀ n, readLine iso fromDate line = some n → n.Made) :
    (initRecord iso fromDate lg line).Leveled := by
  rw [Notification.initRecord]
  cases hline : CNotification.fromString iso line with
  | none => exact h
  | some n =>
      dsimp only
      split
      · exact h
      · rename_i hnew
        refine h.addNotification (made n ?_)
        rw [readLine, hline, Option.filter_some, if_pos (by simp [hnew])]

theorem Logger.Leveled.initRecords
    (made : ∀ line ∈ fileLines reader opened file,
      ∀ n, readLine iso fromDate line = some n → n.Made) :
    (initRecords iso reader opened fromDate (Logger.onFile file)).Leveled := by
  have hstart : (Logger.onFile file : Logger Date).Leveled :=
    ⟨fun n hn => absurd hn List.not_mem_nil, fun u hu => absurd hu List.not_mem_nil⟩
  have hfold (lines : List QString) (hlines : ∀ line ∈ lines,
      ∀ n, readLine iso fromDate line = some n → n.Made) (lg : Logger Date) (hlg : lg.Leveled) :
      (lines.foldl (Notification.initRecord iso fromDate) lg).Leveled := by
    induction lines generalizing lg with
    | nil => exact hlg
    | cons line lines ih =>
        obtain ⟨hline, hlines⟩ := List.forall_mem_cons.mp hlines
        exact ih hlines _ (hlg.initRecord hline)
  cases file with
  | none => exact hstart
  | some bytes =>
      simp only [Notification.initRecords, Logger.onFile]
      split
      · exact hstart
      · rename_i hread
        cases opened with
        | false => exact absurd rfl hread
        | true => exact hfold _ made _ hstart

/-- A new record is accepted, under whatever stands for its level. -/
theorem accepted_of_parts {line date level msg : QString} {d : Date}
    (hline : line ∈ fileLines reader opened file)
    (hparts : (split fieldSep line).filter (· ≠ []) = [date, level, msg])
    (hdate : iso.fromString date = some d) (hnew : ¬ d < fromDate) :
    ⟨d, (Level.all.filter fun l => l.str = level).getLast?, level, msg⟩ ∈
      (initRecords iso reader opened fromDate (Logger.onFile file)).lstNotifications := by
  have hread : readLine iso fromDate line =
      some ⟨d, (Level.all.filter fun l => l.str = level).getLast?, level, msg⟩ := by
    rw [readLine, fromString_of_parts hparts, hdate]
    simp [Option.filter, hnew]
  rw [lstNotifications_fileLines]
  exact List.mem_filterMap.mpr ⟨line, hline, hread⟩

variable (iso reader opened fromDate file)

/-- The log is loaded right exactly when every record in the file that is new enough has
one of the four names as its level. -/
theorem loadedRight_iff :
    LoadedRight iso reader opened fromDate file
        (initRecords iso reader opened fromDate (Logger.onFile file)) ↔
      LevelsNamed iso reader opened fromDate file := by
  constructor
  · intro h line hline date level msg hparts d hdate hnew
    have haccepted := accepted_of_parts hline hparts hdate hnew
    obtain ⟨l, -, hl⟩ := (h.leveled _ Later.loaded).notifications _ haccepted
    exact ⟨l, hl.symm⟩
  · intro named
    have hlines : ∀ line ∈ fileLines reader opened file, readLine iso fromDate line =
        (denoted iso line).filter fun n => !decide (n.dateTime < fromDate) := by
      intro line hline
      exact readLine_eq_denoted (named line hline)
    have hleveled : (initRecords iso reader opened fromDate (Logger.onFile file)).Leveled := by
      refine Logger.Leveled.initRecords ?_
      intro line hline n hn
      rw [hlines line hline, Option.filter_eq_some_iff] at hn
      exact made_of_denoted hn.1
    refine ⟨?_, fun lg' hlater => hleveled.later hlater, ?_, ?_⟩
    · rw [lstNotifications_fileLines]
      exact List.filterMap_congr hlines
    · intro lg' hlater row column role hcolumn
      exact notificationsData_isSome (hleveled.later hlater).isSome.1 hcolumn row role
    · intro lg' hlater isIgnored row column role hcolumn
      exact unionsData_isSome isIgnored (hleveled.later hlater).isSome.2 hcolumn row role

end

/-- A record with the level of another writing is accepted, and its row has no colour. -/
theorem not_loadedRight_info :
    notificationsData (initRecords digitIso utf8Reader true newYear (Logger.onFile
        (some (toUtf8 "2019-01-20T12:30:00###Info###Hello world".toList)))).lstNotifications
          0 0 .backgroundColor = none ∧
      ¬ LoadedRight digitIso utf8Reader true newYear
        (some (toUtf8 "2019-01-20T12:30:00###Info###Hello world".toList))
        (initRecords digitIso utf8Reader true newYear (Logger.onFile
          (some (toUtf8 "2019-01-20T12:30:00###Info###Hello world".toList)))) := by
  have hrow : notificationsData (initRecords digitIso utf8Reader true newYear (Logger.onFile
      (some (toUtf8 "2019-01-20T12:30:00###Info###Hello world".toList)))).lstNotifications
        0 0 .backgroundColor = none := by
    decide +kernel
  refine ⟨hrow, ?_⟩
  intro h
  have hcolor := h.notifications _ Later.loaded 0 0 .backgroundColor (by decide)
  rw [hrow] at hcolor
  exact absurd hcolor (by decide)

end SubutaiTray.Notification
