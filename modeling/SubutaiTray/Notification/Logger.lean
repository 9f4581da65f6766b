import SubutaiTray.Library.RemoveIf
import SubutaiTray.Library.Splitting
import SubutaiTray.Qt.PlaceMarkers

/-!
The notification log (`CNotificationLogger`, `CNotification`).

The logger keeps the notifications in memory, a table that counts the
notifications with equal messages, and a log file. A date is a `QDateTime` to the
second; how dates are printed and read (`Qt::ISODate`) is a parameter. Whether the
log file can be opened is an argument of each function that opens it.
-/
namespace SubutaiTray.Notification

open Splitting RemoveIf

structure IsoDate (Date : Type) where
  toString : Date → QString
  fromString : QString → Option Date
  fromString_toString : ∀ d, fromString (toString d) = some d
  toString_ne_nil : ∀ d, toString d ≠ []
  plain : ∀ d, ∀ c ∈ toString d, c ≠ '#' ∧ c ≠ '%' ∧ c ≠ '\n' ∧ c ≠ nul ∧ c ≠ bom

inductive Level where
  | nlInfo
  | nlWarning
  | nlError
  | nlCritical
  deriving DecidableEq, Repr

def Level.all : List Level := [.nlInfo, .nlWarning, .nlError, .nlCritical]

def Level.str : Level → QString
  | .nlInfo => "info".toList
  | .nlWarning => "warning".toList
  | .nlError => "error".toList
  | .nlCritical => "critical".toList

/-- `CNotification`. The level is `none` when `fromString` did not set it. -/
structure CNotification (Date : Type) where
  dateTime : Date
  level : Option Level
  levelStr : QString
  msg : QString
  deriving DecidableEq

def CNotification.new {Date : Type} (dateTime : Date) (level : Level) (msg : QString) :
    CNotification Date :=
  { dateTime := dateTime, level := some level, levelStr := level.str, msg := msg }

structure CNotificationUnion where
  level : Option Level
  levelStr : QString
  msg : QString
  count : UInt32
  deriving DecidableEq

structure Logger (Date : Type) where
  lstNotifications : List (CNotification Date)
  lstNotificationUnions : List CNotificationUnion
  file : Option QByteArray
  deriving DecidableEq

def fieldSep : QString := "###".toList

/-- Change the first element that is found, `std::find_if` and a write through it. -/
def updateFirst {α : Type} (found : α → Bool) (change : α → α) : List α → List α
  | [] => []
  | x :: xs => if found x then change x :: xs else x :: updateFirst found change xs

section
variable {Date : Type} (iso : IsoDate Date) (reader : TextReader)

def CNotification.toString (n : CNotification Date) : QString :=
  let dateStr := iso.toString n.dateTime
  arg (arg (arg "%1###%2###%3###\n".toList dateStr) n.levelStr) n.msg

/-- `CNotification::fromString`; `none` when nothing was converted. -/
def CNotification.fromString (str : QString) : Option (CNotification Date) :=
  match (split fieldSep str).filter (· ≠ []) with
  | [date, level, msg] =>
      match iso.fromString date with
      | none => none
      | some date =>
          some
            { dateTime := date
              level := (Level.all.filter fun l => l.str = level).getLast?
              levelStr := level
              msg := msg }
  | _ => none

def CNotificationUnion.incrementCount (u : CNotificationUnion) : CNotificationUnion :=
  { u with count := u.count + 1 }

def CNotificationUnion.decrementCount (u : CNotificationUnion) : CNotificationUnion :=
  { u with count := u.count - 1 }

def addNotification (n : CNotification Date) (lg : Logger Date) : Logger Date :=
  { lg with
    lstNotifications := lg.lstNotifications ++ [n]
    lstNotificationUnions :=
      if lg.lstNotificationUnions.any (·.msg = n.msg) then
        updateFirst (·.msg = n.msg) CNotificationUnion.incrementCount lg.lstNotificationUnions
      else lg.lstNotificationUnions ++ [⟨n.level, n.levelStr, n.msg, 1⟩] }

/-- `CNotificationLogger::notification_received` at the time `now`. -/
def notificationReceived (opened : Bool) (now : Date) (level : Level) (str : QString)
    (lg : Logger Date) : Logger Date :=
  if !opened then lg
  else
    let n := CNotification.new now level str
    let lg' := addNotification n lg
    { lg' with file := some (lg.file.getD [] ++ toUtf8 (n.toString iso)) }

variable [LT Date] [DecidableLT Date]

def initRecord (fromDate : Date) (lg : Logger Date) (line : QString) : Logger Date :=
  match CNotification.fromString iso line with
  | none => lg
  | some n => if n.dateTime < fromDate then lg else addNotification n lg

def initRecords (opened : Bool) (fromDate : Date) (lg : Logger Date) : Logger Date :=
  match lg.file with
  | none => lg
  | some lineArr =>
      if !opened || lineArr.isEmpty then lg
      else (split ['\n'] (reader.qString lineArr)).foldl (initRecord iso fromDate) lg

/-- The loop over the removed end of the array in `clear_old_records`. -/
def decrementUnions (removed : List (CNotification Date)) (unions : List CNotificationUnion) :
    List CNotificationUnion :=
  removed.foldl
    (fun unions n => updateFirst (·.msg = n.msg) CNotificationUnion.decrementCount unions) unions

/-- `CNotificationLogger::clear_old_records`, `old` being seven days ago. -/
def clearOldRecords (opened : Bool) (old : Date) (lg : Logger Date) : Logger Date :=
  let (array, firstToRemove) := removeIf (fun n => decide (n.dateTime < old)) lg.lstNotifications
  let unions := decrementUnions (array.drop firstToRemove) lg.lstNotificationUnions
  let lst := array.take firstToRemove
  { lstNotifications := lst
    lstNotificationUnions := unions
    file :=
      match lg.file with
      | none => none
      | some bytes => if !opened then some bytes else some (lst.flatMap fun n => toUtf8 (n.toString iso)) }

end

end SubutaiTray.Notification
