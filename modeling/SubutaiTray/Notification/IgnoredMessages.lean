import SubutaiTray.Library.Sweeping
import SubutaiTray.Notification.LevelLookups
import SubutaiTray.Settings.SettingCalls

/-!
Messages that are not to be shown (`m_is_ignored`, `DlgNotification`,
`TrayControlWindow::notification_received`).

Whether a message is shown is asked of the settings, in which the boxes of the dialogs and those of the
history save it. A row of the history asks the settings only once, when it is made. Without the boxes
this is the logger of the log file (`loggerTurn_step`).
-/
namespace SubutaiTray.Notification

open Settings

/-- `NOTIFICATION_ACTION_TYPE` -/
inductive NotificationActionType where
  | updateP2p
  | updateTray
  | settings
  | goToHub
  | notfHistory
  | restartTray
  | about
  | noAction
  | startP2p
  | installP2p
  | resolveLibssl
  | stopP2p
  | uninstall
  | goToHubPeer
  deriving DecidableEq

/-- The dialogs of these have no box. -/
def NotificationActionType.hidesIgnore : NotificationActionType → Bool
  | .installP2p | .startP2p | .stopP2p | .updateP2p | .settings | .about => true
  | _ => false

structure DlgNotification where
  level : Level
  msg : QString
  actionType : NotificationActionType
  chkIgnore : Bool

/-- `CNotificationUnion` with `m_is_ignored`. -/
structure IgnorableUnion extends CNotificationUnion where
  isIgnored : Bool
  deriving DecidableEq

def IgnorableUnion.counted (change : CNotificationUnion → CNotificationUnion) (u : IgnorableUnion) :
    IgnorableUnion :=
  { u with toCNotificationUnion := change u.toCNotificationUnion }

/-- The logger with the settings and the dialogs that are open. -/
structure NoticeCenter (Date : Type) where
  settings : CSettingsManager
  lstNotifications : List (CNotification Date)
  lstNotificationUnions : List IgnorableUnion
  file : Option QByteArray
  dialogs : List DlgNotification

/-- What happens to it. A box is ticked of the dialog or the row that has the message; a click on a header
puts the rows in another order; the place of the log is one of the settings. -/
inductive NoticeEvent (Date : Type) where
  | notify (opened : Bool) (now : Date) (level : Level) (msg : QString) (actionType : NotificationActionType)
  | dialogTicked (dialog : Nat) (msg : QString) (ignored : Bool)
  | dialogClosed (dialog : Nat)
  | rowTicked (row : Nat) (msg : QString) (ignored : Bool)
  | sorted (unions : List IgnorableUnion)
  | clearOldRecords (opened : Bool) (old : Date)
  | otherFile (file : Option QByteArray)
  | other (machine : Machine) (event : SessionEvent)
  | restart (machine : Machine) (opened : Bool) (fromDate : Date)

/-- The calls that only the boxes make, and the restart, which is an event of its own. -/
def ofNotices : SessionEvent → Bool
  | .call (.ignored _ _) | .restart => true
  | _ => false

section
variable {Date : Type} (lib : QtLibrary) (iso : IsoDate Date) (reader : TextReader)

namespace NoticeCenter

def logger (center : NoticeCenter Date) : Logger Date where
  lstNotifications := center.lstNotifications
  lstNotificationUnions := center.lstNotificationUnions.map IgnorableUnion.toCNotificationUnion
  file := center.file

/-- The slot of the window. -/
def showNotification (level : Level) (msg : QString) (actionType : NotificationActionType)
    (center : NoticeCenter Date) : NoticeCenter Date :=
  let ignored := center.settings.isNotificationIgnored lib msg
  if ignored ∨ level.index < (center.settings.val (.uint .notificationsLevel)).toNat then center
  else { center with dialogs := center.dialogs ++ [⟨level, msg, actionType, ignored⟩] }

def addNotification (n : CNotification Date) (center : NoticeCenter Date) : NoticeCenter Date :=
  { center with
    lstNotifications := center.lstNotifications ++ [n]
    lstNotificationUnions :=
      if center.lstNotificationUnions.any (·.msg = n.msg) then
        updateFirst (·.msg = n.msg) (IgnorableUnion.counted CNotificationUnion.incrementCount)
          center.lstNotificationUnions
      else
        center.lstNotificationUnions ++
          [⟨⟨n.level, n.levelStr, n.msg, 1⟩, center.settings.isNotificationIgnored lib n.msg⟩] }

/-- The slot of the logger. -/
def logNotification (opened : Bool) (now : Date) (level : Level) (msg : QString)
    (center : NoticeCenter Date) : NoticeCenter Date :=
  if !opened then center
  else
    let n := CNotification.new now level msg
    { center.addNotification lib n with file := some (center.file.getD [] ++ toUtf8 (n.toString iso)) }

def notify (opened : Bool) (now : Date) (level : Level) (msg : QString)
    (actionType : NotificationActionType) (center : NoticeCenter Date) : NoticeCenter Date :=
  (center.showNotification lib level msg actionType).logNotification lib iso opened now level msg

variable [LT Date] [DecidableLT Date]

def initRecord (fromDate : Date) (center : NoticeCenter Date) (line : QString) : NoticeCenter Date :=
  match CNotification.fromString iso line with
  | none => center
  | some n => if n.dateTime < fromDate then center else center.addNotification lib n

def initRecords (opened : Bool) (fromDate : Date) (center : NoticeCenter Date) : NoticeCenter Date :=
  match center.file with
  | none => center
  | some lineArr =>
      if !opened || lineArr.isEmpty then center
      else (Splitting.split ['\n'] (reader.qString lineArr)).foldl (initRecord lib iso fromDate) center

def clearOldRecords (opened : Bool) (old : Date) (center : NoticeCenter Date) : NoticeCenter Date :=
  let (array, firstToRemove) :=
    RemoveIf.removeIf (fun n => decide (n.dateTime < old)) center.lstNotifications
  let lst := array.take firstToRemove
  { center with
    lstNotifications := lst
    lstNotificationUnions :=
      (array.drop firstToRemove).foldl
        (fun unions n =>
          updateFirst (·.msg = n.msg) (IgnorableUnion.counted CNotificationUnion.decrementCount) unions)
        center.lstNotificationUnions
    file :=
      match center.file with
      | none => none
      | some bytes => if !opened then some bytes else some (lst.flatMap fun n => toUtf8 (n.toString iso)) }

/-- A start of the program over what is stored. -/
def start (machine : Machine) (opened : Bool) (fromDate : Date) (settings : QSettings)
    (file : Option QByteArray) : NoticeCenter Date :=
  initRecords lib iso reader opened fromDate
    { settings := CSettingsManager.new lib machine settings
      lstNotifications := []
      lstNotificationUnions := []
      file := file
      dialogs := [] }

def step (center : NoticeCenter Date) : NoticeEvent Date → Option (NoticeCenter Date)
  | .notify opened now level msg actionType => some (center.notify lib iso opened now level msg actionType)
  | .dialogTicked dialog msg ignored =>
      match center.dialogs[dialog]? with
      | none => none
      | some dlg =>
          if dlg.msg = msg ∧ dlg.actionType.hidesIgnore = false ∧ dlg.chkIgnore = !ignored then
            some
              { center with
                settings := center.settings.setIgnored msg ignored
                dialogs := center.dialogs.set dialog { dlg with chkIgnore := ignored } }
          else none
  | .dialogClosed dialog => some { center with dialogs := center.dialogs.eraseIdx dialog }
  | .rowTicked row msg ignored =>
      match center.lstNotificationUnions[row]? with
      | none => none
      | some u =>
          if u.msg = msg then
            some
              { center with
                settings := center.settings.setIgnored msg ignored
                lstNotificationUnions :=
                  center.lstNotificationUnions.set row { u with isIgnored := ignored } }
          else none
  | .sorted unions =>
      if unions.Perm center.lstNotificationUnions then some { center with lstNotificationUnions := unions }
      else none
  | .clearOldRecords opened old => some (center.clearOldRecords iso opened old)
  | .otherFile file => some { center with file := file }
  | .other machine event =>
      if ofNotices event then none
      else some { center with settings := center.settings.step lib (machine, event) }
  | .restart machine opened fromDate =>
      some (start lib iso reader machine opened fromDate center.settings.settings center.file)

end NoticeCenter

/-- What was ticked, and for which message. -/
def NoticeEvent.tick : NoticeEvent Date → Option (QString × Bool)
  | .dialogTicked _ msg ignored | .rowTicked _ msg ignored => some (msg, ignored)
  | _ => none

namespace NoticeCenter

/-- The history shows of each message whether it is ignored. -/
def Right (center : NoticeCenter Date) : Prop :=
  ∀ u ∈ center.lstNotificationUnions, u.isIgnored = center.settings.isNotificationIgnored lib u.msg

/-- The box of a dialog is ticked as the row of its message is already, if there is one. -/
def Harmless (center : NoticeCenter Date) : NoticeEvent Date → Prop
  | .dialogTicked _ msg ignored => ∀ u ∈ center.lstNotificationUnions, u.msg = msg → u.isIgnored = ignored
  | _ => True

end NoticeCenter

/-! ## The logger without the boxes -/

theorem map_updateFirst {α β : Type} {f : α → β} {found : α → Bool} {found' : β → Bool} {change : α → α}
    {change' : β → β} (hfound : ∀ x, found' (f x) = found x) (hchange : ∀ x, f (change x) = change' (f x))
    (xs : List α) : (updateFirst found change xs).map f = updateFirst found' change' (xs.map f) := by
  induction xs with
  | nil => rfl
  | cons x xs ih =>
      simp only [updateFirst, List.map_cons, hfound]
      split
      · rw [List.map_cons, hchange]
      · rw [List.map_cons, ih]

theorem map_updateFirst_of_same {α β : Type} {f : α → β} {found : α → Bool} {change : α → α}
    (hchange : ∀ x, f (change x) = f x) (xs : List α) : (updateFirst found change xs).map f = xs.map f := by
  induction xs with
  | nil => rfl
  | cons x xs ih =>
      rw [updateFirst]
      split
      · simp [hchange]
      · simp [ih]

/-- To set a place to what looks the same changes nothing of the looks. -/
theorem map_set_of_same {α β : Type} {f : α → β} {xs : List α} {i : Nat} {x : α} (hi : xs[i]? = some x)
    {y : α} (hsame : f y = f x) : (xs.set i y).map f = xs.map f := by
  have hget : (xs.map f)[i]? = some (f x) := by rw [List.getElem?_map, hi, Option.map_some]
  obtain ⟨hlt, hget⟩ := List.getElem?_eq_some_iff.mp hget
  rw [List.map_set, hsame, ← hget, List.set_getElem_self hlt]

namespace NoticeCenter

variable {lib iso reader} {center center' : NoticeCenter Date}

theorem map_counted {unions : List IgnorableUnion} (msg : QString)
    (change : CNotificationUnion → CNotificationUnion) :
    (updateFirst (·.msg = msg) (IgnorableUnion.counted change) unions).map
        IgnorableUnion.toCNotificationUnion =
      updateFirst (·.msg = msg) change (unions.map IgnorableUnion.toCNotificationUnion) := by
  apply map_updateFirst
  · intro u
    rfl
  · intro u
    rfl

theorem logger_addNotification (n : CNotification Date) (center : NoticeCenter Date) :
    (center.addNotification lib n).logger = Notification.addNotification n center.logger := by
  rw [addNotification, logger, Notification.addNotification, logger]
  dsimp only
  rw [List.any_map]
  by_cases hfound : center.lstNotificationUnions.any (fun u => decide (u.msg = n.msg)) = true
  · simp only [hfound, Function.comp_def, if_true, map_counted]
  · simp only [hfound, Function.comp_def, List.map_append, List.map_singleton, Bool.false_eq_true, if_false]

theorem logger_logNotification (opened : Bool) (now : Date) (level : Level) (msg : QString)
    (center : NoticeCenter Date) :
    (center.logNotification lib iso opened now level msg).logger =
      notificationReceived iso opened now level msg center.logger := by
  rw [logNotification, notificationReceived]
  split
  · rfl
  · dsimp only
    rw [← @logger_addNotification _ lib]
    rfl

/-! ## What the settings say of a message -/

theorem isNotificationIgnored_setIgnored (m : CSettingsManager) (msg : QString) (ignored : Bool)
    (msg' : QString) :
    (m.setIgnored msg ignored).isNotificationIgnored lib msg' =
      if msg' = msg then ignored else m.isNotificationIgnored lib msg' := by
  have hval : (m.setIgnored msg ignored).val .dctNotificationIgnore =
      (m.val .dctNotificationIgnore).insert msg (.bool ignored) :=
    CSettingsManager.val_setFieldDef_self .dctNotificationIgnore _ _ _ m
  rw [CSettingsManager.isNotificationIgnored, hval]
  by_cases hmsg : msg' = msg
  · rw [if_pos hmsg, hmsg, QVariantMap.find_insert_self]
    exact lib.conversions.toBool_bool ignored
  · rw [if_neg hmsg, QVariantMap.find_insert_of_ne _ hmsg]
    rfl

/-- Nothing else that is done to the settings touches the table of the ignored messages. -/
theorem ignored_notMem_of_other {event : SessionEvent} (hother : ofNotices event = false) :
    event ≠ .restart ∧ .dctNotificationIgnore ∉ event.fields ∧ smDctNotificationsIgnore ∉ event.keys := by
  have hstems : ∀ stem ∈ SettingCall.idStems, ¬ stem <+: smDctNotificationsIgnore := by decide
  cases event with
  | call call =>
      refine ⟨SessionEvent.noConfusion, ?_, ?_⟩
      · cases call with
        | ignored msg value => exact Bool.noConfusion hother
        | _ => simp [SessionEvent.fields, SettingCall.fields]
      · cases call with
        | ignored msg value => exact Bool.noConfusion hother
        | byId setting id value => exact SettingCall.notMem_keys_byId hstems setting id value
        | rhPortById id value => exact SettingCall.notMem_keys_rhPortById hstems id value
        | text setting _ | link setting _ | flag setting _ | number setting _ | freq setting _ =>
            rw [SessionEvent.keys, SettingCall.keys]
            cases setting <;> decide
        | port field _ =>
            rw [SessionEvent.keys, SettingCall.keys]
            cases field <;> decide
        | _ =>
            rw [SessionEvent.keys, SettingCall.keys]
            decide
  | defaultChromeProfile | defaultFirefoxProfile => exact ⟨SessionEvent.noConfusion, by decide, by decide⟩
  | restart => exact Bool.noConfusion hother

/-- The table is loaded as it is stored, on any machine. -/
theorem val_new_ignored_congr {settings settings' : QSettings} {machine later : Machine}
    (h : settings' smDctNotificationsIgnore = settings smDctNotificationsIgnore) :
    (CSettingsManager.new lib later settings').val .dctNotificationIgnore =
      (CSettingsManager.new lib machine settings).val .dctNotificationIgnore := by
  have hmem : ignoreVal lib.conversions ∈ dctSettingsVals lib.conversions :=
    List.mem_append_right _ (List.mem_cons_of_mem _ (List.mem_cons_of_mem _ List.mem_cons_self))
  rw [CSettingsManager.val_new (by decide), CSettingsManager.val_new (by decide)]
  refine (Tables.load_of_mem (CSettingsManager.nodup_dctSettingsVals _) hmem).trans ?_
  refine Eq.trans ?_ (Tables.load_of_mem (CSettingsManager.nodup_dctSettingsVals _) hmem).symm
  change Option.elim (settings' smDctNotificationsIgnore) _ _ =
    Option.elim (settings smDctNotificationsIgnore) _ _
  rw [h]
  rfl

/-- The settings say of each message what was ticked last, and a restart finds the same. -/
structure Follows (lib : QtLibrary) (initial : CSettingsManager) (past : List (NoticeEvent Date))
    (center : NoticeCenter Date) : Prop where
  ignored : ∀ msg, center.settings.isNotificationIgnored lib msg =
    (Sweeping.lastReport (past.filterMap NoticeEvent.tick) msg).getD (initial.isNotificationIgnored lib msg)
  loaded : ∀ later, (CSettingsManager.new lib later center.settings.settings).val .dctNotificationIgnore =
    center.settings.val .dctNotificationIgnore

namespace Follows

variable {initial : CSettingsManager} {past : List (NoticeEvent Date)} {event : NoticeEvent Date}

/-- Nothing is ticked, and the table of the ignored messages is the same. -/
theorem of_same (h : Follows lib initial past center) (htick : event.tick = none)
    (hval : center'.settings.val .dctNotificationIgnore = center.settings.val .dctNotificationIgnore)
    (hsaved : center'.settings.settings smDctNotificationsIgnore =
      center.settings.settings smDctNotificationsIgnore) :
    Follows lib initial (past ++ [event]) center' := by
  refine ⟨?_, ?_⟩
  · intro msg
    have hnone : [event].filterMap NoticeEvent.tick = [] := by simp [htick]
    rw [List.filterMap_append, hnone, List.append_nil, ← h.ignored msg]
    simp only [CSettingsManager.isNotificationIgnored, hval]
  · intro later
    rw [hval, ← h.loaded later]
    exact val_new_ignored_congr hsaved

/-- What is ticked is kept and saved. -/
theorem of_tick (h : Follows lib initial past center) {msg : QString} {ignored : Bool}
    (htick : event.tick = some (msg, ignored))
    (hsettings : center'.settings = center.settings.setIgnored msg ignored) :
    Follows lib initial (past ++ [event]) center' := by
  refine ⟨?_, ?_⟩
  · intro msg'
    have hone : [event].filterMap NoticeEvent.tick = [(msg, ignored)] := by simp [htick]
    rw [hsettings, isNotificationIgnored_setIgnored, List.filterMap_append, hone, Sweeping.lastReport_concat]
    split
    · rfl
    · exact h.ignored msg'
  · intro later
    have hval : (center.settings.setIgnored msg ignored).val .dctNotificationIgnore =
        (center.settings.val .dctNotificationIgnore).insert msg (.bool ignored) :=
      CSettingsManager.val_setFieldDef_self .dctNotificationIgnore _ _ _ center.settings
    rw [hsettings, hval]
    exact CSettingsManager.val_new_dctNotificationIgnore
      (CSettingsManager.settings_setFieldDef_self .dctNotificationIgnore _ _ _ center.settings)

end Follows

/-! ## The boxes of the history -/

/-- The messages of the rows, each with its box. -/
def marks (center : NoticeCenter Date) : List (QString × Bool) :=
  center.lstNotificationUnions.map fun u => (u.msg, u.isIgnored)

/-- No message has two rows. -/
def Distinct (center : NoticeCenter Date) : Prop := (center.marks.map Prod.fst).Nodup

theorem right_iff (center : NoticeCenter Date) :
    center.Right lib ↔
      ∀ mark ∈ center.marks, mark.2 = center.settings.isNotificationIgnored lib mark.1 := by
  rw [marks, List.forall_mem_map]
  rfl

theorem Right.of_marks (h : center.Right lib) (hmarks : center'.marks = center.marks)
    (hval : center'.settings.val .dctNotificationIgnore = center.settings.val .dctNotificationIgnore) :
    center'.Right lib := by
  rw [right_iff, hmarks]
  intro mark hmark
  rw [(right_iff center).mp h mark hmark]
  simp only [CSettingsManager.isNotificationIgnored, hval]

theorem marks_counted (msg : QString) (change : CNotificationUnion → CNotificationUnion)
    (hchange : ∀ u, (change u).msg = u.msg) (unions : List IgnorableUnion) :
    (updateFirst (·.msg = msg) (IgnorableUnion.counted change) unions).map (fun u => (u.msg, u.isIgnored)) =
      unions.map fun u => (u.msg, u.isIgnored) := by
  apply map_updateFirst_of_same
  intro u
  simp [IgnorableUnion.counted, hchange]

/-- A new message gets a row, which is made as the settings say. -/
theorem marks_addNotification (n : CNotification Date) (center : NoticeCenter Date) :
    (center.addNotification lib n).marks =
      if n.msg ∈ center.marks.map Prod.fst then center.marks
      else center.marks ++ [(n.msg, center.settings.isNotificationIgnored lib n.msg)] := by
  have hany : center.lstNotificationUnions.any (fun u => decide (u.msg = n.msg)) = true ↔
      n.msg ∈ center.marks.map Prod.fst := by
    simp [marks]
  rw [marks, NoticeCenter.addNotification]
  dsimp only
  by_cases hfound : n.msg ∈ center.marks.map Prod.fst
  · rw [if_pos hfound, if_pos (hany.mpr hfound)]
    exact marks_counted n.msg CNotificationUnion.incrementCount (fun _ => rfl) _
  · rw [if_neg hfound, if_neg (hany.not.mpr hfound), List.map_append]
    rfl

theorem Right.addNotification (h : center.Right lib) (n : CNotification Date) :
    (center.addNotification lib n).Right lib := by
  rw [right_iff, marks_addNotification]
  split
  · exact (right_iff center).mp h
  · rw [List.forall_mem_append, List.forall_mem_singleton]
    exact ⟨(right_iff center).mp h, rfl⟩

theorem Distinct.addNotification (h : center.Distinct) (n : CNotification Date) :
    (center.addNotification lib n).Distinct := by
  rw [Distinct, marks_addNotification]
  split
  · exact h
  · rename_i hnew
    rw [List.map_append, List.map_singleton, ← List.concat_eq_append]
    exact List.Nodup.concat hnew h

theorem dialogs_showNotification (level : Level) (msg : QString) (actionType : NotificationActionType)
    (center : NoticeCenter Date) :
    (center.showNotification lib level msg actionType).dialogs =
      if center.settings.isNotificationIgnored lib msg = false ∧
          (center.settings.val (.uint .notificationsLevel)).toNat ≤ level.index then
        center.dialogs ++ [⟨level, msg, actionType, false⟩]
      else center.dialogs := by
  rw [showNotification]
  cases hignored : center.settings.isNotificationIgnored lib msg with
  | true => simp
  | false =>
      by_cases hlevel : (center.settings.val (.uint .notificationsLevel)).toNat ≤ level.index
      · simp [hlevel, Nat.not_lt.mpr hlevel]
      · simp [hlevel, Nat.not_le.mp hlevel]

theorem exists_dialogs (level : Level) (msg : QString) (actionType : NotificationActionType)
    (center : NoticeCenter Date) :
    ∃ dialogs, center.showNotification lib level msg actionType = { center with dialogs := dialogs } := by
  rw [showNotification]
  split
  · exact ⟨center.dialogs, rfl⟩
  · exact ⟨_, rfl⟩

/-- What is logged is added after the window has shown it. -/
theorem notify_cases (opened : Bool) (now : Date) (level : Level) (msg : QString)
    (actionType : NotificationActionType) (center : NoticeCenter Date) :
    ∃ dialogs file, (center.notify lib iso opened now level msg actionType =
        { center with dialogs := dialogs, file := file }) ∨
      center.notify lib iso opened now level msg actionType =
        { center.addNotification lib (CNotification.new now level msg) with
          dialogs := dialogs
          file := file } := by
  obtain ⟨dialogs, hshown⟩ := @exists_dialogs _ lib level msg actionType center
  rw [notify, hshown, logNotification]
  split
  · exact ⟨dialogs, center.file, Or.inl rfl⟩
  · exact ⟨dialogs, _, Or.inr rfl⟩

theorem settings_notify (opened : Bool) (now : Date) (level : Level) (msg : QString)
    (actionType : NotificationActionType) (center : NoticeCenter Date) :
    (center.notify lib iso opened now level msg actionType).settings = center.settings := by
  obtain ⟨dialogs, file, hnotify | hnotify⟩ := @notify_cases _ lib iso opened now level msg actionType center
  · rw [hnotify]
  · rw [hnotify]
    rfl

theorem dialogs_notify (opened : Bool) (now : Date) (level : Level) (msg : QString)
    (actionType : NotificationActionType) (center : NoticeCenter Date) :
    (center.notify lib iso opened now level msg actionType).dialogs =
      (center.showNotification lib level msg actionType).dialogs := by
  rw [notify, logNotification]
  split <;> rfl

theorem Right.notify (h : center.Right lib) (opened : Bool) (now : Date) (level : Level) (msg : QString)
    (actionType : NotificationActionType) :
    (center.notify lib iso opened now level msg actionType).Right lib := by
  obtain ⟨dialogs, file, hnotify | hnotify⟩ := @notify_cases _ lib iso opened now level msg actionType center
  · rw [hnotify]
    exact h
  · rw [hnotify]
    exact h.addNotification (CNotification.new now level msg)

theorem Distinct.notify (h : center.Distinct) (opened : Bool) (now : Date) (level : Level) (msg : QString)
    (actionType : NotificationActionType) :
    (center.notify lib iso opened now level msg actionType).Distinct := by
  obtain ⟨dialogs, file, hnotify | hnotify⟩ := @notify_cases _ lib iso opened now level msg actionType center
  · rw [hnotify]
    exact h
  · rw [hnotify]
    exact @Distinct.addNotification _ lib center h (CNotification.new now level msg)

/-- The box of a dialog leaves the rows as they are. -/
theorem right_dialogTicked_iff (h : center.Right lib) {msg : QString} {ignored : Bool}
    (hmarks : center'.marks = center.marks)
    (hsettings : center'.settings = center.settings.setIgnored msg ignored) :
    center'.Right lib ↔ ∀ u ∈ center.lstNotificationUnions, u.msg = msg → u.isIgnored = ignored := by
  rw [right_iff, hmarks, hsettings, marks, List.forall_mem_map]
  refine forall₂_congr ?_
  intro u hu
  dsimp only
  rw [isNotificationIgnored_setIgnored]
  by_cases hmsg : u.msg = msg
  · simp [hmsg]
  · simp [hmsg, h u hu]

theorem map_msg_marks (center : NoticeCenter Date) :
    center.marks.map Prod.fst = center.lstNotificationUnions.map fun u => u.msg := by
  rw [marks, List.map_map]
  rfl

/-- The box of a row is the only one of its message. -/
theorem Right.rowTicked (h : center.Right lib) (hdistinct : center.Distinct) {row : Nat} {u : IgnorableUnion}
    (hrow : center.lstNotificationUnions[row]? = some u) (ignored : Bool)
    (hsettings : center'.settings = center.settings.setIgnored u.msg ignored)
    (hunions : center'.lstNotificationUnions =
      center.lstNotificationUnions.set row { u with isIgnored := ignored }) : center'.Right lib := by
  rw [Distinct, map_msg_marks] at hdistinct
  intro u' hu'
  rw [hunions] at hu'
  rw [hsettings, isNotificationIgnored_setIgnored]
  obtain ⟨i, hi⟩ := List.mem_iff_getElem?.mp hu'
  rw [List.getElem?_set] at hi
  split at hi
  · rename_i hsame
    rw [if_pos (List.getElem?_eq_some_iff.mp hrow).1] at hi
    rw [← Option.some.inj hi]
    simp
  · rename_i hother
    have hne : u'.msg ≠ u.msg := by
      intro hmsg
      apply hother
      have hlt : row < (center.lstNotificationUnions.map fun u => u.msg).length := by
        rw [List.length_map]
        exact (List.getElem?_eq_some_iff.mp hrow).1
      apply (List.getElem?_inj hlt hdistinct).mp
      rw [List.getElem?_map, List.getElem?_map, hrow, hi, Option.map_some, Option.map_some, hmsg]
    rw [if_neg hne]
    exact h u' (List.mem_of_getElem? hi)

theorem Distinct.rowTicked (h : center.Distinct) {row : Nat} {u : IgnorableUnion}
    (hrow : center.lstNotificationUnions[row]? = some u) (ignored : Bool)
    (hunions : center'.lstNotificationUnions =
      center.lstNotificationUnions.set row { u with isIgnored := ignored }) : center'.Distinct := by
  rw [Distinct, map_msg_marks] at h ⊢
  rw [hunions]
  have hsame : (center.lstNotificationUnions.set row { u with isIgnored := ignored }).map (fun u => u.msg) =
      center.lstNotificationUnions.map fun u => u.msg :=
    map_set_of_same hrow rfl
  rw [hsame]
  exact h

/-! ## Reading and clearing the log -/

variable [LT Date] [DecidableLT Date]

theorem logger_initRecords (opened : Bool) (fromDate : Date) (center : NoticeCenter Date) :
    (center.initRecords lib iso reader opened fromDate).logger =
      Notification.initRecords iso reader opened fromDate center.logger := by
  have hrecord (center : NoticeCenter Date) (line : QString) :
      (initRecord lib iso fromDate center line).logger =
        Notification.initRecord iso fromDate center.logger line := by
    rw [initRecord, Notification.initRecord]
    cases CNotification.fromString iso line with
    | none => rfl
    | some n =>
        dsimp only
        split
        · rfl
        · exact logger_addNotification n center
  have hrecords (lines : List QString) (center : NoticeCenter Date) :
      (lines.foldl (initRecord lib iso fromDate) center).logger =
        lines.foldl (Notification.initRecord iso fromDate) center.logger := by
    induction lines generalizing center with
    | nil => rfl
    | cons line lines ih => rw [List.foldl_cons, ih, hrecord, List.foldl_cons]
  have hfile : center.logger.file = center.file := rfl
  rw [initRecords, Notification.initRecords, hfile]
  cases center.file with
  | none => rfl
  | some lineArr =>
      dsimp only
      split
      · rfl
      · exact hrecords _ center

theorem logger_clearOldRecords (opened : Bool) (old : Date) (center : NoticeCenter Date) :
    (center.clearOldRecords iso opened old).logger =
      Notification.clearOldRecords iso opened old center.logger := by
  have hunions (removed : List (CNotification Date)) (unions : List IgnorableUnion) :
      (removed.foldl (fun unions n => updateFirst (·.msg = n.msg)
          (IgnorableUnion.counted CNotificationUnion.decrementCount) unions) unions).map
        IgnorableUnion.toCNotificationUnion =
      decrementUnions removed (unions.map IgnorableUnion.toCNotificationUnion) := by
    induction removed generalizing unions with
    | nil => rfl
    | cons n removed ih =>
        rw [List.foldl_cons, ih, map_counted, decrementUnions, decrementUnions, List.foldl_cons]
  rw [clearOldRecords, Notification.clearOldRecords, logger]
  simp only [hunions]
  rfl

theorem marks_clearOldRecords (opened : Bool) (old : Date) (center : NoticeCenter Date) :
    (center.clearOldRecords iso opened old).marks = center.marks := by
  have hmarks (removed : List (CNotification Date)) (unions : List IgnorableUnion) :
      (removed.foldl (fun unions n => updateFirst (·.msg = n.msg)
          (IgnorableUnion.counted CNotificationUnion.decrementCount) unions) unions).map
        (fun u => (u.msg, u.isIgnored)) = unions.map fun u => (u.msg, u.isIgnored) := by
    induction removed generalizing unions with
    | nil => rfl
    | cons n removed ih =>
        rw [List.foldl_cons, ih]
        exact marks_counted n.msg CNotificationUnion.decrementCount (fun _ => rfl) unions
  rw [marks, clearOldRecords]
  exact hmarks _ _

/-- What adding keeps, reading the log keeps. -/
theorem initRecords_keeps {P : NoticeCenter Date → Prop}
    (hadd : ∀ n center, P center → P (center.addNotification lib n)) (h : P center) (opened : Bool)
    (fromDate : Date) : P (center.initRecords lib iso reader opened fromDate) := by
  have hrecord (center : NoticeCenter Date) (line : QString) (h : P center) :
      P (initRecord lib iso fromDate center line) := by
    rw [initRecord]
    cases CNotification.fromString iso line with
    | none => exact h
    | some n =>
        dsimp only
        split
        · exact h
        · exact hadd n center h
  rw [initRecords]
  cases center.file with
  | none => exact h
  | some lineArr =>
      dsimp only
      split
      · exact h
      · exact Runs.invariant h hrecord _

section
variable (machine : Machine) (opened : Bool) (fromDate : Date) (settings : QSettings)
  (file : Option QByteArray)

theorem right_start : (start lib iso reader machine opened fromDate settings file).Right lib := by
  apply initRecords_keeps
  · exact fun n center h => h.addNotification n
  · exact fun u hu => absurd hu List.not_mem_nil

theorem distinct_start : (start lib iso reader machine opened fromDate settings file).Distinct := by
  apply initRecords_keeps
  · exact fun n center h => @Distinct.addNotification _ lib center h n
  · exact List.nodup_nil

theorem settings_start :
    (start lib iso reader machine opened fromDate settings file).settings =
      CSettingsManager.new lib machine settings := by
  apply @initRecords_keeps _ lib iso reader _ _ _ fun center : NoticeCenter Date =>
    center.settings = CSettingsManager.new lib machine settings
  · exact fun n center h => h
  · rfl

end

/-! ## Runs -/

theorem settings_other_ignored {event : SessionEvent} (hother : ofNotices event = false) (machine : Machine)
    (m : CSettingsManager) :
    (m.step lib (machine, event)).val .dctNotificationIgnore = m.val .dctNotificationIgnore ∧
      (m.step lib (machine, event)).settings smDctNotificationsIgnore =
        m.settings smDctNotificationsIgnore := by
  obtain ⟨hrestart, hfield, hkey⟩ := ignored_notMem_of_other hother
  exact ⟨CSettingsManager.val_step_of_notMem hrestart hfield, CSettingsManager.settings_step_of_notMem hkey⟩

section
variable {dialog row : Nat} {msg : QString} {ignored : Bool}

theorem step_dialogTicked
    (hstep : center.step lib iso reader (.dialogTicked dialog msg ignored) = some center') :
    ∃ dialogs,
      center' = { center with settings := center.settings.setIgnored msg ignored, dialogs := dialogs } := by
  rw [step] at hstep
  split at hstep
  · exact absurd hstep.symm (Option.some_ne_none center')
  · split at hstep
    · exact ⟨_, (Option.some.inj hstep).symm⟩
    · exact absurd hstep.symm (Option.some_ne_none center')

theorem step_rowTicked (hstep : center.step lib iso reader (.rowTicked row msg ignored) = some center') :
    ∃ u, center.lstNotificationUnions[row]? = some u ∧ u.msg = msg ∧
      center' =
        { center with
          settings := center.settings.setIgnored msg ignored
          lstNotificationUnions :=
            center.lstNotificationUnions.set row { u with isIgnored := ignored } } := by
  rw [step] at hstep
  split at hstep
  · exact absurd hstep.symm (Option.some_ne_none center')
  · rename_i u hrow
    split at hstep
    · rename_i hmsg
      exact ⟨u, hrow, hmsg, (Option.some.inj hstep).symm⟩
    · exact absurd hstep.symm (Option.some_ne_none center')

theorem step_sorted {unions : List IgnorableUnion}
    (hstep : center.step lib iso reader (.sorted unions) = some center') :
    unions.Perm center.lstNotificationUnions ∧ center' = { center with lstNotificationUnions := unions } := by
  rw [step] at hstep
  split at hstep
  · rename_i hperm
    exact ⟨hperm, (Option.some.inj hstep).symm⟩
  · exact absurd hstep.symm (Option.some_ne_none center')

theorem step_other {machine : Machine} {event : SessionEvent}
    (hstep : center.step lib iso reader (.other machine event) = some center') :
    ofNotices event = false ∧
      center' = { center with settings := center.settings.step lib (machine, event) } := by
  rw [step] at hstep
  split at hstep
  · exact absurd hstep.symm (Option.some_ne_none center')
  · rename_i hother
    exact ⟨Bool.eq_false_iff.mpr hother, (Option.some.inj hstep).symm⟩

end

/-- What the event is for the logger. -/
def LoggerTurn (iso : IsoDate Date) (reader : TextReader) (lg lg' : Logger Date) : NoticeEvent Date → Prop
  | .notify opened now level msg _ => lg' = notificationReceived iso opened now level msg lg
  | .clearOldRecords opened old => lg' = Notification.clearOldRecords iso opened old lg
  | .restart _ opened fromDate => lg' = Notification.initRecords iso reader opened fromDate (.onFile lg.file)
  | .sorted _ =>
      ∃ unions, unions.Perm lg.lstNotificationUnions ∧ lg' = { lg with lstNotificationUnions := unions }
  | .otherFile file => lg' = { lg with file := file }
  | .dialogTicked _ _ _ | .rowTicked _ _ _ | .dialogClosed _ | .other _ _ => lg' = lg

/-- The boxes apart, the logger does what it does without them. -/
theorem loggerTurn_step {event : NoticeEvent Date} (hstep : center.step lib iso reader event = some center') :
    LoggerTurn iso reader center.logger center'.logger event := by
  cases event with
  | notify opened now level msg actionType =>
      obtain ⟨dialogs, hshown⟩ := @exists_dialogs _ lib level msg actionType center
      rw [← Option.some.inj hstep, notify, LoggerTurn, logger_logNotification, hshown]
      rfl
  | clearOldRecords opened old =>
      rw [← Option.some.inj hstep]
      exact logger_clearOldRecords opened old center
  | restart machine opened fromDate =>
      rw [← Option.some.inj hstep]
      exact logger_initRecords opened fromDate _
  | sorted unions =>
      obtain ⟨hperm, rfl⟩ := step_sorted hstep
      exact ⟨_, hperm.map IgnorableUnion.toCNotificationUnion, rfl⟩
  | rowTicked row msg ignored =>
      obtain ⟨u, hrow, -, rfl⟩ := step_rowTicked hstep
      have hsame : (center.lstNotificationUnions.set row { u with isIgnored := ignored }).map
          IgnorableUnion.toCNotificationUnion =
          center.lstNotificationUnions.map IgnorableUnion.toCNotificationUnion :=
        map_set_of_same hrow rfl
      simp only [LoggerTurn, logger, hsame]
  | dialogTicked dialog msg ignored =>
      obtain ⟨dialogs, rfl⟩ := step_dialogTicked hstep
      rfl
  | other machine event =>
      obtain ⟨-, rfl⟩ := step_other hstep
      rfl
  | dialogClosed _ | otherFile _ =>
      rw [← Option.some.inj hstep]
      rfl

theorem Distinct.step (h : center.Distinct) {event : NoticeEvent Date}
    (hstep : center.step lib iso reader event = some center') : center'.Distinct := by
  cases event with
  | notify opened now level msg actionType =>
      rw [← Option.some.inj hstep]
      exact @Distinct.notify _ lib iso center h opened now level msg actionType
  | dialogTicked dialog msg ignored =>
      obtain ⟨dialogs, rfl⟩ := step_dialogTicked hstep
      exact h
  | rowTicked row msg ignored =>
      obtain ⟨u, hrow, -, rfl⟩ := step_rowTicked hstep
      exact h.rowTicked hrow ignored rfl
  | sorted unions =>
      obtain ⟨hperm, rfl⟩ := step_sorted hstep
      rw [Distinct, map_msg_marks] at h ⊢
      exact (hperm.map fun u : IgnorableUnion => u.msg).nodup_iff.mpr h
  | clearOldRecords opened old =>
      rw [← Option.some.inj hstep, Distinct, marks_clearOldRecords]
      exact h
  | dialogClosed _ | otherFile _ =>
      rw [← Option.some.inj hstep]
      exact h
  | other machine event =>
      obtain ⟨-, rfl⟩ := step_other hstep
      exact h
  | restart machine opened fromDate =>
      rw [← Option.some.inj hstep]
      exact distinct_start machine opened fromDate _ _

/-- Only the box of a dialog can make the history wrong. -/
theorem right_step_iff (hdistinct : center.Distinct) (h : center.Right lib) {event : NoticeEvent Date}
    (hstep : center.step lib iso reader event = some center') :
    center'.Right lib ↔ center.Harmless event := by
  cases event with
  | dialogTicked dialog msg ignored =>
      obtain ⟨dialogs, rfl⟩ := step_dialogTicked hstep
      exact right_dialogTicked_iff h rfl rfl
  | notify opened now level msg actionType =>
      rw [← Option.some.inj hstep]
      exact iff_of_true (h.notify opened now level msg actionType) trivial
  | rowTicked row msg ignored =>
      obtain ⟨u, hrow, rfl, rfl⟩ := step_rowTicked hstep
      exact iff_of_true (h.rowTicked hdistinct hrow ignored rfl rfl) trivial
  | sorted unions =>
      obtain ⟨hperm, rfl⟩ := step_sorted hstep
      exact iff_of_true (fun u hu => h u (hperm.mem_iff.mp hu)) trivial
  | clearOldRecords opened old =>
      rw [← Option.some.inj hstep]
      exact iff_of_true (h.of_marks (marks_clearOldRecords opened old center) rfl) trivial
  | dialogClosed _ | otherFile _ =>
      rw [← Option.some.inj hstep]
      exact iff_of_true h trivial
  | other machine event =>
      obtain ⟨hother, rfl⟩ := step_other hstep
      exact iff_of_true (h.of_marks rfl (settings_other_ignored hother machine center.settings).1) trivial
  | restart machine opened fromDate =>
      rw [← Option.some.inj hstep]
      exact iff_of_true (right_start machine opened fromDate _ _) trivial

theorem Follows.step {initial : CSettingsManager} {past : List (NoticeEvent Date)}
    (h : Follows lib initial past center) {event : NoticeEvent Date}
    (hstep : center.step lib iso reader event = some center') :
    Follows lib initial (past ++ [event]) center' := by
  cases event with
  | dialogTicked dialog msg ignored =>
      obtain ⟨dialogs, rfl⟩ := step_dialogTicked hstep
      exact h.of_tick rfl rfl
  | rowTicked row msg ignored =>
      obtain ⟨u, -, -, rfl⟩ := step_rowTicked hstep
      exact h.of_tick rfl rfl
  | notify opened now level msg actionType =>
      have hsettings : center'.settings = center.settings := by
        rw [← Option.some.inj hstep]
        exact settings_notify opened now level msg actionType center
      exact h.of_same rfl (by rw [hsettings]) (by rw [hsettings])
  | sorted unions =>
      obtain ⟨-, rfl⟩ := step_sorted hstep
      exact h.of_same rfl rfl rfl
  | dialogClosed _ | otherFile _ | clearOldRecords _ _ =>
      rw [← Option.some.inj hstep]
      exact h.of_same rfl rfl rfl
  | other machine event =>
      obtain ⟨hother, rfl⟩ := step_other hstep
      obtain ⟨hval, hsaved⟩ := @settings_other_ignored lib event hother machine center.settings
      exact h.of_same rfl hval hsaved
  | restart machine opened fromDate =>
      have hsettings : center'.settings = CSettingsManager.new lib machine center.settings.settings := by
        rw [← Option.some.inj hstep]
        exact settings_start machine opened fromDate _ _
      refine h.of_same rfl ?_ ?_
      · rw [hsettings]
        exact h.loaded machine
      · rw [hsettings]
        exact CSettingsManager.settings_new (by decide)

section
variable (lib iso reader) (machine : Machine) (opened : Bool) (fromDate : Date) (settings : QSettings)
  (file : Option QByteArray) (events : List (NoticeEvent Date))

theorem follows_run :
    Runs.AlwaysSince (step lib iso reader) (Follows lib (CSettingsManager.new lib machine settings))
      (start lib iso reader machine opened fromDate settings file) events := by
  refine Runs.alwaysSince_of_concat ⟨?_, ?_⟩ (fun _ _ _ _ h hstep => h.step hstep) events
  · intro msg
    rw [settings_start]
    rfl
  · intro later
    rw [settings_start]
    exact val_new_ignored_congr (CSettingsManager.settings_new (by decide))

/-- All along every run, over restarts as well, a dialog is opened for a notification exactly when its
level is high enough and its message is not ignored: what counts is the box that was ticked last for the
message, be it of a dialog or of the history. The box of the new dialog is not ticked. -/
theorem dialogs_notify_run :
    Runs.AlwaysSince (step lib iso reader)
      (fun past center => ∀ opened now level msg actionType,
        (center.notify lib iso opened now level msg actionType).dialogs =
          if (Sweeping.lastReport (past.filterMap NoticeEvent.tick) msg).getD
                ((CSettingsManager.new lib machine settings).isNotificationIgnored lib msg) = false ∧
              (center.settings.val (.uint .notificationsLevel)).toNat ≤ level.index then
            center.dialogs ++ [⟨level, msg, actionType, false⟩]
          else center.dialogs)
      (start lib iso reader machine opened fromDate settings file) events := by
  refine (follows_run lib iso reader machine opened fromDate settings file events).imp ?_
  intro past center h opened now level msg actionType
  rw [← h.ignored msg, dialogs_notify, dialogs_showNotification]

/-- The history shows right which messages are ignored, all along a run, if and only if each box of a
dialog is ticked as the row of its message is already. -/
theorem historyRight_iff_harmless :
    Runs.AlwaysPartial (step lib iso reader) (Right lib)
        (start lib iso reader machine opened fromDate settings file) events ↔
      Runs.EachStepPartial (step lib iso reader) Harmless
        (start lib iso reader machine opened fromDate settings file) events :=
  Runs.alwaysPartial_iff_eachStepPartial (distinct_start machine opened fromDate settings file)
    (fun _ _ _ hdistinct hstep => hdistinct.step hstep) (right_start machine opened fromDate settings file)
    (fun _ _ _ hdistinct h hstep => right_step_iff hdistinct h hstep) events

end

end NoticeCenter

end

end SubutaiTray.Notification
