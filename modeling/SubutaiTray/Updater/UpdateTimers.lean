import SubutaiTray.Library.Sweeping
import SubutaiTray.Settings.SettingCalls
import SubutaiTray.Updater.Operations

/-!
The checks for updates (`CHubComponentsUpdater`) and the settings they follow.

P2P and the tray have a timer each. Its frequency and whether an update begins by itself are settings;
the setter of a setting tells the updater. A check stops the timer and starts it again at its end, and an
update that the check begins may let the user change the settings meanwhile.
-/
namespace SubutaiTray.Updater
open SubutaiTray.Settings

/-- The components of `m_dct_components` whose timer is ever started. -/
inductive TimedComponent where
  | p2p
  | tray
  deriving DecidableEq

namespace TimedComponent

def freq : TimedComponent → FreqSetting
  | .p2p => .p2pUpdateFreq
  | .tray => .trayUpdateFreq

def autoupdate : TimedComponent → FlagSetting
  | .p2p => .p2pAutoupdate
  | .tray => .trayAutoupdate

end TimedComponent

structure QTimer where
  interval : Int
  running : Bool

namespace QTimer

/-- Qt counts a timer with a negative interval as running, but there is no such timer. -/
def Fires (timer : QTimer) : Prop := timer.running = true ∧ 0 ≤ timer.interval

instance (timer : QTimer) : Decidable timer.Fires := inferInstanceAs (Decidable (_ ∧ _))

def start (timer : QTimer) : QTimer := { timer with running := true }

def stop (timer : QTimer) : QTimer := { timer with running := false }

end QTimer

structure CUpdaterComponentItem where
  timer : QTimer
  autoupdate : Bool

def CUpdaterComponentItem.new : CUpdaterComponentItem where
  timer := { interval := 0, running := false }
  autoupdate := false

def ufNever : UInt32 := 10

/-- In seconds; `UF_NEVER` has none. -/
def timeSec : List UInt32 :=
  [60, 60 * 5, 60 * 10, 60 * 30, 3600, 3600 * 3, 3600 * 5, 86400, 86400 * 7, 86400 * 28, 0]

def updateFreqToSec (fr : UInt32) : UInt32 := timeSec.getD (fr % ufLast).toNat 0

/-- What `set_timer_interval` gets: the product is an `uint32_t`, the parameter an `int`. -/
def timerInterval (fr : UInt32) : Int := (updateFreqToSec fr * 1000).toInt32.toInt

/-- What the user is told by the slot of the timer. -/
inductive UpdateNotice where
  | started (component : TimedComponent)
  | newVersion (component : TimedComponent)
  deriving DecidableEq

/-- `calls` are the updates that a slot of a timer is in, the innermost first. -/
structure CHubComponentsUpdater where
  settings : CSettingsManager
  items : TimedComponent → CUpdaterComponentItem
  notices : List UpdateNotice
  calls : List TimedComponent

def unknownVersion : QString := "unknown".toList

/-- `update_available_internal` of both components. -/
def updateAvailable (nextVersion current : QString) : Bool :=
  nextVersion ≠ unknownVersion && nextVersion ≠ current

namespace CHubComponentsUpdater

variable (updater : CHubComponentsUpdater) (component : TimedComponent)

def freq : UInt32 := updater.settings.val (.uint component.freq.row.1)

def modify (f : CUpdaterComponentItem → CUpdaterComponentItem) : CHubComponentsUpdater :=
  { updater with items := Function.update updater.items component (f (updater.items component)) }

def timerStart : CHubComponentsUpdater :=
  updater.modify component fun item => { item with timer := item.timer.start }

def timerStop : CHubComponentsUpdater :=
  updater.modify component fun item => { item with timer := item.timer.stop }

def setTimerInterval (msec : Int) : CHubComponentsUpdater :=
  updater.modify component fun item => { item with timer := { item.timer with interval := msec } }

/-- `set_p2p_update_freq` and `set_tray_update_freq` -/
def setUpdateFreq : CHubComponentsUpdater :=
  let freq := updater.freq component
  let updater := updater.timerStop component
  if freq = ufNever then updater
  else (updater.setTimerInterval component (timerInterval freq)).timerStart component

/-- `set_p2p_autoupdate` and `set_tray_autoupdate` -/
def setComponentAutoupdate : CHubComponentsUpdater :=
  updater.modify component fun item =>
    { item with autoupdate := updater.settings.val (.bool component.autoupdate.row.1) }

/-- The constructor. It asks for the frequencies only. -/
def new (settings : CSettingsManager) : CHubComponentsUpdater :=
  let updater : CHubComponentsUpdater :=
    { settings, items := fun _ => CUpdaterComponentItem.new, notices := [], calls := [] }
  (updater.setUpdateFreq .p2p).setUpdateFreq .tray

/-- What the setter of a setting tells the updater. -/
def settingSaved : SettingCall → CHubComponentsUpdater
  | .freq .p2pUpdateFreq _ => updater.setUpdateFreq .p2p
  | .freq .trayUpdateFreq _ => updater.setUpdateFreq .tray
  | .flag .p2pAutoupdate _ => updater.setComponentAutoupdate .p2p
  | .flag .trayAutoupdate _ => updater.setComponentAutoupdate .tray
  | _ => updater

def notify (notice : UpdateNotice) : CHubComponentsUpdater :=
  { updater with notices := updater.notices ++ [notice] }

/-- `update_component_timer_timeout`. Where it calls `update` the rest of it comes with `updated`. -/
def updateComponentTimerTimeout (installed nextVersion current : QString) : CHubComponentsUpdater :=
  if component = .p2p ∧ installed = undefinedVersion then updater
  else
    let updater := updater.timerStop component
    if updateAvailable nextVersion current then
      if (updater.items component).autoupdate then
        { updater.notify (.started component) with calls := component :: updater.calls }
      else (updater.notify (.newVersion component)).timerStart component
    else updater.timerStart component

end CHubComponentsUpdater

inductive UpdateEvent where
  | call (call : SettingCall) (machine : Machine)
  /-- `installed` is the version of P2P that the slot asks for first. -/
  | timeout (component : TimedComponent) (installed nextVersion current : QString)
  /-- The innermost `update` of a slot returns. -/
  | updated

namespace CHubComponentsUpdater

def step (lib : QtLibrary) (updater : CHubComponentsUpdater) : UpdateEvent → Option CHubComponentsUpdater
  | .call call machine =>
      some ({ updater with settings := call.run lib machine updater.settings }.settingSaved call)
  | .timeout component installed nextVersion current =>
      if (updater.items component).timer.Fires then
        some (updater.updateComponentTimerTimeout component installed nextVersion current)
      else none
  | .updated =>
      match updater.calls with
      | [] => none
      | component :: calls => some ({ updater with calls }.timerStart component)

end CHubComponentsUpdater

/-! ## Intervals -/

/-- The interval of the setting in milliseconds. -/
def wantedInterval (freq : UInt32) : Nat := (updateFreqToSec freq).toNat * 1000

/-- A month has too many milliseconds for an `int`. -/
def Monthly (freq : UInt32) : Prop := freq % ufLast = 9

instance (freq : UInt32) : Decidable (Monthly freq) := inferInstanceAs (Decidable (_ = _))

theorem exists_index_of_freq (freq : UInt32) : ∃ index : Fin 11, freq % ufLast = UInt32.ofNat index := by
  have hlt : (freq % ufLast).toNat < 11 := by
    rw [UInt32.toNat_mod]
    exact Nat.mod_lt _ (by decide)
  exact ⟨⟨_, hlt⟩, UInt32.ofNat_toNat.symm⟩

theorem timerInterval_eq_iff (freq : UInt32) : timerInterval freq = wantedInterval freq ↔ ¬ Monthly freq := by
  obtain ⟨index, hindex⟩ := exists_index_of_freq freq
  rw [timerInterval, wantedInterval, updateFreqToSec, Monthly, hindex]
  clear hindex
  revert index
  decide

theorem timerInterval_neg_of_monthly {freq : UInt32} (h : Monthly freq) : timerInterval freq < 0 := by
  rw [timerInterval, updateFreqToSec, h]
  decide

theorem ne_ufNever_of_monthly {freq : UInt32} (h : Monthly freq) : freq ≠ ufNever := by
  rintro rfl
  exact absurd h (by decide)

/-! ## What is right -/

namespace CHubComponentsUpdater

/-- The timer of a component runs just when its setting asks for checks (except that it may stand still
during an update that a check has begun), at the interval of the setting. -/
structure TimerRight (updater : CHubComponentsUpdater) (component : TimedComponent) : Prop where
  silent : updater.freq component = ufNever → (updater.items component).timer.running = false
  runs : updater.freq component ≠ ufNever → component ∉ updater.calls →
    (updater.items component).timer.running = true
  interval : updater.freq component ≠ ufNever →
    (updater.items component).timer.interval = wantedInterval (updater.freq component)

def TimersRight (updater : CHubComponentsUpdater) : Prop := ∀ component, updater.TimerRight component

/-- No month is asked for, and no update ends whose component is to be checked no more. -/
def Harmless (updater : CHubComponentsUpdater) : UpdateEvent → Prop
  | .call (.freq _ fr) _ => ¬ Monthly (updateFreq fr)
  | .updated => ∀ component, updater.calls.head? = some component → updater.freq component ≠ ufNever
  | _ => True

/-! ## Steps -/

section
variable {updater updater' : CHubComponentsUpdater} {component other : TimedComponent}

theorem items_modify_self (f : CUpdaterComponentItem → CUpdaterComponentItem) :
    (updater.modify component f).items component = f (updater.items component) :=
  Function.update_self component _ _

theorem items_modify_of_ne (h : other ≠ component) (f : CUpdaterComponentItem → CUpdaterComponentItem) :
    (updater.modify component f).items other = updater.items other :=
  Function.update_of_ne h _ _

theorem TimerRight.congr (h : updater.TimerRight component)
    (hfreq : updater'.freq component = updater.freq component)
    (htimer : (updater'.items component).timer = (updater.items component).timer)
    (hcalls : component ∈ updater'.calls ↔ component ∈ updater.calls) : updater'.TimerRight component := by
  refine ⟨?_, ?_, ?_⟩
  · rw [hfreq, htimer]
    exact h.silent
  · rw [hfreq, htimer, hcalls]
    exact h.runs
  · rw [hfreq, htimer]
    exact h.interval

/-- Another component's timer is none of the operation's business. -/
theorem TimerRight.modify_of_ne (h : updater.TimerRight other) (hne : other ≠ component)
    (f : CUpdaterComponentItem → CUpdaterComponentItem) : (updater.modify component f).TimerRight other :=
  h.congr rfl (congrArg CUpdaterComponentItem.timer (items_modify_of_ne hne f)) Iff.rfl

theorem timerRight_timerStart (hfreq : updater.freq component ≠ ufNever)
    (hinterval : (updater.items component).timer.interval = wantedInterval (updater.freq component)) :
    (updater.timerStart component).TimerRight component := by
  refine ⟨fun hnever => absurd hnever hfreq, ?_, ?_⟩
  · intro _ _
    rw [timerStart, items_modify_self]
    rfl
  · intro _
    rw [timerStart, items_modify_self]
    exact hinterval

theorem items_setUpdateFreq_of_ne (h : other ≠ component) :
    (updater.setUpdateFreq component).items other = updater.items other := by
  rw [setUpdateFreq, timerStop]
  split
  · exact items_modify_of_ne h _
  · rw [timerStart, setTimerInterval, items_modify_of_ne h, items_modify_of_ne h, items_modify_of_ne h]

theorem freq_setUpdateFreq : (updater.setUpdateFreq component).freq other = updater.freq other := by
  rw [setUpdateFreq]
  split
  · rfl
  · rfl

theorem calls_setUpdateFreq : (updater.setUpdateFreq component).calls = updater.calls := by
  rw [setUpdateFreq]
  split
  · rfl
  · rfl

theorem timer_setUpdateFreq_of_ne_ufNever (h : updater.freq component ≠ ufNever) :
    ((updater.setUpdateFreq component).items component).timer =
      { interval := timerInterval (updater.freq component), running := true } := by
  rw [setUpdateFreq, if_neg h, timerStart, setTimerInterval, timerStop, items_modify_self, items_modify_self,
    items_modify_self]
  rfl

theorem timer_setUpdateFreq_of_ufNever (h : updater.freq component = ufNever) :
    ((updater.setUpdateFreq component).items component).timer.running = false := by
  rw [setUpdateFreq, if_pos h, timerStop, items_modify_self]
  rfl

/-- The timer is set anew, whatever it was before. -/
theorem timerRight_setUpdateFreq_iff :
    (updater.setUpdateFreq component).TimerRight component ↔ ¬ Monthly (updater.freq component) := by
  by_cases hnever : updater.freq component = ufNever
  · refine iff_of_true ⟨?_, ?_, ?_⟩ (fun hmonthly => ne_ufNever_of_monthly hmonthly hnever)
    · exact fun _ => timer_setUpdateFreq_of_ufNever hnever
    · rw [freq_setUpdateFreq]
      exact fun hfreq => absurd hnever hfreq
    · rw [freq_setUpdateFreq]
      exact fun hfreq => absurd hnever hfreq
  · rw [← timerInterval_eq_iff]
    have htimer := timer_setUpdateFreq_of_ne_ufNever hnever
    constructor
    · intro h
      have hinterval := h.interval (by rwa [freq_setUpdateFreq])
      rwa [htimer, freq_setUpdateFreq] at hinterval
    · intro hinterval
      refine ⟨?_, ?_, ?_⟩
      · rw [freq_setUpdateFreq]
        exact fun hfreq => absurd hfreq hnever
      · rw [htimer]
        exact fun _ _ => rfl
      · rw [htimer, freq_setUpdateFreq]
        exact fun _ => hinterval

theorem timerRight_setUpdateFreq_of_ne (hne : other ≠ component) :
    (updater.setUpdateFreq component).TimerRight other ↔ updater.TimerRight other := by
  have htimer := congrArg CUpdaterComponentItem.timer (@items_setUpdateFreq_of_ne updater _ _ hne)
  constructor
  · exact fun h => h.congr freq_setUpdateFreq.symm htimer.symm (by rw [calls_setUpdateFreq])
  · exact fun h => h.congr freq_setUpdateFreq htimer (by rw [calls_setUpdateFreq])

theorem timersRight_setUpdateFreq_iff (hothers : ∀ other ≠ component, updater.TimerRight other) :
    (updater.setUpdateFreq component).TimersRight ↔ ¬ Monthly (updater.freq component) := by
  rw [← timerRight_setUpdateFreq_iff]
  constructor
  · exact fun h => h component
  · intro h other
    by_cases hne : other = component
    · rw [hne]
      exact h
    · exact (timerRight_setUpdateFreq_of_ne hne).mpr (hothers other hne)

end

/-! ### Saved settings -/

section
variable {lib : QtLibrary} {machine : Machine}

/-- The updater with the settings that the call leaves, before it is told. -/
def saved (lib : QtLibrary) (machine : Machine) (updater : CHubComponentsUpdater) (call : SettingCall) :
    CHubComponentsUpdater :=
  { updater with settings := call.run lib machine updater.settings }

variable {updater : CHubComponentsUpdater}

theorem freq_saved_of_notMem {call : SettingCall} {component : TimedComponent}
    (hcall : .uint component.freq.row.1 ∉ call.fields) :
    (updater.saved lib machine call).freq component = updater.freq component :=
  SettingCall.val_run_of_notMem hcall _

theorem timerRight_saved (h : updater.TimersRight) {call : SettingCall} {component : TimedComponent}
    (hcall : .uint component.freq.row.1 ∉ call.fields) :
    (updater.saved lib machine call).TimerRight component :=
  (h component).congr (freq_saved_of_notMem hcall) rfl Iff.rfl

theorem freq_notMem_fields_of_ne {component other : TimedComponent} (hne : other ≠ component) (fr : Int) :
    .uint other.freq.row.1 ∉ (SettingCall.freq component.freq fr).fields := by
  cases component with
  | p2p =>
      cases other with
      | p2p => exact absurd rfl hne
      | tray => simp [SettingCall.fields, TimedComponent.freq, FreqSetting.row]
  | tray =>
      cases other with
      | p2p => simp [SettingCall.fields, TimedComponent.freq, FreqSetting.row]
      | tray => exact absurd rfl hne

theorem timersRight_saved_freq_iff (h : updater.TimersRight) (component : TimedComponent) (fr : Int) :
    ((updater.saved lib machine (.freq component.freq fr)).setUpdateFreq component).TimersRight ↔
      ¬ Monthly (updateFreq fr) := by
  have hfreq : (updater.saved lib machine (.freq component.freq fr)).freq component = updateFreq fr :=
    @SettingCall.val_run_freq lib machine component.freq fr updater.settings
  rw [timersRight_setUpdateFreq_iff, hfreq]
  exact fun other hne => timerRight_saved h (freq_notMem_fields_of_ne hne fr)

theorem freq_notMem_fields {call : SettingCall} (h : ∀ setting fr, call ≠ .freq setting fr)
    (component : TimedComponent) : .uint component.freq.row.1 ∉ call.fields := by
  cases call with
  | freq setting fr => exact absurd rfl (h setting fr)
  | number setting _ =>
      cases component <;> cases setting <;>
        simp [SettingCall.fields, TimedComponent.freq, FreqSetting.row, NumberSetting.row]
  | _ => cases component <;> simp [SettingCall.fields, TimedComponent.freq, FreqSetting.row]

/-- Only a frequency has a timer told of it. -/
theorem timer_settingSaved {call : SettingCall} (h : ∀ setting fr, call ≠ .freq setting fr)
    (component : TimedComponent) :
    ((updater.settingSaved call).items component).timer = (updater.items component).timer := by
  have hmodify (told : TimedComponent) :
      ((updater.setComponentAutoupdate told).items component).timer = (updater.items component).timer := by
    by_cases hne : component = told
    · rw [setComponentAutoupdate, hne, items_modify_self]
    · rw [setComponentAutoupdate, items_modify_of_ne hne]
  cases call with
  | freq setting fr => exact absurd rfl (h setting fr)
  | flag setting _ =>
      cases setting with
      | p2pAutoupdate => exact hmodify .p2p
      | trayAutoupdate => exact hmodify .tray
      | rememberMe | useAnimations => rfl
  | _ => rfl

theorem settings_settingSaved (call : SettingCall) :
    (updater.settingSaved call).settings = updater.settings := by
  have hfreq (component : TimedComponent) :
      (updater.setUpdateFreq component).settings = updater.settings := by
    rw [setUpdateFreq]
    split
    · rfl
    · rfl
  cases call with
  | freq setting _ => cases setting <;> exact hfreq _
  | flag setting _ => cases setting <;> rfl
  | _ => rfl

theorem calls_settingSaved (call : SettingCall) : (updater.settingSaved call).calls = updater.calls := by
  cases call with
  | freq setting _ => cases setting <;> exact calls_setUpdateFreq
  | flag setting _ => cases setting <;> rfl
  | _ => rfl

theorem timersRight_call_iff (h : updater.TimersRight) (call : SettingCall) :
    ((updater.saved lib machine call).settingSaved call).TimersRight ↔
      updater.Harmless (.call call machine) := by
  by_cases hfreq : ∃ setting fr, call = .freq setting fr
  · obtain ⟨setting, fr, rfl⟩ := hfreq
    cases setting with
    | p2pUpdateFreq => exact timersRight_saved_freq_iff h .p2p fr
    | trayUpdateFreq => exact timersRight_saved_freq_iff h .tray fr
  · have hother (setting : FreqSetting) (fr : Int) : call ≠ .freq setting fr :=
      fun hcall => hfreq ⟨setting, fr, hcall⟩
    refine iff_of_true ?_ ?_
    · intro component
      have hsaved := @timerRight_saved lib machine updater h call component (freq_notMem_fields hother component)
      refine hsaved.congr ?_ (timer_settingSaved hother component) (by rw [calls_settingSaved])
      rw [freq, settings_settingSaved, freq]
    · cases call with
      | freq setting fr => exact absurd rfl (hother setting fr)
      | _ => trivial

end

/-! ### Checks -/

section
variable {updater : CHubComponentsUpdater} {component : TimedComponent}

theorem TimerRight.freq_ne_ufNever (h : updater.TimerRight component)
    (hrunning : (updater.items component).timer.running = true) : updater.freq component ≠ ufNever := by
  intro hnever
  rw [h.silent hnever] at hrunning
  exact Bool.false_ne_true hrunning

/-- Stopped and started again. -/
theorem TimersRight.restart (h : updater.TimersRight) (hfreq : updater.freq component ≠ ufNever) :
    ((updater.timerStop component).timerStart component).TimersRight := by
  intro other
  by_cases hne : other = component
  · subst hne
    refine @timerRight_timerStart (updater.timerStop other) other hfreq ?_
    rw [timerStop, items_modify_self]
    exact (h other).interval hfreq
  · exact ((h other).modify_of_ne hne _).modify_of_ne hne _

theorem TimersRight.updateComponentTimerTimeout (h : updater.TimersRight)
    (hrunning : (updater.items component).timer.running = true) (installed nextVersion current : QString) :
    (updater.updateComponentTimerTimeout component installed nextVersion current).TimersRight := by
  have hfreq := (h component).freq_ne_ufNever hrunning
  rw [CHubComponentsUpdater.updateComponentTimerTimeout]
  split
  · exact h
  · dsimp only
    split
    · split
      · intro other
        by_cases hne : other = component
        · subst hne
          refine ⟨fun hnever => absurd hnever hfreq, ?_, ?_⟩
          · exact fun _ hcalls => absurd List.mem_cons_self hcalls
          · intro _
            change ((updater.timerStop other).items other).timer.interval = _
            rw [timerStop, items_modify_self]
            exact (h other).interval hfreq
        · have hother : (updater.timerStop component).TimerRight other := (h other).modify_of_ne hne _
          refine hother.congr rfl rfl ?_
          exact List.mem_cons.trans (or_iff_right hne)
      · exact fun other => (h.restart hfreq other).congr rfl rfl Iff.rfl
    · exact h.restart hfreq

/-- The end of an update starts the timer of its component, whatever the setting says by then. -/
theorem timersRight_updated_iff {calls : List TimedComponent} (h : updater.TimersRight)
    (hcalls : updater.calls = component :: calls) :
    ({ updater with calls }.timerStart component).TimersRight ↔ updater.freq component ≠ ufNever := by
  constructor
  · intro hafter
    apply (hafter component).freq_ne_ufNever
    rw [timerStart, items_modify_self]
    rfl
  · intro hfreq other
    by_cases hne : other = component
    · subst hne
      exact timerRight_timerStart hfreq ((h other).interval hfreq)
    · apply TimerRight.modify_of_ne _ hne
      refine (h other).congr rfl rfl ?_
      rw [hcalls]
      exact (List.mem_cons.trans (or_iff_right hne)).symm

end

theorem timersRight_step_iff {lib : QtLibrary} {updater after : CHubComponentsUpdater} {event : UpdateEvent}
    (h : updater.TimersRight) (hstep : updater.step lib event = some after) :
    after.TimersRight ↔ updater.Harmless event := by
  cases event with
  | call call machine =>
      rw [← Option.some.inj hstep]
      exact timersRight_call_iff h call
  | timeout component installed nextVersion current =>
      rw [step] at hstep
      split at hstep
      · rename_i hfires
        rw [← Option.some.inj hstep]
        exact iff_of_true (h.updateComponentTimerTimeout hfires.1 _ _ _) trivial
      · exact absurd hstep.symm (Option.some_ne_none after)
  | updated =>
      rw [step] at hstep
      split at hstep
      · exact absurd hstep.symm (Option.some_ne_none after)
      · rename_i component calls hcalls
        rw [← Option.some.inj hstep, timersRight_updated_iff h hcalls, Harmless, hcalls]
        simp

theorem timersRight_new_iff (settings : CSettingsManager) :
    (new settings).TimersRight ↔
      ∀ component, ¬ Monthly (settings.val (.uint (TimedComponent.freq component).row.1)) := by
  have hp2p : (new settings).TimerRight .p2p ↔
      ¬ Monthly (settings.val (.uint (TimedComponent.freq .p2p).row.1)) := by
    rw [new, timerRight_setUpdateFreq_of_ne (by decide), timerRight_setUpdateFreq_iff]
    rfl
  have htray : (new settings).TimerRight .tray ↔
      ¬ Monthly (settings.val (.uint (TimedComponent.freq .tray).row.1)) := by
    rw [new, timerRight_setUpdateFreq_iff, freq_setUpdateFreq]
    rfl
  apply forall_congr'
  intro component
  cases component with
  | p2p => exact hp2p
  | tray => exact htray

/-- All along a run the timers are right if and only if the frequencies at the start are no months, and
no step of the run does harm. -/
theorem timersRight_iff_harmless (lib : QtLibrary) (settings : CSettingsManager) (events : List UpdateEvent) :
    Runs.AlwaysPartial (step lib) TimersRight (new settings) events ↔
      (∀ component, ¬ Monthly (settings.val (.uint (TimedComponent.freq component).row.1))) ∧
        Runs.EachStepPartial (step lib) Harmless (new settings) events := by
  rw [← timersRight_new_iff]
  exact Runs.alwaysPartial_iff_and_eachStepPartial (fun _ _ _ => timersRight_step_iff) events

/-! ## What checks leave alone -/

section
variable {α : Type} {proj : CUpdaterComponentItem → α}

theorem proj_modify {f : CUpdaterComponentItem → CUpdaterComponentItem} (hf : ∀ item, proj (f item) = proj item)
    (updater : CHubComponentsUpdater) (told component : TimedComponent) :
    proj ((updater.modify told f).items component) = proj (updater.items component) := by
  by_cases hne : component = told
  · rw [hne, items_modify_self, hf]
  · rw [items_modify_of_ne hne]

/-- What of an item does not depend on whether its timer runs. -/
def BlindToRunning (proj : CUpdaterComponentItem → α) : Prop :=
  ∀ item running, proj { item with timer := { item.timer with running := running } } = proj item

variable (hproj : BlindToRunning proj) (updater : CHubComponentsUpdater) (component : TimedComponent)
include hproj

theorem proj_timerStart (told : TimedComponent) :
    proj ((updater.timerStart told).items component) = proj (updater.items component) :=
  proj_modify (fun item => hproj item true) updater told component

theorem proj_timerStop (told : TimedComponent) :
    proj ((updater.timerStop told).items component) = proj (updater.items component) :=
  proj_modify (fun item => hproj item false) updater told component

theorem proj_updateComponentTimerTimeout (told : TimedComponent) (installed nextVersion current : QString) :
    proj ((updater.updateComponentTimerTimeout told installed nextVersion current).items component) =
      proj (updater.items component) := by
  have hstop := proj_timerStop hproj updater component told
  rw [updateComponentTimerTimeout]
  split
  · rfl
  · dsimp only
    split
    · split
      · exact hstop
      · exact (proj_timerStart hproj _ component told).trans hstop
    · exact (proj_timerStart hproj _ component told).trans hstop

end

theorem settings_updateComponentTimerTimeout (updater : CHubComponentsUpdater) (told : TimedComponent)
    (installed nextVersion current : QString) :
    (updater.updateComponentTimerTimeout told installed nextVersion current).settings = updater.settings := by
  rw [updateComponentTimerTimeout]
  split
  · rfl
  · dsimp only
    split
    · split
      · rfl
      · rfl
    · rfl

/-! ## Months -/

/-- What the setter of the frequency leaves; it is so even while the timer stands still. -/
def IntervalSet (updater : CHubComponentsUpdater) : Prop :=
  ∀ component, updater.freq component ≠ ufNever →
    (updater.items component).timer.interval = timerInterval (updater.freq component)

section
variable {lib : QtLibrary} {updater after : CHubComponentsUpdater}

theorem IntervalSet.setUpdateFreq {told : TimedComponent}
    (h : ∀ component ≠ told, updater.freq component ≠ ufNever →
      (updater.items component).timer.interval = timerInterval (updater.freq component)) :
    (updater.setUpdateFreq told).IntervalSet := by
  intro component
  rw [freq_setUpdateFreq]
  intro hfreq
  by_cases hne : component = told
  · subst hne
    rw [timer_setUpdateFreq_of_ne_ufNever hfreq]
  · rw [items_setUpdateFreq_of_ne hne]
    exact h component hne hfreq

theorem IntervalSet.saved_freq (h : updater.IntervalSet) (machine : Machine) (told : TimedComponent)
    (fr : Int) : ((updater.saved lib machine (.freq told.freq fr)).setUpdateFreq told).IntervalSet := by
  apply IntervalSet.setUpdateFreq
  intro component hne
  rw [freq_saved_of_notMem (freq_notMem_fields_of_ne hne fr)]
  exact h component

theorem IntervalSet.call (h : updater.IntervalSet) (machine : Machine) (call : SettingCall) :
    ((updater.saved lib machine call).settingSaved call).IntervalSet := by
  by_cases hfreq : ∃ setting fr, call = .freq setting fr
  · obtain ⟨setting, fr, rfl⟩ := hfreq
    cases setting with
    | p2pUpdateFreq => exact h.saved_freq machine .p2p fr
    | trayUpdateFreq => exact h.saved_freq machine .tray fr
  · have hother (setting : FreqSetting) (fr : Int) : call ≠ .freq setting fr :=
      fun hcall => hfreq ⟨setting, fr, hcall⟩
    intro component
    have hsame : ((updater.saved lib machine call).settingSaved call).freq component =
        updater.freq component := by
      rw [freq, settings_settingSaved, freq]
      exact freq_saved_of_notMem (freq_notMem_fields hother component)
    rw [hsame, timer_settingSaved hother]
    exact h component

theorem IntervalSet.step (h : updater.IntervalSet) {event : UpdateEvent}
    (hstep : updater.step lib event = some after) : after.IntervalSet := by
  have hkeep (hsettings : after.settings = updater.settings)
      (htimer : ∀ component, (after.items component).timer.interval =
        (updater.items component).timer.interval) : after.IntervalSet := by
    intro component
    rw [freq, hsettings, htimer]
    exact h component
  have hblind : BlindToRunning fun item => item.timer.interval := fun _ _ => rfl
  cases event with
  | call call machine =>
      rw [← Option.some.inj hstep]
      exact h.call machine call
  | timeout told installed nextVersion current =>
      rw [CHubComponentsUpdater.step] at hstep
      split at hstep
      · rw [← Option.some.inj hstep] at hkeep ⊢
        exact hkeep (settings_updateComponentTimerTimeout updater told _ _ _)
          fun component => proj_updateComponentTimerTimeout hblind updater component told _ _ _
      · exact absurd hstep.symm (Option.some_ne_none after)
  | updated =>
      rw [CHubComponentsUpdater.step] at hstep
      split at hstep
      · exact absurd hstep.symm (Option.some_ne_none after)
      · rename_i told calls _
        rw [← Option.some.inj hstep] at hkeep ⊢
        exact hkeep rfl fun component => proj_timerStart hblind { updater with calls } component told

theorem intervalSet_new (settings : CSettingsManager) : (new settings).IntervalSet := by
  intro component
  rw [new, freq_setUpdateFreq, freq_setUpdateFreq]
  intro hfreq
  cases component with
  | p2p =>
      rw [items_setUpdateFreq_of_ne (by decide), timer_setUpdateFreq_of_ne_ufNever hfreq]
  | tray =>
      rw [timer_setUpdateFreq_of_ne_ufNever (by rwa [freq_setUpdateFreq]), freq_setUpdateFreq]

/-- As long as a component is to be checked once a month, it is not checked at all. -/
theorem not_fires_of_monthly (lib : QtLibrary) (settings : CSettingsManager) (events : List UpdateEvent) :
    Runs.AlwaysPartial (step lib)
      (fun updater => ∀ component, Monthly (updater.freq component) →
        ¬ (updater.items component).timer.Fires)
      (new settings) events := by
  intro past updater _ hrun component hmonthly hfires
  have hset : updater.IntervalSet :=
    Runs.invariant_of_foldlM (intervalSet_new settings) (fun _ _ _ h hstep => h.step hstep) hrun
  have hneg := timerInterval_neg_of_monthly hmonthly
  rw [← hset component (ne_ufNever_of_monthly hmonthly)] at hneg
  exact absurd hfires.2 (Int.not_le.mpr hneg)

end

/-! ## Updates that begin by themselves -/

/-- What the event saves as the component's autoupdate. -/
def autoupdateSaved (component : TimedComponent) : UpdateEvent → Option Bool
  | .call (.flag setting value) _ => if setting = component.autoupdate then some value else none
  | _ => none

/-- What was saved last in the run. -/
def lastSaved (component : TimedComponent) (events : List UpdateEvent) : Option Bool :=
  (events.filterMap (autoupdateSaved component)).getLast?

theorem lastSaved_concat (component : TimedComponent) (events : List UpdateEvent) (event : UpdateEvent) :
    lastSaved component (events ++ [event]) =
      (autoupdateSaved component event).or (lastSaved component events) := by
  rw [lastSaved, List.filterMap_append, List.getLast?_append, List.filterMap_cons, List.filterMap_nil]
  cases autoupdateSaved component event with
  | none => rfl
  | some value => rfl

def autoupdateSetting (updater : CHubComponentsUpdater) (component : TimedComponent) : Bool :=
  updater.settings.val (.bool component.autoupdate.row.1)

section
variable {lib : QtLibrary} {updater after : CHubComponentsUpdater}

theorem autoupdate_setUpdateFreq (updater : CHubComponentsUpdater) (told component : TimedComponent) :
    ((updater.setUpdateFreq told).items component).autoupdate = (updater.items component).autoupdate := by
  have hmodify {f : CUpdaterComponentItem → CUpdaterComponentItem}
      (hf : ∀ item, (f item).autoupdate = item.autoupdate) (updater : CHubComponentsUpdater) :
      ((updater.modify told f).items component).autoupdate = (updater.items component).autoupdate :=
    @proj_modify Bool (·.autoupdate) f hf updater told component
  rw [setUpdateFreq]
  split
  · refine hmodify ?_ updater
    exact fun _ => rfl
  · refine (hmodify ?_ _).trans ((hmodify ?_ _).trans (hmodify ?_ _)) <;> exact fun _ => rfl

theorem autoupdate_settingSaved_of_ne {call : SettingCall} {component : TimedComponent}
    (h : ∀ value, call ≠ .flag component.autoupdate value) :
    ((updater.settingSaved call).items component).autoupdate = (updater.items component).autoupdate := by
  have hflag (told : TimedComponent) (hne : component ≠ told) :
      ((updater.setComponentAutoupdate told).items component).autoupdate =
        (updater.items component).autoupdate := by
    rw [setComponentAutoupdate, items_modify_of_ne hne]
  cases call with
  | freq setting _ =>
      cases setting with
      | p2pUpdateFreq => exact autoupdate_setUpdateFreq updater .p2p component
      | trayUpdateFreq => exact autoupdate_setUpdateFreq updater .tray component
  | flag setting value =>
      cases setting with
      | p2pAutoupdate =>
          apply hflag
          rintro rfl
          exact h value rfl
      | trayAutoupdate =>
          apply hflag
          rintro rfl
          exact h value rfl
      | rememberMe | useAnimations => rfl
  | _ => rfl

theorem autoupdate_notMem_fields {call : SettingCall} {component : TimedComponent}
    (h : ∀ value, call ≠ .flag component.autoupdate value) :
    .bool component.autoupdate.row.1 ∉ call.fields := by
  cases call with
  | flag setting value =>
      cases component <;> cases setting <;>
        simp_all [SettingCall.fields, TimedComponent.autoupdate, FlagSetting.row]
  | autostart _ => cases component <;> simp [SettingCall.fields, TimedComponent.autoupdate, FlagSetting.row]
  | _ => simp [SettingCall.fields]

/-- The updater is told what is saved, and asks for it at no other time. -/
theorem autoupdate_step {event : UpdateEvent} (hstep : updater.step lib event = some after)
    (component : TimedComponent) :
    (after.items component).autoupdate =
        (autoupdateSaved component event).getD (updater.items component).autoupdate ∧
      after.autoupdateSetting component =
        (autoupdateSaved component event).getD (updater.autoupdateSetting component) := by
  have hblind : BlindToRunning (·.autoupdate) := fun _ _ => rfl
  cases event with
  | call call machine =>
      rw [← Option.some.inj hstep]
      change (((updater.saved lib machine call).settingSaved call).items component).autoupdate = _ ∧
        ((updater.saved lib machine call).settingSaved call).autoupdateSetting component = _
      rw [autoupdateSetting, settings_settingSaved]
      by_cases hflag : ∃ value, call = .flag component.autoupdate value
      · obtain ⟨value, rfl⟩ := hflag
        have hvalue : (updater.saved lib machine (.flag component.autoupdate value)).autoupdateSetting
            component = value :=
          @SettingCall.val_run_flag lib machine component.autoupdate value updater.settings
        rw [autoupdateSaved, if_pos rfl]
        refine ⟨?_, hvalue⟩
        cases component with
        | p2p =>
            change ((setComponentAutoupdate _ _).items _).autoupdate = _
            rw [setComponentAutoupdate, items_modify_self]
            exact hvalue
        | tray =>
            change ((setComponentAutoupdate _ _).items _).autoupdate = _
            rw [setComponentAutoupdate, items_modify_self]
            exact hvalue
      · have hother (value : Bool) : call ≠ .flag component.autoupdate value :=
          fun hcall => hflag ⟨value, hcall⟩
        have hnone : autoupdateSaved component (.call call machine) = none := by
          cases call with
          | flag setting value =>
              rw [autoupdateSaved, if_neg]
              rintro rfl
              exact hother value rfl
          | _ => rfl
        rw [hnone]
        exact ⟨autoupdate_settingSaved_of_ne hother,
          SettingCall.val_run_of_notMem (autoupdate_notMem_fields hother) _⟩
  | timeout told installed nextVersion current =>
      rw [step] at hstep
      split at hstep
      · rw [← Option.some.inj hstep, autoupdateSetting, settings_updateComponentTimerTimeout]
        exact ⟨proj_updateComponentTimerTimeout hblind updater component told _ _ _, rfl⟩
      · exact absurd hstep.symm (Option.some_ne_none after)
  | updated =>
      rw [step] at hstep
      split at hstep
      · exact absurd hstep.symm (Option.some_ne_none after)
      · rename_i told calls _
        rw [← Option.some.inj hstep]
        exact ⟨proj_timerStart hblind { updater with calls } component told, rfl⟩

theorem autoupdate_new (settings : CSettingsManager) (component : TimedComponent) :
    ((new settings).items component).autoupdate = false := by
  rw [new, autoupdate_setUpdateFreq, autoupdate_setUpdateFreq]
  rfl

theorem settings_new (settings : CSettingsManager) : (new settings).settings = settings := by
  rw [new]
  exact (settings_settingSaved (.freq .trayUpdateFreq 0)).trans
    (settings_settingSaved (.freq .p2pUpdateFreq 0))

/-- The flag of the updater knows what was saved in the run; the setting also what was stored before. -/
structure AutoupdateSaved (settings : CSettingsManager) (past : List UpdateEvent)
    (updater : CHubComponentsUpdater) : Prop where
  item : ∀ component,
    (updater.items component).autoupdate = (lastSaved component past).getD false
  setting : ∀ component, updater.autoupdateSetting component =
    (lastSaved component past).getD (settings.val (.bool (TimedComponent.autoupdate component).row.1))

theorem autoupdateSaved_run (lib : QtLibrary) (settings : CSettingsManager) (events : List UpdateEvent) :
    Runs.AlwaysSince (step lib) (AutoupdateSaved settings) (new settings) events := by
  apply Runs.alwaysSince_of_concat
  · refine ⟨autoupdate_new settings, ?_⟩
    intro component
    rw [autoupdateSetting, settings_new]
    rfl
  · intro past updater event after h hstep
    refine ⟨?_, ?_⟩
    · intro component
      rw [(autoupdate_step hstep component).1, h.item, lastSaved_concat]
      cases autoupdateSaved component event with
      | none => rfl
      | some value => rfl
    · intro component
      rw [(autoupdate_step hstep component).2, h.setting, lastSaved_concat]
      cases autoupdateSaved component event with
      | none => rfl
      | some value => rfl

theorem calls_updateComponentTimerTimeout_iff (updater : CHubComponentsUpdater) (component : TimedComponent)
    (installed nextVersion current : QString) :
    (updater.updateComponentTimerTimeout component installed nextVersion current).calls =
        component :: updater.calls ↔
      ¬ (component = .p2p ∧ installed = undefinedVersion) ∧ updateAvailable nextVersion current = true ∧
        (updater.items component).autoupdate = true := by
  have hstop := @proj_timerStop Bool (·.autoupdate) (fun _ _ => rfl) updater component component
  have hself : updater.calls ≠ component :: updater.calls := (List.cons_ne_self _ _).symm
  rw [← hstop, updateComponentTimerTimeout]
  split
  · rename_i hundefined
    exact iff_of_false hself fun h => h.1 hundefined
  · rename_i hinstalled
    dsimp only
    split
    · rename_i havailable
      split
      · rename_i hauto
        exact iff_of_true rfl ⟨hinstalled, havailable, hauto⟩
      · rename_i hauto
        exact iff_of_false hself fun h => hauto h.2.2
    · rename_i havailable
      exact iff_of_false hself fun h => havailable h.2.1

/-- A check begins an update where there is one and autoupdate is on by what was saved in this run. What
was stored before it does not count, though it is what the settings say. -/
theorem begins_update_iff (lib : QtLibrary) (settings : CSettingsManager) (events : List UpdateEvent) :
    Runs.AlwaysSince (step lib)
      (fun past updater => ∀ component installed nextVersion current,
        (updater.updateComponentTimerTimeout component installed nextVersion current).calls =
            component :: updater.calls ↔
          ¬ (component = .p2p ∧ installed = undefinedVersion) ∧
            updateAvailable nextVersion current = true ∧ lastSaved component past = some true)
      (new settings) events := by
  refine (autoupdateSaved_run lib settings events).imp ?_
  intro past updater h component installed nextVersion current
  rw [calls_updateComponentTimerTimeout_iff, h.item]
  cases lastSaved component past with
  | none => simp
  | some value => simp

end

end CHubComponentsUpdater

end SubutaiTray.Updater
