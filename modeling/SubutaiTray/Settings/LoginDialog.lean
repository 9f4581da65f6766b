import SubutaiTray.Hub.Controller
import SubutaiTray.Qt.Numbers
import SubutaiTray.Settings.SettingCalls

/-!
The login dialog (`DlgLogin`) and what it leaves in the settings.

The entries are saved before the server is asked, and the password also when it is not to be
remembered. What a later start of the program finds is told by the entries of the last login and by
whether there was a logout since. The dialog itself closes on one answer only (`accepted_login_iff`), and
says something whenever it stays (`isSome_lblStatus_login`).
-/
namespace SubutaiTray.Settings

/-! ## The request -/

def reLoginOrEmail : Int := 2
def reHttp : Int := 1
def reTimeout : Int := 3
def reNetworkError : Int := 6

/-- How the request ends: the timer fires first, there is a network error, or there is none. -/
inductive LoginReply where
  | timedOut
  | failed (networkError httpCode : Int)
  | answered (httpCode : Int) (body : QByteArray)

structure LoginCodes where
  httpCode : Int
  errCode : Int
  networkError : Int
  deriving DecidableEq

/-- `send_request` for the login -/
def LoginReply.codes : LoginReply → LoginCodes
  | .timedOut => ⟨-1, reTimeout, 0⟩
  | .failed networkError httpCode => ⟨httpCode, reNetworkError, networkError⟩
  | .answered httpCode _ => ⟨httpCode, Hub.reSuccess, 0⟩

def LoginReply.body : LoginReply → QByteArray
  | .answered _ body => body
  | _ => []

def strOk : QString := "\"OK\"".toList

/-- `CRestWorker::login` -/
def restLogin (lib : QtLibrary) (reply : LoginReply) : LoginCodes :=
  let codes := reply.codes
  if codes.errCode ≠ Hub.reSuccess then
    if codes.httpCode = 403 then { codes with errCode := reLoginOrEmail } else codes
  else if lib.reader.qString reply.body ≠ strOk then { codes with errCode := reLoginOrEmail }
  else codes

/-! ## The dialog -/

/-- What the texts of the dialog ask for beside the codes. -/
structure LoginTexts where
  supportsSsl : Bool
  networkErrorToString : Int → QString

structure DlgLogin where
  leLogin : QString
  lePassword : QString
  cbSaveCredentials : Bool
  deriving DecidableEq

def DlgLogin.new (m : CSettingsManager) : DlgLogin :=
  if m.val (.bool .rememberMe) then
    { leLogin := m.val (.str .login), lePassword := m.val (.str .passwordStr), cbSaveCredentials := true }
  else { leLogin := [], lePassword := [], cbSaveCredentials := false }

/-- What `login` leaves: the settings, the user of the hub controller, the label where it is visible,
and whether the dialog was accepted. -/
structure LoggedIn where
  settings : CSettingsManager
  currentUser : QString
  currentPass : QString
  lblStatus : Option QString
  accepted : Bool

def redText (text : QString) : QString := arg "<font color='red'>%1</font>".toList text

def redPair (text detail : QString) : QString :=
  arg (arg "<font color='red'>%1 : %2</font>".toList text) detail

def lblStatus (texts : LoginTexts) (codes : LoginCodes) : Option QString :=
  if codes.errCode = Hub.reSuccess then none
  else if codes.errCode = reLoginOrEmail then
    some (redText "Wrong username or password. Log in with your correct credentials.".toList)
  else if codes.errCode = reHttp then some (redPair "HTTP error. Code".toList (number codes.httpCode))
  else if codes.errCode = reTimeout then
    some (redText "The session has timed out. Check your Internet connection, and then try again.".toList)
  else if codes.errCode = reNetworkError then
    if texts.supportsSsl then
      some (redPair "Network error. Code".toList (texts.networkErrorToString codes.networkError))
    else
      some (arg (arg "<font color='red'>%1 %2</font>".toList
        "There is an OpenSSL compatibility problem.".toList)
        "Press \"Resolve\" to install proper OpenSSL version.".toList)
  else some (redPair "Unknown error. Code".toList (number codes.errCode))

section
variable (lib : QtLibrary) (texts : LoginTexts) (machine : Machine)

def DlgLogin.calls (dlg : DlgLogin) : List SettingCall :=
  [.text .login dlg.leLogin, .password dlg.lePassword, .flag .rememberMe dlg.cbSaveCredentials]

def DlgLogin.login (dlg : DlgLogin) (reply : LoginReply) (m : CSettingsManager) : LoggedIn :=
  let codes := restLogin lib reply
  { settings := dlg.calls.foldl (SettingCall.run lib machine) m
    currentUser := dlg.leLogin
    currentPass := dlg.lePassword
    lblStatus := lblStatus texts codes
    accepted := codes.errCode = Hub.reSuccess }

/-- The dialog is shown, or was not needed. -/
inductive DialogRun where
  | exec
  | loggedIn (result : LoggedIn)

def DlgLogin.runDialog (dlg : DlgLogin) (reply : LoginReply) (m : CSettingsManager) : DialogRun :=
  if m.val (.bool .rememberMe) then .loggedIn (dlg.login lib texts machine reply m) else .exec

/-- The settings behind `run_dialog`. -/
def DialogRun.settings (m : CSettingsManager) : DialogRun → CSettingsManager
  | .exec => m
  | .loggedIn result => result.settings

end

variable {lib : QtLibrary} {texts : LoginTexts} {machine : Machine}

/-- The dialog is accepted on the one answer that the server gives to known credentials. -/
theorem accepted_login_iff (dlg : DlgLogin) (reply : LoginReply) (m : CSettingsManager) :
    (dlg.login lib texts machine reply m).accepted = true ↔
      ∃ httpCode body, reply = .answered httpCode body ∧ lib.reader.qString body = strOk := by
  rw [DlgLogin.login, decide_eq_true_iff]
  cases reply with
  | timedOut => simp [restLogin, LoginReply.codes, reTimeout, Hub.reSuccess]
  | failed networkError httpCode =>
      by_cases hforbidden : httpCode = 403
      · simp [restLogin, LoginReply.codes, reNetworkError, reLoginOrEmail, Hub.reSuccess, hforbidden]
      · simp [restLogin, LoginReply.codes, reNetworkError, Hub.reSuccess, hforbidden]
  | answered httpCode body =>
      by_cases hok : lib.reader.qString body = strOk
      · simp [restLogin, LoginReply.codes, LoginReply.body, Hub.reSuccess, hok]
      · simp [restLogin, LoginReply.codes, LoginReply.body, reLoginOrEmail, Hub.reSuccess, hok]

/-- The label says something exactly when the dialog stays open. -/
theorem isSome_lblStatus_login (dlg : DlgLogin) (reply : LoginReply) (m : CSettingsManager) :
    (dlg.login lib texts machine reply m).lblStatus.isSome =
      !(dlg.login lib texts machine reply m).accepted := by
  rw [DlgLogin.login]
  dsimp only
  rw [lblStatus]
  split
  · rename_i hsuccess
    simp [hsuccess]
  · rename_i hfailed
    simp only [hfailed, decide_false, Bool.not_false]
    split_ifs <;> rfl

/-! ## Sessions -/

/-- A login by the user, a logout (what of it touches the settings), a start of the program over
the store that is there, or anything else that is done to the settings. -/
inductive AccountEvent where
  | login (texts : LoginTexts) (machine : Machine) (dlg : DlgLogin) (reply : LoginReply)
  | logout
  | start (texts : LoginTexts) (machine : Machine) (reply : LoginReply)
  | other (machine : Machine) (event : SessionEvent)

/-- The calls that only the dialog and a logout make, and the start, which is an event of its own. -/
def SessionEvent.ofAccount : SessionEvent → Bool
  | .call (.text .login _) | .call (.password _) | .call (.flag .rememberMe _) | .restart => true
  | _ => false

namespace CSettingsManager

def accountStep (lib : QtLibrary) (m : CSettingsManager) : AccountEvent → Option CSettingsManager
  | .login texts machine dlg reply => some (dlg.login lib texts machine reply m).settings
  | .logout => some (m.setFlag .rememberMe false)
  | .start texts machine reply =>
      let m := new lib machine m.settings
      some (((DlgLogin.new m).runDialog lib texts machine reply m).settings m)
  | .other machine event => if event.ofAccount then none else some (m.step lib (machine, event))

end CSettingsManager

/-- A password is read back as far as its first NUL and without a byte order mark. -/
def readBack (password : QString) : QString := dropBom (password.takeWhile (· ≠ nul))

/-- What the dialog of a later start shows. -/
def DlgLogin.shownAgain (dlg : DlgLogin) : DlgLogin :=
  if dlg.cbSaveCredentials then { dlg with lePassword := readBack dlg.lePassword }
  else { leLogin := [], lePassword := [], cbSaveCredentials := false }

/-- A start logs in with what it finds, if that was to be remembered. -/
def DlgLogin.startedWith (dlg : DlgLogin) : DlgLogin :=
  if dlg.cbSaveCredentials then dlg.shownAgain else dlg

/-- The entries of the last login, which a logout makes forget that they are to be remembered. -/
def enteredBy (last : Option DlgLogin) : AccountEvent → Option DlgLogin
  | .login _ _ dlg _ => some dlg
  | .logout => last.map fun dlg => { dlg with cbSaveCredentials := false }
  | .start _ _ _ => last.map DlgLogin.startedWith
  | .other _ _ => last

def lastEntered (events : List AccountEvent) : Option DlgLogin := events.foldl enteredBy none

/-- The entries are in the store. -/
structure DlgLogin.Stored (lib : QtLibrary) (dlg : DlgLogin) (m : CSettingsManager) : Prop where
  login : m.settings smLogin = some (.string dlg.leLogin)
  rememberMe : m.settings smRememberMe = some (.bool dlg.cbSaveCredentials)
  password : ∃ rc, m.settings smPassword = some (.byteArray
    (storedPassword lib.sha1 (lib.guidKey (m.val (.str .trayGuid))) rc dlg.lePassword))

def accountKeys : List QString := [smLogin, smRememberMe, smPassword]

theorem notMem_keys_of_other {call : SettingCall} (hother : (SessionEvent.call call).ofAccount = false) :
    ∀ key ∈ accountKeys, key ∉ call.keys := by
  have hstems : ∀ key ∈ accountKeys, ∀ stem ∈ SettingCall.idStems, ¬ stem <+: key := by decide
  cases call with
  | text setting value =>
      rw [SettingCall.keys]
      cases setting with
      | login => exact Bool.noConfusion hother
      | _ => decide
  | flag setting value =>
      rw [SettingCall.keys]
      cases setting with
      | rememberMe => exact Bool.noConfusion hother
      | _ => decide
  | password value => exact Bool.noConfusion hother
  | link setting _ | number setting _ | freq setting _ =>
      rw [SettingCall.keys]
      cases setting <;> decide
  | port field _ =>
      rw [SettingCall.keys]
      cases field <;> decide
  | byId setting id value =>
      exact fun key hkey => SettingCall.notMem_keys_byId (hstems key hkey) setting id value
  | rhPortById id value =>
      exact fun key hkey => SettingCall.notMem_keys_rhPortById (hstems key hkey) id value
  | _ =>
      rw [SettingCall.keys]
      decide

theorem trayGuid_notMem_of_other {call : SettingCall} (hother : (SessionEvent.call call).ofAccount = false) :
    .str .trayGuid ∉ call.fields := by
  cases call with
  | password value => exact Bool.noConfusion hother
  | text setting _ | link setting _ | flag setting _ | number setting _ | freq setting _ =>
      rw [SettingCall.fields]
      cases setting <;> decide
  | port field _ =>
      rw [SettingCall.fields]
      cases field <;> decide
  | _ =>
      rw [SettingCall.fields]
      decide

/-- What is neither of the dialog nor of a logout has nothing to do with the entries and the guid. -/
theorem notMem_of_other {event : SessionEvent} (hother : event.ofAccount = false) :
    event ≠ .restart ∧ .str .trayGuid ∉ event.fields ∧ ∀ key ∈ accountKeys, key ∉ event.keys := by
  cases event with
  | call call =>
      exact ⟨SessionEvent.noConfusion, trayGuid_notMem_of_other hother, notMem_keys_of_other hother⟩
  | defaultChromeProfile | defaultFirefoxProfile => exact ⟨SessionEvent.noConfusion, by decide, by decide⟩
  | restart => exact Bool.noConfusion hother

namespace DlgLogin.Stored

open CSettingsManager

variable {dlg : DlgLogin} {m m' : CSettingsManager}

theorem of_same (h : dlg.Stored lib m) (hguid : m'.val (.str .trayGuid) = m.val (.str .trayGuid))
    (hsettings : ∀ key ∈ accountKeys, m'.settings key = m.settings key) : dlg.Stored lib m' := by
  refine ⟨?_, ?_, ?_⟩
  · rw [hsettings smLogin (by decide)]
    exact h.login
  · rw [hsettings smRememberMe (by decide)]
    exact h.rememberMe
  · rw [hsettings smPassword (by decide), hguid]
    exact h.password

/-- Nothing else that is done to the settings touches what was entered. -/
theorem step_other (h : dlg.Stored lib m) {event : SessionEvent} (hother : event.ofAccount = false) :
    dlg.Stored lib (m.step lib (machine, event)) := by
  obtain ⟨hrestart, hguid, hkeys⟩ := notMem_of_other hother
  exact h.of_same (val_step_of_notMem hrestart hguid) fun key hkey => settings_step_of_notMem (hkeys key hkey)

/-- A login saves its entries. -/
theorem of_login (dlg : DlgLogin) (reply : LoginReply) (m : CSettingsManager) :
    dlg.Stored lib (dlg.login lib texts machine reply m).settings := by
  let m₁ := m.setText .login dlg.leLogin
  let m₂ := m₁.setPassword lib machine dlg.lePassword
  have hpassword : Frame [.password] [smPassword] m₁ m₂ := Frame.setFieldDef _ _ _ _ m₁
  have hremember := Frame.setFieldDef (.bool .rememberMe) smRememberMe .bool dlg.cbSaveCredentials m₂
  refine ⟨?_, ?_, ?_⟩
  · have hlogin : m₁.settings smLogin = some (.string dlg.leLogin) := settings_setText_self .login _ m
    rw [← hlogin, ← hpassword.settings smLogin (by decide)]
    exact hremember.settings smLogin (by decide)
  · exact settings_setFieldDef_self (.bool .rememberMe) smRememberMe .bool dlg.cbSaveCredentials m₂
  · have hguid : m₂.val (.str .trayGuid) = m₁.val (.str .trayGuid) := hpassword.val _ (by decide)
    have hsaved : m₂.settings smPassword = some (.byteArray
        (storedPassword lib.sha1 (lib.guidKey (m₁.val (.str .trayGuid))) machine.randomByte
          dlg.lePassword)) :=
      settings_setFieldDef_self _ _ _ _ m₁
    refine ⟨machine.randomByte, ?_⟩
    refine (hremember.settings smPassword (by decide)).trans ?_
    rw [hsaved, ← hguid]
    rfl

theorem of_logout (h : dlg.Stored lib m) :
    ({ dlg with cbSaveCredentials := false } : DlgLogin).Stored lib (m.setFlag .rememberMe false) := by
  have hframe := Frame.setFieldDef (.bool .rememberMe) smRememberMe .bool false m
  refine ⟨?_, ?_, ?_⟩
  · exact (hframe.settings smLogin (by decide)).trans h.login
  · exact settings_setFieldDef_self (.bool .rememberMe) smRememberMe .bool false m
  · obtain ⟨rc, hsaved⟩ := h.password
    refine ⟨rc, ?_⟩
    have hguid : (m.setFlag .rememberMe false).val (.str .trayGuid) = m.val (.str .trayGuid) :=
      hframe.val _ (by decide)
    rw [hguid]
    exact (hframe.settings smPassword (by decide)).trans hsaved

/-! ## A new start -/

/-- What the constructor makes of a password that was saved under the guid. -/
theorem settings_initPassword {rc : UInt8} {password : QString}
    (hstored : m.val .password = storedPassword lib.sha1 (lib.guidKey (m.val (.str .trayGuid))) rc password) :
    (m.initPassword lib machine).settings = m.settings := by
  have hempty := storedPassword_ne_nil lib.sha1 (lib.guidKey (m.val (.str .trayGuid))) rc password
  rw [CSettingsManager.initPassword]
  simp only [hstored, List.isEmpty_iff, hempty, if_false, readPassword_storedPassword]
  rfl

/-- The guid of a new manager is the one that is stored. -/
theorem val_new_trayGuid (hinv : Inv lib m) :
    (guidMade lib machine m.settings).val (.str .trayGuid) = m.val (.str .trayGuid) := by
  obtain ⟨var, hguid, hvar⟩ := hinv.guid
  rw [← hvar]
  exact val_guidMade_trayGuid hguid (hvar ▸ hinv.guid_ne_nil)

/-- A password that was saved under the guid is left as it is stored. -/
theorem settings_new_smPassword (h : dlg.Stored lib m) (hinv : Inv lib m) :
    (CSettingsManager.new lib machine m.settings).settings smPassword = m.settings smPassword := by
  obtain ⟨rc, hsaved⟩ := h.password
  have hguid : (autostarted lib machine m.settings).val (.str .trayGuid) = m.val (.str .trayGuid) := by
    rw [frame_to_autostarted.val _ (by decide)]
    exact val_new_trayGuid hinv
  have hbefore := (frame_to_branchLoaded.trans (frame_makeTrayGuid machine _)).trans
    (@frame_to_autostarted lib machine m.settings)
  have hloaded : (autostarted lib machine m.settings).val .password =
      storedPassword lib.sha1 (lib.guidKey ((autostarted lib machine m.settings).val (.str .trayGuid)))
        rc dlg.lePassword := by
    have hmem : passwordVal lib.conversions ∈ dctSettingsVals lib.conversions :=
      List.mem_append_right _ (List.mem_cons_of_mem _ List.mem_cons_self)
    rw [hguid, hbefore.val _ (by decide)]
    refine (Tables.load_of_mem (nodup_dctSettingsVals _) hmem).trans ?_
    change Option.elim (m.settings smPassword) _ _ = _
    rw [hsaved]
    exact lib.conversions.toByteArray_byteArray _
  rw [(frame_new lib machine m.settings).settings _ (by decide), passwordRead,
    settings_initPassword hloaded]
  exact hbefore.settings _ (by decide)

theorem new (h : dlg.Stored lib m) (hinv : Inv lib m) :
    dlg.Stored lib (CSettingsManager.new lib machine m.settings) := by
  have hguid : (CSettingsManager.new lib machine m.settings).val (.str .trayGuid) =
      m.val (.str .trayGuid) :=
    ((frame_guidMade lib machine m.settings).val _ (by decide)).trans (val_new_trayGuid hinv)
  refine h.of_same hguid ?_
  intro key hkey
  by_cases hpassword : key = smPassword
  · rw [hpassword]
    exact h.settings_new_smPassword hinv
  · refine settings_new ?_
    rcases List.mem_cons.mp hkey with rfl | hkey
    · decide
    · rcases List.mem_cons.mp hkey with rfl | hkey
      · decide
      · exact absurd (List.mem_singleton.mp hkey) hpassword

/-- The members of a new manager. -/
theorem val_new (h : dlg.Stored lib m) (hinv : Inv lib m) :
    (CSettingsManager.new lib machine m.settings).val (.str .login) = dlg.leLogin ∧
      (CSettingsManager.new lib machine m.settings).val (.bool .rememberMe) = dlg.cbSaveCredentials ∧
      (CSettingsManager.new lib machine m.settings).val (.str .passwordStr) = readBack dlg.lePassword := by
  refine ⟨?_, ?_, ?_⟩
  · rw [@val_new_str lib machine m.settings (.login, smLogin) _ (by decide) (by decide) h.login]
    split
    · rfl
    · rename_i hempty
      exact (Classical.not_not.mp hempty).symm
  · exact @val_new_bool lib machine m.settings (.rememberMe, smRememberMe) _ (by decide) (by decide)
      h.rememberMe
  · obtain ⟨rc, hsaved⟩ := h.password
    obtain ⟨var, hguid, hvar⟩ := hinv.guid
    rw [← hvar] at hsaved
    rw [val_new_passwordStr hguid (hvar ▸ hinv.guid_ne_nil) hsaved, TextReader.qString_toUtf8, readBack]

end DlgLogin.Stored

/-! ## What a start finds -/

theorem DlgLogin.Stored.new_dlg {dlg : DlgLogin} {m : CSettingsManager} (h : dlg.Stored lib m)
    (hinv : CSettingsManager.Inv lib m) :
    DlgLogin.new (CSettingsManager.new lib machine m.settings) = dlg.shownAgain := by
  obtain ⟨hlogin, hremember, hpassword⟩ := @val_new lib machine dlg m h hinv
  rw [DlgLogin.new, DlgLogin.shownAgain, hlogin, hremember, hpassword]
  split
  · rename_i hsave
    rw [← hsave]
  · rfl

namespace CSettingsManager

variable {m m' : CSettingsManager}

theorem Inv.calls (h : Inv lib m) (calls : List SettingCall) :
    Inv lib (calls.foldl (SettingCall.run lib machine) m) :=
  Runs.invariant h (fun _ call h => h.run call) calls

theorem Inv.accountStep (h : Inv lib m) {event : AccountEvent} (hstep : m.accountStep lib event = some m') :
    Inv lib m' := by
  cases event with
  | login texts machine dlg reply =>
      rw [← Option.some.inj hstep]
      exact h.calls dlg.calls
  | logout =>
      rw [← Option.some.inj hstep]
      exact @Inv.run lib sampleMachine m h (.flag .rememberMe false)
  | start texts machine reply =>
      rw [← Option.some.inj hstep, DlgLogin.runDialog]
      split
      · exact (Inv.new m.settings).calls _
      · exact Inv.new m.settings
  | other machine event =>
      rw [CSettingsManager.accountStep] at hstep
      split at hstep
      · exact absurd hstep.symm (Option.some_ne_none m')
      · rw [← Option.some.inj hstep]
        exact h.step (machine, event)

end CSettingsManager

namespace DlgLogin.Stored

variable {dlg : DlgLogin} {m m' : CSettingsManager}

/-- A start stores what it logs in with, and leaves the entries otherwise. -/
theorem start (h : dlg.Stored lib m) (hinv : CSettingsManager.Inv lib m) (reply : LoginReply) :
    let next := CSettingsManager.new lib machine m.settings
    dlg.startedWith.Stored lib
      (((DlgLogin.new next).runDialog lib texts machine reply next).settings next) := by
  intro next
  have hremember : next.val (.bool .rememberMe) = dlg.cbSaveCredentials := (h.val_new hinv).2.1
  rw [h.new_dlg hinv, runDialog, startedWith, hremember]
  split
  · exact of_login dlg.shownAgain reply next
  · exact h.new hinv

theorem accountStep (hinv : CSettingsManager.Inv lib m) {last : Option DlgLogin}
    (hlast : ∀ dlg ∈ last, dlg.Stored lib m) {event : AccountEvent}
    (hstep : m.accountStep lib event = some m') : ∀ dlg ∈ enteredBy last event, dlg.Stored lib m' := by
  intro dlg hdlg
  cases event with
  | login texts machine entered reply =>
      rw [← Option.some.inj hstep, ← Option.some.inj hdlg]
      exact of_login entered reply m
  | logout =>
      obtain ⟨before, hbefore, hdlg⟩ := Option.map_eq_some_iff.mp hdlg
      rw [← Option.some.inj hstep, ← hdlg]
      exact (hlast before hbefore).of_logout
  | start texts machine reply =>
      obtain ⟨before, hbefore, hdlg⟩ := Option.map_eq_some_iff.mp hdlg
      rw [← Option.some.inj hstep, ← hdlg]
      exact (hlast before hbefore).start hinv reply
  | other machine event =>
      rw [CSettingsManager.accountStep] at hstep
      split at hstep
      · exact absurd hstep.symm (Option.some_ne_none m')
      · rename_i hother
        rw [← Option.some.inj hstep]
        exact (hlast dlg hdlg).step_other (Bool.not_eq_true _ ▸ hother)

end DlgLogin.Stored

/-- At any time of any run, the dialog of a later start shows the entries of the last login if they were
to be remembered and there was no logout since, and is empty otherwise; but the password is in the store in
either case. A start that logs in by itself enters what it reads back. -/
theorem shownAgain_run (lib : QtLibrary) (machine : Machine) (settings : QSettings)
    (events : List AccountEvent) :
    Runs.AlwaysSince (CSettingsManager.accountStep lib)
      (fun past m => ∀ dlg ∈ lastEntered past, ∀ later,
        let next := CSettingsManager.new lib later m.settings
        DlgLogin.new next = dlg.shownAgain ∧ next.val (.str .passwordStr) = readBack dlg.lePassword)
      (CSettingsManager.new lib machine settings) events := by
  have hstored : Runs.AlwaysSince (CSettingsManager.accountStep lib)
      (fun past m => CSettingsManager.Inv lib m ∧ ∀ dlg ∈ lastEntered past, dlg.Stored lib m)
      (CSettingsManager.new lib machine settings) events := by
    refine Runs.alwaysSince_of_concat ⟨CSettingsManager.Inv.new settings, by simp [lastEntered]⟩ ?_ events
    intro past m event m' h hstep
    refine ⟨h.1.accountStep hstep, ?_⟩
    rw [lastEntered, List.foldl_append]
    exact DlgLogin.Stored.accountStep h.1 h.2 hstep
  refine hstored.imp ?_
  intro past m h dlg hdlg later
  exact ⟨(h.2 dlg hdlg).new_dlg h.1, ((h.2 dlg hdlg).val_new h.1).2.2⟩

end SubutaiTray.Settings
