import SubutaiTray.Library.Runs
import SubutaiTray.Settings.Password

/-!
The three copies of the password over whole runs.

`set_password` refreshes the array and the settings but not the text that
`password` reports; only `init_password` writes the text. A reload constructs a
new manager on the same settings. A byte order mark at the beginning of a password
is lost when it is read.
-/
namespace SubutaiTray.Settings

inductive SettingsCall where
  | setPassword (rc : UInt8) (password : QString)
  | reload (rc : UInt8)

/-- A manager and the password of the latest `set_password` call. -/
structure Session where
  manager : Manager
  latest : Option QString

section
variable (reader : TextReader) (sha1 : Sha1) (key : GuidKey)

def Session.start (rc : UInt8) (settings : Option QByteArray) : Session :=
  { manager := Manager.new reader sha1 key rc settings, latest := none }

def Session.step (s : Session) : SettingsCall → Session
  | .setPassword rc password =>
      { manager := setPassword sha1 key rc password s.manager, latest := some password }
  | .reload rc =>
      { s with manager := Manager.new reader sha1 key rc s.manager.settings }

def Session.InSync (s : Session) : Prop :=
  (∀ password, s.latest = some password → s.manager.passwordStr = password) ∧
    ∀ rc, (Manager.new reader sha1 key rc s.manager.settings).passwordStr =
      s.manager.passwordStr

def Session.SetsReported (s : Session) : SettingsCall → Prop
  | .setPassword _ password => password = s.manager.passwordStr ∧ password.head? ≠ some bom
  | .reload _ => True

/-- What is taken for an old plain-text password does not begin with a byte order mark once it is read. -/
def MigratesWhole (settings : Option QByteArray) : Prop :=
  ∀ stored, settings = some stored → readPassword sha1 key stored = none →
    (reader.qString stored).head? ≠ some bom

theorem Manager.new_cases (rc : UInt8) (settings : Option QByteArray) :
    (settings.getD [] = [] ∧
        Manager.new reader sha1 key rc settings = ⟨[], [], settings⟩) ∨
      (∃ stored ba, settings = some stored ∧ stored ≠ [] ∧
        readPassword sha1 key stored = some ba ∧
        Manager.new reader sha1 key rc settings = ⟨stored, reader.qString ba, settings⟩) ∨
      ∃ stored, settings = some stored ∧ readPassword sha1 key stored = none ∧
        Manager.new reader sha1 key rc settings =
          setPassword sha1 key rc (reader.qString stored)
            ⟨stored, reader.qString stored, settings⟩ := by
  by_cases hempty : settings.getD [] = []
  · refine Or.inl ⟨hempty, ?_⟩
    simp [Manager.new, initPassword, hempty]
  · cases settings with
    | none => exact absurd rfl hempty
    | some stored =>
        have hne : stored ≠ [] := hempty
        cases hread : readPassword sha1 key stored with
        | some ba =>
            exact Or.inr (Or.inl ⟨stored, ba, rfl, hne, hread,
              initPassword_of_some reader sha1 key rc hne hread⟩)
        | none =>
            exact Or.inr (Or.inr ⟨stored, rfl, hread, initPassword_of_none reader sha1 key rc hne hread⟩)

theorem Manager.nul_notMem_new (rc : UInt8) (settings : Option QByteArray) :
    nul ∉ (Manager.new reader sha1 key rc settings).passwordStr := by
  cases Manager.new_cases reader sha1 key rc settings with
  | inl hempty =>
      rw [hempty.2]
      exact List.not_mem_nil
  | inr hstored =>
      cases hstored with
      | inl hread =>
          obtain ⟨stored, ba, -, -, -, hnew⟩ := hread
          rw [hnew]
          exact reader.nul_notMem_qString ba
      | inr hplain =>
          obtain ⟨stored, -, -, hnew⟩ := hplain
          rw [hnew]
          exact reader.nul_notMem_qString stored

theorem migratesWhole_storedPassword (rc : UInt8) (password : QString) :
    MigratesWhole reader sha1 key (some (storedPassword sha1 key rc password)) := by
  intro stored hsome hnone
  rw [← Option.some.inj hsome, readPassword_storedPassword] at hnone
  exact absurd hnone (Option.some_ne_none _)

theorem migratesWhole_new (rc : UInt8) (settings : Option QByteArray) :
    MigratesWhole reader sha1 key (Manager.new reader sha1 key rc settings).settings := by
  cases Manager.new_cases reader sha1 key rc settings with
  | inl hempty =>
      rw [hempty.2]
      rintro stored rfl -
      rw [show stored = [] from hempty.1]
      exact (congrArg List.head? (reader.fromUtf8_toUtf8 [])).trans_ne (Option.some_ne_none bom).symm
  | inr hstored =>
      cases hstored with
      | inl hread =>
          obtain ⟨stored, ba, rfl, -, hread, hnew⟩ := hread
          rw [hnew]
          intro other hsome hnone
          rw [← Option.some.inj hsome, hread] at hnone
          exact absurd hnone (Option.some_ne_none ba)
      | inr hplain =>
          obtain ⟨stored, rfl, -, hnew⟩ := hplain
          rw [hnew]
          exact migratesWhole_storedPassword reader sha1 key rc _

/-- A fresh manager reports what the manager before it reported when it was fresh, also when that
one has migrated the settings. -/
theorem Manager.new_new_iff (rc rc' : UInt8) (settings : Option QByteArray) :
    (Manager.new reader sha1 key rc' (Manager.new reader sha1 key rc settings).settings).passwordStr =
        (Manager.new reader sha1 key rc settings).passwordStr ↔
      MigratesWhole reader sha1 key settings := by
  cases Manager.new_cases reader sha1 key rc settings with
  | inl hempty =>
      have hwhole := migratesWhole_new reader sha1 key rc settings
      rw [hempty.2] at hwhole ⊢
      refine iff_of_true ?_ hwhole
      simp [Manager.new, initPassword, hempty.1]
  | inr hstored =>
      cases hstored with
      | inl hread =>
          have hwhole := migratesWhole_new reader sha1 key rc settings
          obtain ⟨stored, ba, rfl, hne, hread, hnew⟩ := hread
          rw [hnew] at hwhole ⊢
          have := initPassword_of_some reader sha1 key rc' (m := ⟨stored, [], some stored⟩) hne hread
          exact iff_of_true (congrArg Manager.passwordStr this) hwhole
      | inr hplain =>
          obtain ⟨stored, rfl, hnone, hnew⟩ := hplain
          rw [hnew]
          change (Manager.new reader sha1 key rc'
            (some (storedPassword sha1 key rc (reader.qString stored)))).passwordStr = _ ↔ _
          rw [Manager.new_storedPassword]
          refine (reader.qString_toUtf8_eq_self_iff _).trans ?_
          rw [and_iff_right (reader.nul_notMem_qString stored)]
          constructor
          · intro hbom other hsome _
            rw [← Option.some.inj hsome]
            exact hbom
          · exact fun h => h stored rfl hnone

theorem inSync_start_iff (rc : UInt8) (settings : Option QByteArray) :
    (Session.start reader sha1 key rc settings).InSync reader sha1 key ↔
      MigratesWhole reader sha1 key settings := by
  constructor
  · intro hsync
    exact (Manager.new_new_iff reader sha1 key rc rc settings).mp (hsync.2 rc)
  · intro hwhole
    refine ⟨fun password hnone => absurd hnone.symm (Option.some_ne_none password), fun rc' => ?_⟩
    exact (Manager.new_new_iff reader sha1 key rc rc' settings).mpr hwhole

/-- The reported password has no NUL, and the array in the settings is read as a whole. -/
structure Session.Plain (s : Session) : Prop where
  reported : nul ∉ s.manager.passwordStr
  stored : MigratesWhole reader sha1 key s.manager.settings

theorem Session.plain_step {s : Session} (plain : s.Plain reader sha1 key) (call : SettingsCall) :
    (s.step reader sha1 key call).Plain reader sha1 key := by
  cases call with
  | setPassword rc password =>
      exact ⟨plain.reported, migratesWhole_storedPassword reader sha1 key rc password⟩
  | reload rc =>
      exact ⟨Manager.nul_notMem_new reader sha1 key rc s.manager.settings,
        migratesWhole_new reader sha1 key rc s.manager.settings⟩

theorem Session.inSync_step {s : Session} (plain : s.Plain reader sha1 key)
    (h : s.InSync reader sha1 key) (call : SettingsCall) :
    (s.step reader sha1 key call).InSync reader sha1 key ↔ s.SetsReported call := by
  cases call with
  | setPassword rc password =>
      have hfresh (rc' : UInt8) : (Manager.new reader sha1 key rc'
          (some (storedPassword sha1 key rc password))).passwordStr = reader.qString (toUtf8 password) := by
        rw [Manager.new_storedPassword]
      have hread (hset : password = s.manager.passwordStr) :
          reader.qString (toUtf8 password) = s.manager.passwordStr ↔ password.head? ≠ some bom := by
        subst hset
        rw [reader.qString_toUtf8_eq_self_iff, and_iff_right plain.reported]
      constructor
      · intro hsync
        have hset : password = s.manager.passwordStr := (hsync.1 password rfl).symm
        exact ⟨hset, (hread hset).mp ((hfresh rc).symm.trans (hsync.2 rc))⟩
      · rintro ⟨hset, hbom⟩
        refine ⟨fun latest hlatest => hset.symm.trans (Option.some.inj hlatest), fun rc' => ?_⟩
        exact (hfresh rc').trans ((hread hset).mpr hbom)
  | reload rc =>
      have hsame : (s.step reader sha1 key (.reload rc)).manager.passwordStr =
          s.manager.passwordStr := h.2 rc
      refine ⟨fun _ => trivial, fun _ => ⟨?_, ?_⟩⟩
      · intro password hlatest
        rw [hsame]
        exact h.1 password hlatest
      · intro rc'
        exact (Manager.new_new_iff reader sha1 key rc rc' s.manager.settings).mpr plain.stored

/-- The copies agree in every state of a run if and only if they do at the start and every call of
`set_password` repeats the password that is reported already, which must not begin with a byte
order mark. -/
theorem inSync_iff_setsReported (rc : UInt8) (settings : Option QByteArray)
    (calls : List SettingsCall) :
    Runs.Always (Session.step reader sha1 key) (Session.InSync reader sha1 key)
        (Session.start reader sha1 key rc settings) calls ↔
      MigratesWhole reader sha1 key settings ∧
        Runs.EachStep (Session.step reader sha1 key) Session.SetsReported
          (Session.start reader sha1 key rc settings) calls := by
  rw [← inSync_start_iff reader sha1 key rc settings]
  by_cases hstart : (Session.start reader sha1 key rc settings).InSync reader sha1 key
  · rw [and_iff_right hstart]
    have plain : (Session.start reader sha1 key rc settings).Plain reader sha1 key :=
      ⟨Manager.nul_notMem_new reader sha1 key rc settings, migratesWhole_new reader sha1 key rc settings⟩
    apply Runs.always_iff_eachStep plain
    · exact fun s call plain => Session.plain_step reader sha1 key plain call
    · exact hstart
    · exact fun s call plain h => Session.inSync_step reader sha1 key plain h call
  · exact iff_of_false (fun always => hstart (always [] List.nil_prefix)) fun h => hstart h.1

end

theorem not_inSync_fresh :
    ¬ Runs.Always (Session.step utf8Reader sampleSha1 sampleKey)
      (Session.InSync utf8Reader sampleSha1 sampleKey)
      (Session.start utf8Reader sampleSha1 sampleKey 17 none)
      [.setPassword 254 "sécret".toList] := by
  intro always
  have hsync := (always _ List.prefix_rfl).1 "sécret".toList rfl
  exact absurd hsync (by decide)

end SubutaiTray.Settings
