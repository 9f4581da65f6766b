import SubutaiTray.Library.Feedback
import SubutaiTray.Qt.Text
import Mathlib.Data.List.Basic

/-!
The stored password of the settings (`init_password`, `set_password`).

The stored array is two magic words and an enciphered body: a random byte, the
SHA1 hash of the password's bytes, and these bytes. SHA1 is a parameter whose type
says that a hash has 20 bytes. The source computes with `char`; on single bytes
`^` and `==` do not depend on the sign.
-/
namespace SubutaiTray.Settings

abbrev Sha1 := QByteArray → Vector UInt8 20

/-- `QUuid(m_tray_guid).data4` -/
abbrev GuidKey := Vector UInt8 8

def passMagic : UInt32 := 0xbaedcf3f
def passMagic2 : UInt32 := 0xedff019b

def wordBytes (w : UInt32) : QByteArray :=
  [w.toUInt8, (w >>> 8).toUInt8, (w >>> 16).toUInt8, (w >>> 24).toUInt8]

/-- `ptr_magic[i]` -/
def wordAt (ba : QByteArray) (i : Nat) : UInt32 :=
  (ba.getD (4 * i) 0).toUInt32 ||| (ba.getD (4 * i + 1) 0).toUInt32 <<< 8 |||
    (ba.getD (4 * i + 2) 0).toUInt32 <<< 16 ||| (ba.getD (4 * i + 3) 0).toUInt32 <<< 24

/-- `key[pos % 8]` -/
def keyAt (key : GuidKey) (pos : Nat) : UInt8 := key[pos % 8]

/-- The loop of `set_password`; `lc` is the byte written last. -/
def encrypt (key : GuidKey) (ba : QByteArray) : QByteArray :=
  Feedback.encipher (fun k lc b => b ^^^ k ^^^ lc) (keyAt key) 0 0 ba

/-- The loop of `init_password`; `lc` is the byte read last. -/
def decrypt (key : GuidKey) (ba : QByteArray) : QByteArray :=
  Feedback.decipher (fun k lc b => b ^^^ lc ^^^ k) (keyAt key) 0 0 ba

/-- The members of `CSettingsManager` that hold the password, and its entry in the
settings. -/
structure Manager where
  password : QByteArray
  passwordStr : QString
  settings : Option QByteArray
  deriving DecidableEq

/-- The array that `set_password` builds; `rc` is the random byte. -/
def storedPassword (sha1 : Sha1) (key : GuidKey) (rc : UInt8) (password : QString) :
    QByteArray :=
  let ba := toUtf8 password
  let ip := (sha1 ba).toList
  let ba := rc :: (ip ++ ba)
  wordBytes passMagic ++ wordBytes passMagic2 ++ encrypt key ba

def setPassword (sha1 : Sha1) (key : GuidKey) (rc : UInt8) (password : QString)
    (m : Manager) : Manager :=
  let ra := storedPassword sha1 key rc password
  { m with password := ra, settings := some ra }

/-- The guard of the block in `init_password`. -/
def hasMagic (ba : QByteArray) : Bool :=
  !(decide (ba.length ≤ 8) || wordAt ba 0 != passMagic || wordAt ba 1 != passMagic2)

/-- The deciphered body, its random byte removed. -/
def decryptedBody (key : GuidKey) (password : QByteArray) : QByteArray :=
  (decrypt key (password.drop 8)).drop 1

/-- The block of `init_password`: the bytes of the password, or `none` at each of its
breaks. -/
def readPassword (sha1 : Sha1) (key : GuidKey) (password : QByteArray) : Option QByteArray :=
  if !hasMagic password then none
  else
    let ba := decryptedBody key password
    if ba.length < 20 then none
    else
      let stH := ba.take 20
      let ba := ba.drop 20
      if (sha1 ba).toList ≠ stH then none else some ba

/-- `CSettingsManager::init_password`; `rc` is the random byte of the migration. -/
def initPassword (reader : TextReader) (sha1 : Sha1) (key : GuidKey) (rc : UInt8)
    (m : Manager) : Manager :=
  if m.password.isEmpty then m
  else
    match readPassword sha1 key m.password with
    | some ba => { m with passwordStr := reader.qString ba }
    | none =>
        let m := { m with passwordStr := reader.qString m.password }
        setPassword sha1 key rc m.passwordStr m

/-- The constructor of `CSettingsManager`, as far as the password goes. -/
def Manager.new (reader : TextReader) (sha1 : Sha1) (key : GuidKey) (rc : UInt8)
    (settings : Option QByteArray) : Manager :=
  initPassword reader sha1 key rc
    { password := settings.getD [], passwordStr := [], settings := settings }

section
variable (reader : TextReader) (sha1 : Sha1) (key : GuidKey) (rc : UInt8) (password : QString)
  (m : Manager)

theorem decrypt_encrypt (ba : QByteArray) : decrypt key (encrypt key ba) = ba := by
  apply Feedback.decipher_encipher
  intro k c x
  calc x ^^^ k ^^^ c ^^^ c ^^^ k = x ^^^ k ^^^ (c ^^^ c) ^^^ k := by rw [UInt8.xor_assoc (x ^^^ k)]
    _ = x ^^^ k ^^^ k := by rw [UInt8.xor_self, UInt8.xor_zero]
    _ = x := by rw [UInt8.xor_assoc, UInt8.xor_self, UInt8.xor_zero]

theorem length_storedPassword :
    (storedPassword sha1 key rc password).length = 29 + (toUtf8 password).length := by
  simp [storedPassword, wordBytes, encrypt]
  omega

theorem wordAt_magic (rest : QByteArray) :
    wordAt (wordBytes passMagic ++ wordBytes passMagic2 ++ rest) 0 = passMagic ∧
      wordAt (wordBytes passMagic ++ wordBytes passMagic2 ++ rest) 1 = passMagic2 := by
  constructor
  · simp only [wordAt, wordBytes, List.cons_append, List.nil_append, List.getD_cons_zero,
      List.getD_cons_succ, Nat.mul_zero, Nat.zero_add]
    decide
  · simp only [wordAt, wordBytes, List.cons_append, List.nil_append, List.getD_cons_zero,
      List.getD_cons_succ, Nat.mul_one]
    decide

theorem hasMagic_storedPassword : hasMagic (storedPassword sha1 key rc password) = true := by
  have hlen : ¬ (storedPassword sha1 key rc password).length ≤ 8 := by
    rw [length_storedPassword]
    omega
  have hmagic : wordAt (storedPassword sha1 key rc password) 0 = passMagic :=
    (wordAt_magic _).1
  have hmagic2 : wordAt (storedPassword sha1 key rc password) 1 = passMagic2 :=
    (wordAt_magic _).2
  rw [hasMagic, decide_eq_false hlen, hmagic, hmagic2]
  rfl

theorem decryptedBody_storedPassword :
    decryptedBody key (storedPassword sha1 key rc password) =
      (sha1 (toUtf8 password)).toList ++ toUtf8 password := by
  have hdrop : (storedPassword sha1 key rc password).drop 8 =
      encrypt key (rc :: ((sha1 (toUtf8 password)).toList ++ toUtf8 password)) := rfl
  rw [decryptedBody, hdrop, decrypt_encrypt]
  rfl

theorem readPassword_storedPassword :
    readPassword sha1 key (storedPassword sha1 key rc password) = some (toUtf8 password) := by
  have hhash : (sha1 (toUtf8 password)).toList.length = 20 := Vector.length_toList
  have htake : ((sha1 (toUtf8 password)).toList ++ toUtf8 password).take 20 =
      (sha1 (toUtf8 password)).toList := List.take_left' hhash
  have hdrop : ((sha1 (toUtf8 password)).toList ++ toUtf8 password).drop 20 =
      toUtf8 password := List.drop_left' hhash
  simp [readPassword, hasMagic_storedPassword, decryptedBody_storedPassword, htake, hdrop]

theorem storedPassword_ne_nil : storedPassword sha1 key rc password ≠ [] := by
  intro h
  have := congrArg List.length h
  rw [length_storedPassword] at this
  simp at this

variable {password m}

theorem initPassword_of_some {ba : QByteArray} (hne : m.password ≠ [])
    (hread : readPassword sha1 key m.password = some ba) :
    initPassword reader sha1 key rc m = { m with passwordStr := reader.qString ba } := by
  have hempty : m.password.isEmpty = false := by simpa using hne
  simp [initPassword, hempty, hread]

/-- A failure of any check is taken for an old plain-text password. -/
theorem initPassword_of_none (hne : m.password ≠ [])
    (hread : readPassword sha1 key m.password = none) :
    initPassword reader sha1 key rc m =
      setPassword sha1 key rc (reader.qString m.password)
        { m with passwordStr := reader.qString m.password } := by
  have hempty : m.password.isEmpty = false := by simpa using hne
  simp [initPassword, hempty, hread]

theorem Manager.new_storedPassword (rc' : UInt8) (password : QString) :
    Manager.new reader sha1 key rc' (some (storedPassword sha1 key rc password)) =
      { password := storedPassword sha1 key rc password,
        passwordStr := reader.qString (toUtf8 password),
        settings := some (storedPassword sha1 key rc password) } :=
  initPassword_of_some reader sha1 key rc' (storedPassword_ne_nil sha1 key rc password)
    (readPassword_storedPassword sha1 key rc password)

end

theorem initPassword_setPassword (reader : TextReader) (sha1 : Sha1) (key : GuidKey)
    (rc rc' : UInt8) (password : QString) (m m' : Manager) (plain : nul ∉ password)
    (inverse : reader.fromUtf8 (toUtf8 password) = password) :
    (initPassword reader sha1 key rc'
      { m' with password := (setPassword sha1 key rc password m).password }).passwordStr =
        password ∧
      (Manager.new reader sha1 key rc' (setPassword sha1 key rc password m).settings).passwordStr =
        password := by
  have hread : reader.qString (toUtf8 password) = password :=
    (reader.qString_toUtf8_of_notMem plain).trans inverse
  constructor
  · have hpassword : (setPassword sha1 key rc password m).password =
        storedPassword sha1 key rc password := rfl
    have hinit := initPassword_of_some (m := { m' with password := storedPassword sha1 key rc password })
      reader sha1 key rc' (storedPassword_ne_nil sha1 key rc password)
      (readPassword_storedPassword sha1 key rc password)
    rw [hpassword, hinit]
    exact hread
  · have hsettings : (setPassword sha1 key rc password m).settings =
        some (storedPassword sha1 key rc password) := rfl
    rw [hsettings, Manager.new_storedPassword]
    exact hread

def sampleSha1 : Sha1 := fun ba =>
  if ba = toUtf8 "sécret".toList then
    #v[224, 211, 195, 51, 253, 205, 215, 24, 78, 227, 63, 229, 25, 213, 221, 111, 211, 115, 86, 32]
  else if ba = [63, 239, 191, 189, 239, 191, 189, 239, 191, 189, 239, 191, 189, 1, 239, 191, 189, 239, 191, 189] then
    #v[244, 38, 96, 16, 199, 219, 61, 237, 63, 84, 32, 37, 197, 92, 127, 91, 137, 21, 23, 126]
  else Vector.replicate 20 0

def sampleKey : GuidKey := #v[1, 2, 3, 4, 5, 6, 7, 8]

theorem initPassword_setPassword_sample :
    (initPassword utf8Reader sampleSha1 sampleKey 17
      { password := (setPassword sampleSha1 sampleKey 254 "sécret".toList
          { password := [], passwordStr := [], settings := none }).password,
        passwordStr := [], settings := none }).passwordStr = "sécret".toList ∧
      (Manager.new utf8Reader sampleSha1 sampleKey 17
        (setPassword sampleSha1 sampleKey 254 "sécret".toList
          { password := [], passwordStr := [], settings := none }).settings).passwordStr =
        "sécret".toList :=
  initPassword_setPassword utf8Reader sampleSha1 sampleKey 254 17
    "sécret".toList { password := [], passwordStr := [], settings := none }
    { password := [], passwordStr := [], settings := none } (by decide) (by decide)

/-- An array with both magic words that fails a check behind them. -/
structure Unreadable (sha1 : Sha1) (key : GuidKey) (password : QByteArray) : Prop where
  long : 8 < password.length
  magic : wordAt password 0 = passMagic
  magic2 : wordAt password 1 = passMagic2
  broken : (decryptedBody key password).length < 20 ∨
    (sha1 ((decryptedBody key password).drop 20)).toList ≠ (decryptedBody key password).take 20

theorem Unreadable.readPassword_eq_none {sha1 : Sha1} {key : GuidKey} {password : QByteArray}
    (h : Unreadable sha1 key password) : readPassword sha1 key password = none := by
  have hmagic : hasMagic password = true := by
    simp [hasMagic, h.long, h.magic, h.magic2]
  rw [readPassword, hmagic]
  by_cases hshort : (decryptedBody key password).length < 20
  · simp [hshort]
  · simp [hshort, h.broken.resolve_left hshort]

/-- The stored array is not taken for a plain-text password, and it is left where it is. -/
structure KeepsStored (reader : TextReader) (m m' : Manager) : Prop where
  notAdopted : m'.passwordStr ≠ reader.qString m.password
  notOverwritten : m'.password = m.password ∧ m'.settings = m.settings

/-- The migration of old settings adopts the array and writes its encryption over it. -/
theorem initPassword_unreadable_migrates (reader : TextReader) (sha1 : Sha1) (key : GuidKey)
    (rc : UInt8) {m : Manager} (h : Unreadable sha1 key m.password) :
    (initPassword reader sha1 key rc m).passwordStr = reader.qString m.password ∧
      (initPassword reader sha1 key rc m).password ≠ m.password ∧
      (initPassword reader sha1 key rc m).settings =
        some (storedPassword sha1 key rc (reader.qString m.password)) := by
  have hne : m.password ≠ [] := by
    intro hnil
    have := h.long
    simp [hnil] at this
  have hnone := h.readPassword_eq_none
  rw [initPassword_of_none reader sha1 key rc hne hnone]
  refine ⟨rfl, ?_, rfl⟩
  -- the new array can be read, the old one could not
  intro heq
  rw [← heq] at hnone
  have hsome := readPassword_storedPassword sha1 key rc (reader.qString m.password)
  exact absurd (hsome.symm.trans hnone) (Option.some_ne_none _)

theorem not_keepsStored_of_unreadable (reader : TextReader) (sha1 : Sha1) (key : GuidKey)
    (rc : UInt8) (m : Manager) (h : Unreadable sha1 key m.password) :
    ¬ KeepsStored reader m (initPassword reader sha1 key rc m) :=
  fun keeps => keeps.notAdopted (initPassword_unreadable_migrates reader sha1 key rc h).1

def truncatedPassword : QByteArray := wordBytes passMagic ++ wordBytes passMagic2 ++ [0]

def truncatedManager : Manager :=
  { password := truncatedPassword, passwordStr := [], settings := some truncatedPassword }

theorem not_keepsStored_truncated :
    ¬ KeepsStored utf8Reader truncatedManager
      (initPassword utf8Reader sampleSha1 sampleKey 17 truncatedManager) :=
  not_keepsStored_of_unreadable utf8Reader sampleSha1 sampleKey 17 truncatedManager
    ⟨by decide, by decide, by decide, Or.inl (by decide)⟩

/-- The magic words, read as text, become the password, and what is stored grows to
hold their encryption. -/
theorem truncatedPassword_adopted :
    Unreadable sampleSha1 sampleKey truncatedPassword ∧
      (initPassword utf8Reader sampleSha1 sampleKey 17 truncatedManager).passwordStr =
        [63, 0xFFFD, 0xFFFD, 0xFFFD, 0xFFFD, 1, 0xFFFD, 0xFFFD].map Char.ofNat ∧
      (initPassword utf8Reader sampleSha1 sampleKey 17 truncatedManager).settings.map
        List.length = some 49 ∧
      ¬ KeepsStored utf8Reader truncatedManager
        (initPassword utf8Reader sampleSha1 sampleKey 17 truncatedManager) := by
  refine ⟨⟨by decide, by decide, by decide, Or.inl (by decide)⟩, by decide +kernel,
    by decide +kernel, ?_⟩
  intro keeps
  exact keeps.notAdopted (by decide +kernel)

end SubutaiTray.Settings
