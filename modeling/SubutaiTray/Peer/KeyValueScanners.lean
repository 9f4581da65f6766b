import SubutaiTray.Peer.ConfigFile

/-!
The four loops that read a line `KEY : VALUE`.

Three of them skip carriage returns (`vagrant_port`, `get_virtualbox_vm_storage`,
`virtualbox_interfaces`). That of `parse_yml` does not, but takes the blanks around the line
off first.
-/
namespace SubutaiTray.Peer

open Installer (scanCharacter isSpace)

/-- The key and the value that the loop ends with. -/
def scannedPair (line : QString) : QString × QString :=
  let (flag, value, _) := line.foldl scanCharacter ([], [], false)
  (flag, value)

/-- `generated` is the content of `.vagrant/generated.yml`, if it can be read. -/
def vagrantPort (useIp : Bool) (generated : Option QString) : QString :=
  let portOrIpAddress := if useIp then "_IP_PEER".toList else "_CONSOLE_PORT".toList
  match generated with
  | none => "undefined".toList
  | some output =>
      (fileLines output).foldl
        (fun port s =>
          let (flag, value) := scannedPair s
          if flag = portOrIpAddress then value else port)
        "undefined".toList

/-- `res` is what `VBoxManage list systemproperties` gives. -/
def getVirtualboxVmStorage (homePath : List QString) (res : SystemCallRes) : QString :=
  match homePath with
  | [] => []
  | vmDir :: _ =>
      if res.res ≠ .success ∨ res.exitCode ≠ 0 ∨ res.out = [] then vmDir
      else
        match (res.out.map scannedPair).find? fun read => read.1 = "Defaultmachinefolder".toList with
        | some read => read.2
        | none => vmDir

/-- The pair of a line in `parse_yml` -/
def parsedPair (line : QString) : QString × QString :=
  let r := parseLine line
  (r.flag, r.value)

inductive Scanner where
  | vagrantPort
  | getVirtualboxVmStorage
  | virtualboxInterfaces
  | parseYml
  deriving DecidableEq

def Scanner.read : Scanner → QString → QString × QString
  | .vagrantPort | .getVirtualboxVmStorage | .virtualboxInterfaces => scannedPair
  | .parseYml => parsedPair

/-- `virtualbox_interfaces` goes by the pairs of the lines. -/
theorem scanLine_eq (found : QString × List QString) (line : QString) :
    Installer.scanLine found line =
      let (flag, value) := Scanner.virtualboxInterfaces.read line
      let lastName := if flag = "Name".toList then value else found.1
      if flag = "Status".toList && value = "Up".toList then (lastName, found.2 ++ [lastName])
      else (lastName, found.2) := rfl

structure ScannedKey where
  text : QString
  nonempty : text ≠ []
  plain : ∀ c ∈ text, c ≠ ':' ∧ c ≠ ' ' ∧ c ≠ '\r'

structure ScannedValue where
  first : Char
  rest : QString
  starts : first ≠ ' ' ∧ first ≠ ':'

def ScannedValue.text (value : ScannedValue) : QString := value.first :: value.rest

/-- `KEY : VALUE` -/
def keyValueLine (key : ScannedKey) (value : ScannedValue) : QString :=
  key.text ++ " : ".toList ++ value.text

/-! ## The loop of `parse_yml` -/

namespace YmlRead

/-- The other loops do the same with all characters but the carriage return. -/
theorem scanCharacter_eq (r : YmlRead) {c : Char} (hc : c ≠ '\r') :
    scanCharacter (r.flag, r.value, r.readingValue) c =
      ((r.next c).flag, (r.next c).value, (r.next c).readingValue) := by
  simp only [scanCharacter, if_neg hc, next]
  split
  · simp [*]
  · split
    · simp [*]
    · split <;> simp [*]

theorem foldl_scanCharacter {s : QString} (hs : '\r' ∉ s) (r : YmlRead) :
    s.foldl scanCharacter (r.flag, r.value, r.readingValue) =
      ((s.foldl next r).flag, (s.foldl next r).value, (s.foldl next r).readingValue) := by
  induction s generalizing r with
  | nil => rfl
  | cons c s ih =>
      rw [List.mem_cons, not_or] at hs
      rw [List.foldl_cons, List.foldl_cons, scanCharacter_eq r (Ne.symm hs.1), ih hs.2]

theorem foldl_readingValue (flag value s : QString) :
    s.foldl next ⟨flag, value, true⟩ = ⟨flag, value ++ s, true⟩ := by
  induction s generalizing value with
  | nil => simp
  | cons c s ih => simp [next, ih]

theorem foldl_key {s : QString} (hs : ∀ c ∈ s, c ≠ ':' ∧ c ≠ ' ') (value : QString) :
    s.foldl next ⟨[], value, false⟩ = ⟨[], value ++ s, false⟩ := by
  induction s generalizing value with
  | nil => simp
  | cons c s ih =>
      obtain ⟨hc, hs⟩ := List.forall_mem_cons.mp hs
      simp [next, hc.1, hc.2, ih hs]

/-- Between the key and the value. -/
theorem foldl_separator (key : QString) :
    " : ".toList.foldl next ⟨[], key, false⟩ = ⟨key, [], false⟩ := rfl

end YmlRead

variable (key : ScannedKey) (value : ScannedValue)

theorem foldl_keyValueLine :
    (keyValueLine key value).foldl YmlRead.next ⟨[], [], false⟩ = ⟨key.text, value.text, true⟩ := by
  have hkey : ∀ c ∈ key.text, c ≠ ':' ∧ c ≠ ' ' := fun c hc =>
    ⟨(key.plain c hc).1, (key.plain c hc).2.1⟩
  have hfirst : YmlRead.next ⟨key.text, [], false⟩ value.first = ⟨key.text, [value.first], true⟩ := by
    simp [YmlRead.next, value.starts.1, value.starts.2, key.nonempty]
  rw [keyValueLine, List.foldl_append, List.foldl_append, YmlRead.foldl_key hkey, List.nil_append,
    YmlRead.foldl_separator, ScannedValue.text, List.foldl_cons, hfirst, YmlRead.foldl_readingValue]
  rfl

theorem scannedPair_eq {s : QString} (hs : '\r' ∉ s) :
    scannedPair s = ((s.foldl YmlRead.next ⟨[], [], false⟩).flag,
      (s.foldl YmlRead.next ⟨[], [], false⟩).value) := by
  have hfold := YmlRead.foldl_scanCharacter hs ⟨[], [], false⟩
  simp only at hfold
  rw [scannedPair, hfold]

theorem scannedPair_keyValueLine (hvalue : '\r' ∉ value.text) :
    scannedPair (keyValueLine key value) = (key.text, value.text) := by
  have hline : '\r' ∉ keyValueLine key value := by
    rw [keyValueLine, List.mem_append, List.mem_append, not_or, not_or]
    exact ⟨⟨fun h => (key.plain _ h).2.2 rfl, by decide⟩, hvalue⟩
  rw [scannedPair_eq hline, foldl_keyValueLine]

theorem parsedPair_keyValueLine
    (hline : trimmed (keyValueLine key value) = keyValueLine key value) :
    parsedPair (keyValueLine key value) = (key.text, value.text) := by
  rw [parsedPair, parseLine, hline, foldl_keyValueLine]

/-- The key and the value are read back, unless a loop skips carriage returns of the value or
takes blanks off; on all other lines the loops do not differ. -/
theorem scanners_read_back_and_agree :
    (∀ (scanner : Scanner) (key : ScannedKey) (value : ScannedValue),
      (scanner ≠ .parseYml → '\r' ∉ value.text) →
      (scanner = .parseYml → trimmed (keyValueLine key value) = keyValueLine key value) →
      scanner.read (keyValueLine key value) = (key.text, value.text)) ∧
    ∀ (scanner scanner' : Scanner) (line : QString), '\r' ∉ line → trimmed line = line →
      scanner.read line = scanner'.read line := by
  constructor
  · intro scanner key value hreturn hblank
    cases scanner with
    | vagrantPort | getVirtualboxVmStorage | virtualboxInterfaces =>
        exact scannedPair_keyValueLine key value (hreturn (by decide))
    | parseYml => exact parsedPair_keyValueLine key value (hblank rfl)
  · intro scanner scanner' line hline htrimmed
    have hsame (scanner : Scanner) : scanner.read line = parsedPair line := by
      cases scanner with
      | vagrantPort | getVirtualboxVmStorage | virtualboxInterfaces =>
          rw [Scanner.read, scannedPair_eq hline, parsedPair, parseLine, htrimmed]
      | parseYml => rfl
    rw [hsame, hsame]

def portKey : ScannedKey where
  text := "_CONSOLE_PORT".toList
  nonempty := List.cons_ne_nil _ _
  plain := by simp

/-- A carriage return within the value, and a blank at its end. -/
theorem not_read_back :
    Scanner.vagrantPort.read (keyValueLine portKey ⟨'9', ['\r', '8'], by decide⟩) =
      (portKey.text, ['9', '8']) ∧
    Scanner.parseYml.read (keyValueLine portKey ⟨'9', [' '], by decide⟩) = (portKey.text, ['9']) ∧
    ¬ ∀ (scanner : Scanner) (key : ScannedKey) (value : ScannedValue),
      scanner.read (keyValueLine key value) = (key.text, value.text) := by
  have hreturn : Scanner.vagrantPort.read (keyValueLine portKey ⟨'9', ['\r', '8'], by decide⟩) =
      (portKey.text, ['9', '8']) := by decide
  refine ⟨hreturn, by decide, ?_⟩
  intro all
  have hread := all .vagrantPort portKey ⟨'9', ['\r', '8'], by decide⟩
  rw [hreturn] at hread
  exact absurd hread (by decide)

end SubutaiTray.Peer
