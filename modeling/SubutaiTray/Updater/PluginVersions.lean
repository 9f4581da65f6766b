import SubutaiTray.Library.Splitting
import SubutaiTray.Updater.BoxVersions

/-!
When a plugin of Vagrant has an update (`CUpdaterComponentVAGRANT_SUBUTAI` and the others).

The installed version is the second word of the first row of `vagrant plugin list` that begins with
the name of the plugin, without its brackets. Older versions of Vagrant write `name (version)`, newer
ones `name (version, scope)`.
-/
namespace SubutaiTray.Updater

open Splitting Installer

/-- `remove(QRegularExpression("/[^0-9.]/g"))`: the slashes belong to the pattern. -/
def removeSlashed : QString → QString
  | '/' :: c :: '/' :: 'g' :: s =>
      if c.isDigit ∨ c = '.' then '/' :: removeSlashed (c :: '/' :: 'g' :: s) else removeSlashed s
  | c :: s => c :: removeSlashed s
  | [] => []

def pluginEntry (s : QString) : Option (QString × QString) :=
  match split [' '] s with
  | name :: version :: _ => some (name, removeSlashed version)
  | _ => none

def vagrantPluginsList (res : SystemCallRes) : List (QString × QString) :=
  if res.exitCode ≠ 0 ∨ res.res ≠ .success then [] else res.out.filterMap pluginEntry

/-- The first character goes, a line end, and the last character. -/
def removeBrackets (version : QString) : QString :=
  if version.length ≥ 2 then
    let version := version.drop 1
    let lineEnd := version.getLast?.any fun c => decide (c = '\r' ∨ c = '\t' ∨ c = '\n')
    (if lineEnd then version.dropLast else version).dropLast
  else version

/-- `vagrant_plugin_version`, `vagrantVersion` being what `vagrant_version` found. -/
def vagrantPluginVersion (vagrantVersion : QString) (res : SystemCallRes) (vagrantPlugin : QString) :
    SystemCallWrapperError × QString :=
  if vagrantVersion = undefinedVersion then (.createProcess, "Install Vagrant first".toList)
  else
    match (vagrantPluginsList res).find? fun plugin => plugin.1 = vagrantPlugin with
    | none => (.createProcess, undefinedVersion)
    | some plugin => (.success, removeBrackets plugin.2)

/-- `update_available_internal` of the plugins; `newer` compares the installed version with the one in
the cloud. -/
def pluginUpdateAvailable (newer : QString → QString → Bool) (vagrantPlugin : QString)
    (vagrantVersion : QString) (res : SystemCallRes) (cloudVersion : QString) : Bool :=
  let (res, version) := vagrantPluginVersion vagrantVersion res vagrantPlugin
  if version = undefinedVersion then true
  else if res ≠ .success then false
  else if cloudVersion = undefinedVersion ∨ cloudVersion = [] then false
  else newer version cloudVersion

def vagrantSubutaiUpdateAvailable : QString → SystemCallRes → QString → Bool :=
  pluginUpdateAvailable textLess "vagrant-subutai".toList

def vagrantParallelsUpdateAvailable : QString → SystemCallRes → QString → Bool :=
  pluginUpdateAvailable textLess "vagrant-parallels".toList

def vagrantVmwareUpdateAvailable : QString → SystemCallRes → QString → Bool :=
  pluginUpdateAvailable textLess "vagrant-vmware-desktop".toList

def vagrantLibvirtUpdateAvailable : QString → SystemCallRes → QString → Bool :=
  pluginUpdateAvailable textLess "vagrant-libvirt".toList

def otherVersion (version cloudVersion : QString) : Bool := decide (cloudVersion ≠ version)

/-- Here any other version is an update. -/
def vagrantVbguestUpdateAvailable : QString → SystemCallRes → QString → Bool :=
  pluginUpdateAvailable otherVersion "vagrant-vbguest".toList

/-! ## What the command prints -/

/-- A row of `vagrant plugin list`; older versions of Vagrant write no scope. -/
structure PluginRow where
  name : RowWord
  version : RowWord
  noSlash : '/' ∉ version.str
  scope : Option QString
  carriageReturn : Bool

def PluginRow.text (row : PluginRow) : QString :=
  row.name.str ++ [' ', '('] ++ row.version.str ++
    row.scope.elim [] (fun scope => [',', ' '] ++ scope) ++ ')' ::
      if row.carriageReturn then ['\r'] else []

/-- Below a row may stand lines that begin with a blank, about its constraints. -/
inductive PluginLine where
  | plugin (row : PluginRow)
  | constraint (text : QString)

def PluginLine.text : PluginLine → QString
  | .plugin row => row.text
  | .constraint text => ' ' :: text

/-- The version, if the line is a row of the plugin. -/
def PluginLine.versionOf (vagrantPlugin : QString) : PluginLine → Option QString
  | .plugin row => if row.name.str = vagrantPlugin then some row.version.str else none
  | .constraint _ => none

/-- The version in the first row of the plugin. -/
def installedVersion (vagrantPlugin : QString) (lines : List PluginLine) : Option QString :=
  lines.findSome? fun line => line.versionOf vagrantPlugin

def pluginsRes (lines : List PluginLine) : SystemCallRes :=
  { res := .success, out := lines.map PluginLine.text, exitCode := 0 }

/-! ## The rows are read back -/

theorem removeSlashed_of_notMem {s : QString} (h : '/' ∉ s) : removeSlashed s = s := by
  fun_induction removeSlashed s with
  | case1 c s hplain ih => exact absurd List.mem_cons_self h
  | case2 c s hplain ih => exact absurd List.mem_cons_self h
  | case3 c s hnot ih => rw [ih fun hmem => h (List.mem_cons_of_mem c hmem)]
  | case4 => rfl

/-- What stands behind the version in its word. -/
def PluginRow.ending (row : PluginRow) : QString :=
  match row.scope with
  | none => ')' :: if row.carriageReturn then ['\r'] else []
  | some _ => [',']

theorem PluginRow.noBlank_ending (row : PluginRow) : ' ' ∉ row.ending ∧ '/' ∉ row.ending := by
  rw [ending]
  cases row.scope with
  | none => cases row.carriageReturn <;> decide
  | some scope =>
      dsimp only
      decide

theorem pluginEntry_row (row : PluginRow) :
    pluginEntry row.text = some (row.name.str, '(' :: (row.version.str ++ row.ending)) := by
  have hname : ' ' ∉ row.name.str := fun hmem => (row.name.plain ' ' hmem).1 rfl
  have hversion : ' ' ∉ row.version.str := fun hmem => (row.version.plain ' ' hmem).1 rfl
  have hword : ' ' ∉ '(' :: (row.version.str ++ row.ending) := by
    rw [List.mem_cons, List.mem_append, not_or, not_or]
    exact ⟨by decide, hversion, row.noBlank_ending.1⟩
  have hslash : '/' ∉ '(' :: (row.version.str ++ row.ending) := by
    rw [List.mem_cons, List.mem_append, not_or, not_or]
    exact ⟨by decide, row.noSlash, row.noBlank_ending.2⟩
  -- Either the word ends the row, or a blank and the scope follow.
  have hsecond : ∃ words, split [' '] row.text =
      row.name.str :: ('(' :: (row.version.str ++ row.ending)) :: words := by
    cases hscope : row.scope with
    | none =>
        refine ⟨[], ?_⟩
        have htext : row.text = row.name.str ++ ([' '] ++ '(' :: (row.version.str ++ row.ending)) := by
          rw [PluginRow.text, PluginRow.ending, hscope]
          simp
        rw [htext, split_append_sep hname [], split_of_notMem hword]
    | some scope =>
        have htext : row.text = row.name.str ++ ([' '] ++ (('(' :: (row.version.str ++ row.ending)) ++
            ([' '] ++ (scope ++ ')' :: if row.carriageReturn then ['\r'] else [])))) := by
          rw [PluginRow.text, PluginRow.ending, hscope]
          simp
        rw [htext, split_append_sep hname [], split_append_sep hword []]
        exact ⟨_, rfl⟩
  obtain ⟨words, hwords⟩ := hsecond
  rw [pluginEntry, hwords]
  dsimp only
  rw [removeSlashed_of_notMem hslash]

theorem pluginEntry_constraint (text : QString) :
    ∃ version, pluginEntry (' ' :: text) = some ([], version) := by
  have hsplit : split [' '] (' ' :: text) = [] :: split [' '] text :=
    split_sep_append (List.cons_ne_nil _ _) text
  obtain ⟨word, words, hwords⟩ := List.exists_cons_of_ne_nil (split_ne_nil [' '] text)
  rw [pluginEntry, hsplit, hwords]
  exact ⟨_, rfl⟩

theorem removeBrackets_row (row : PluginRow) :
    removeBrackets ('(' :: (row.version.str ++ row.ending)) = row.version.str := by
  have hlength : ('(' :: (row.version.str ++ row.ending)).length ≥ 2 := by
    have hpos := List.length_pos_of_ne_nil row.version.ne_nil
    rw [List.length_cons, List.length_append]
    omega
  rw [removeBrackets, if_pos hlength, List.drop_one, List.tail_cons, PluginRow.ending]
  cases row.scope with
  | none =>
      cases row.carriageReturn with
      | false => simp
      | true =>
          have hsplit : row.version.str ++ [')', '\r'] = (row.version.str ++ [')']) ++ ['\r'] := by simp
          simp only [if_true]
          rw [hsplit]
          simp
  | some scope => simp

theorem vagrantPluginVersion_eq {vagrantVersion vagrantPlugin : QString}
    (hvagrant : vagrantVersion ≠ undefinedVersion) (hplugin : vagrantPlugin ≠ [])
    (lines : List PluginLine) :
    vagrantPluginVersion vagrantVersion (pluginsRes lines) vagrantPlugin =
      (installedVersion vagrantPlugin lines).elim (.createProcess, undefinedVersion)
        fun version => (.success, version) := by
  have hlist : vagrantPluginsList (pluginsRes lines) =
      (lines.map PluginLine.text).filterMap pluginEntry := rfl
  rw [vagrantPluginVersion, if_neg hvagrant, hlist, installedVersion]
  induction lines with
  | nil => rfl
  | cons line lines ih =>
      rw [List.map_cons]
      cases line with
      | plugin row =>
          rw [PluginLine.text, List.filterMap_cons_some (pluginEntry_row row), List.find?_cons,
            List.findSome?_cons, PluginLine.versionOf]
          by_cases hname : row.name.str = vagrantPlugin
          · rw [if_pos hname, decide_eq_true hname]
            exact congrArg (Prod.mk SystemCallWrapperError.success) (removeBrackets_row row)
          · rw [if_neg hname, decide_eq_false hname]
            exact ih rfl
      | constraint text =>
          obtain ⟨version, hentry⟩ := pluginEntry_constraint text
          rw [PluginLine.text, List.filterMap_cons_some hentry, List.find?_cons, List.findSome?_cons,
            PluginLine.versionOf, decide_eq_false (Ne.symm hplugin)]
          exact ih rfl

/-! ## The decision -/

/-- A plugin that is not in the list is always to be installed. -/
theorem pluginUpdateAvailable_eq {newer : QString → QString → Bool} {vagrantVersion vagrantPlugin : QString}
    (hvagrant : vagrantVersion ≠ undefinedVersion) (hplugin : vagrantPlugin ≠ [])
    {lines : List PluginLine} {installed : Option Version} {cloud : Version}
    (hinstalled : installedVersion vagrantPlugin lines = installed.map Version.text) :
    pluginUpdateAvailable newer vagrantPlugin vagrantVersion (pluginsRes lines) cloud.text =
      installed.elim true fun version => newer version.text cloud.text := by
  rw [pluginUpdateAvailable, vagrantPluginVersion_eq hvagrant hplugin, hinstalled]
  cases installed with
  | none => rfl
  | some version =>
      dsimp only [Option.map_some, Option.elim_some]
      rw [if_neg version.text_ne_undefined, if_neg (not_not.mpr rfl),
        if_neg fun hor => hor.elim cloud.text_ne_undefined cloud.text_ne_nil]

/-- A plugin has an update when the version in the cloud comes after the installed one digit by digit
and part by part; the plugin of VirtualBox has one when the versions differ. -/
theorem pluginUpdateAvailable_iff {vagrantVersion vagrantPlugin : QString}
    (hvagrant : vagrantVersion ≠ undefinedVersion) (hplugin : vagrantPlugin ≠ [])
    {lines : List PluginLine} {installed : Option Version} {cloud : Version}
    (hinstalled : installedVersion vagrantPlugin lines = installed.map Version.text) :
    (pluginUpdateAvailable textLess vagrantPlugin vagrantVersion (pluginsRes lines) cloud.text = true ↔
      ∀ version ∈ installed, version.parts < cloud.parts) ∧
    (pluginUpdateAvailable otherVersion vagrantPlugin vagrantVersion (pluginsRes lines) cloud.text = true ↔
      ∀ version ∈ installed, cloud.text ≠ version.text) := by
  rw [pluginUpdateAvailable_eq hvagrant hplugin hinstalled,
    pluginUpdateAvailable_eq hvagrant hplugin hinstalled]
  cases installed with
  | none => exact ⟨iff_of_true rfl (fun _ h => absurd h (Option.not_mem_none _)),
      iff_of_true rfl fun _ h => absurd h (Option.not_mem_none _)⟩
  | some version =>
      simp only [Option.elim_some, Option.mem_some_iff, forall_eq']
      exact ⟨textLess_text version cloud, decide_eq_true_iff⟩

def vagrantSubutai : RowWord := .ofAll "vagrant-subutai".toList (by decide) (by decide +kernel)

def nineWord : RowWord := .ofAll "9.0.0".toList (by decide) (by decide +kernel)

/-- As newer versions of Vagrant print it. -/
def subutaiRow : PluginRow where
  name := vagrantSubutai
  version := nineWord
  noSlash := by decide
  scope := some "global".toList
  carriageReturn := true

theorem pluginUpdateAvailable_nine :
    installedVersion vagrantSubutai.str [.plugin subutaiRow] = (some versionNine).map Version.text ∧
      (pluginUpdateAvailable textLess vagrantSubutai.str "2.2.3".toList (pluginsRes [.plugin subutaiRow])
        versionTen.text = true ↔ ∀ version ∈ some versionNine, version.parts < versionTen.parts) ∧
      (pluginUpdateAvailable otherVersion vagrantSubutai.str "2.2.3".toList
        (pluginsRes [.plugin subutaiRow]) versionTen.text = true ↔
          ∀ version ∈ some versionNine, versionTen.text ≠ version.text) :=
  ⟨by decide, pluginUpdateAvailable_iff (by decide) (by decide) (by decide)⟩

end SubutaiTray.Updater
