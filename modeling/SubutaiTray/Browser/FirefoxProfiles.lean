import SubutaiTray.Library.Counting
import SubutaiTray.Library.Splitting
import SubutaiTray.Updater.Operations
import Mathlib.Data.List.Infix

/-!
The profiles of Firefox (`firefox_profiles`).

Every line of `profiles.ini` is looked at by itself: what has `Name=` in it is a name, and
what else has `Path=` in it is a folder. Nothing is known of sections, nor of the paths
that are absolute.
-/
namespace SubutaiTray.Browser

open Splitting Updater

/-- `QString::right` -/
def right (s : QString) (n : Int) : QString :=
  if n < 0 ∨ (s.length : Int) ≤ n then s else s.drop (s.length - n.toNat)

/-- `QTextStream::readLine` leaves out the end of the line. -/
def dropLineEnd (line : QString) : QString :=
  if line.getLast? = some '\r' then line.dropLast else line

/-- The lines of a `QTextStream` that is read to its end. -/
def streamLines (text : QString) : List QString :=
  let lines := split ['\n'] text
  (if lines.getLast? = some [] then lines.dropLast else lines).map dropLineEnd

def removeBlanks (s : QString) : QString := s.filter fun c => ¬ (c = '\n' ∨ c = '\t')

/-- `firefox_profiles_folder_path_cut` -/
def folderPathCut : OS → Nat
  | .linux => 5
  | .mac | .windows => 14

def nameKey : QString := "Name=".toList
def pathKey : QString := "Path=".toList

def addLine (os : OS) (profiles : List QString × List QString) (str : QString) :
    List QString × List QString :=
  if nameKey <:+: str then
    (profiles.1 ++ [removeBlanks (right str (str.length - 5))], profiles.2)
  else if pathKey <:+: str then
    (profiles.1, profiles.2 ++ [removeBlanks (right str (str.length - folderPathCut os))])
  else profiles

/-- `firefox_profiles`; `none` is a file that is not there or cannot be opened. -/
def firefoxProfiles (os : OS) : Option QString → List QString × List QString
  | none => ([], [])
  | some text => (streamLines text).foldl (addLine os) ([], [])

/-- The loop that searches the folder of the current profile; `none` is a read behind the
end of the second list. -/
def profileFolder (curProfile : QString) : List QString → List QString → Option QString
  | [], _ => some []
  | name :: names, folders =>
      if name = curProfile then folders.head? else profileFolder curProfile names folders.tail

/-- The directory below which the folder is looked for, as paths in the file have it. -/
def profilesDir : OS → QString
  | .linux => []
  | .mac | .windows => "Profiles/".toList

/-- What can stand in a section of a profile. -/
inductive Entry where
  | name
  | path
  | isRelative
  | other (text : QString)
  deriving DecidableEq

/-- The section of a profile: the three keys, once each and in any order, among other
entries and comments. -/
structure Profile where
  header : QString
  name : QString
  path : QString
  relative : Bool
  entries : List Entry
  isProfile : "[Profile".toList <+: header
  hasName : entries.count .name = 1
  hasPath : entries.count .path = 1
  hasRelative : entries.count .isRelative = 1
  otherEntries : ∀ text, .other text ∈ entries →
    ¬ "[".toList <+: text ∧ ¬ nameKey <+: text ∧ ¬ pathKey <+: text ∧
      ¬ "IsRelative=".toList <+: text

/-- Any other section. -/
structure OtherSection where
  header : QString
  body : List QString
  notProfile : "[".toList <+: header ∧ ¬ "[Profile".toList <+: header
  noHeader : ∀ line ∈ body, ¬ "[".toList <+: line

inductive IniSection where
  | profile (p : Profile)
  | other (s : OtherSection)

/-- The folder of a profile, below that directory. An absolute path is none. -/
def Profile.folder (os : OS) (p : Profile) : Option QString :=
  if p.relative ∧ profilesDir os <+: p.path then some (p.path.drop (profilesDir os).length)
  else none

/-- A line, with what it is for. -/
inductive Line where
  | name (p : Profile)
  | path (p : Profile)
  | plain (text : QString)

def Line.text : Line → QString
  | .name p => nameKey ++ p.name
  | .path p => pathKey ++ p.path
  | .plain text => text

def Profile.line (p : Profile) : Entry → Line
  | .name => .name p
  | .path => .path p
  | .isRelative => .plain (if p.relative then "IsRelative=1".toList else "IsRelative=0".toList)
  | .other text => .plain text

def IniSection.lines : IniSection → List Line
  | .profile p => .plain p.header :: p.entries.map p.line
  | .other s => .plain s.header :: s.body.map .plain

def IniSection.profile? : IniSection → Option Profile
  | .profile p => some p
  | .other _ => none

/-- A `profiles.ini`: sections, something before the first one, and the text in which the
lines of them all are read, with whatever line ends. -/
structure ProfilesIni where
  preamble : List QString
  sections : List IniSection
  text : QString
  noHeader : ∀ line ∈ preamble, ¬ "[".toList <+: line
  reads : streamLines text =
    (preamble.map Line.plain ++ sections.flatMap IniSection.lines).map Line.text

def ProfilesIni.lines (ini : ProfilesIni) : List Line :=
  ini.preamble.map Line.plain ++ ini.sections.flatMap IniSection.lines

def ProfilesIni.profiles (ini : ProfilesIni) : List Profile :=
  ini.sections.filterMap IniSection.profile?

/-- Both lists go through the profiles in the order of the file, so that a look-up of a
name comes to the folder of its profile. -/
structure Aligned (os : OS) (ini : ProfilesIni) (found : List QString × List QString) : Prop where
  names : found.1 = ini.profiles.map Profile.name
  folders : found.2.map some = ini.profiles.map (Profile.folder os)
  lookUp : ∀ curProfile, profileFolder curProfile found.1 found.2 =
    match ini.profiles.find? (·.name = curProfile) with
    | some p => p.folder os
    | none => some []

/-- The keys stand in no other line, and the folders are where they are looked for. -/
structure Readable (os : OS) (ini : ProfilesIni) : Prop where
  relative : ∀ p ∈ ini.profiles, p.relative = true ∧ profilesDir os <+: p.path
  noTab : ∀ p ∈ ini.profiles, '\t' ∉ p.name ∧ '\t' ∉ p.path
  path : ∀ p ∈ ini.profiles, ¬ nameKey <:+: pathKey ++ p.path
  plain : ∀ text, .plain text ∈ ini.lines →
    ¬ nameKey <:+: text ∧ ¬ pathKey <:+: text

/-! ### What a line gives -/

def nameIn (str : QString) : Option QString :=
  if nameKey <:+: str then some (removeBlanks (right str (str.length - 5))) else none

def folderIn (os : OS) (str : QString) : Option QString :=
  if nameKey <:+: str then none
  else if pathKey <:+: str then
    some (removeBlanks (right str (str.length - folderPathCut os)))
  else none

theorem foldl_addLine (os : OS) (lines : List QString) (profiles : List QString × List QString) :
    lines.foldl (addLine os) profiles =
      (profiles.1 ++ lines.filterMap nameIn, profiles.2 ++ lines.filterMap (folderIn os)) := by
  induction lines generalizing profiles with
  | nil => simp
  | cons line lines ih =>
      rw [List.foldl_cons, ih, List.filterMap_cons, List.filterMap_cons, addLine, nameIn, folderIn]
      split
      · simp
      · split <;> simp

theorem right_length_sub (s : QString) (k : Nat) :
    right s (s.length - k) = if k ≤ s.length then s.drop k else s := by
  rw [right]
  split
  · rename_i hall
    split
    · have hk : k = 0 := by omega
      rw [hk, List.drop_zero]
    · rfl
  · rename_i hpart
    rw [if_pos (by omega)]
    congr 1
    omega

theorem right_append (key value : QString) :
    right (key ++ value) ((key ++ value).length - key.length) = value := by
  rw [right_length_sub, if_pos (by simp), List.drop_left]

theorem removeBlanks_eq_self_iff {s : QString} (hline : '\n' ∉ s) :
    removeBlanks s = s ↔ '\t' ∉ s := by
  rw [removeBlanks, List.filter_eq_self]
  constructor
  · intro h htab
    simpa using h _ htab
  · intro h c hc
    have hnl : c ≠ '\n' := fun heq => hline (heq ▸ hc)
    have htab : c ≠ '\t' := fun heq => h (heq ▸ hc)
    simp [hnl, htab]

theorem nameIn_name (p : Profile) :
    nameIn (Line.name p).text = some (removeBlanks p.name) := by
  rw [nameIn, Line.text, if_pos (List.prefix_append _ _).isInfix]
  exact congrArg (fun s => some (removeBlanks s)) (right_append nameKey p.name)

theorem folderPathCut_eq (os : OS) :
    folderPathCut os = (pathKey ++ profilesDir os).length := by
  cases os <;> decide

/-- What is cut off is the key with the directory of the profiles. -/
theorem folderIn_path {os : OS} {p : Profile}
    (hname : ¬ nameKey <:+: pathKey ++ p.path) (hdir : profilesDir os <+: p.path) :
    folderIn os (Line.path p).text =
      some (removeBlanks (p.path.drop (profilesDir os).length)) := by
  obtain ⟨rest, hrest⟩ := hdir
  rw [folderIn, Line.text, if_neg hname, if_pos (List.prefix_append _ _).isInfix, ← hrest,
    List.drop_left, ← List.append_assoc, folderPathCut_eq, right_append]

/-! ### The profiles among the lines -/

def Line.name? : Line → Option Profile
  | .name p => some p
  | .path _ | .plain _ => none

def Line.path? : Line → Option Profile
  | .path p => some p
  | .name _ | .plain _ => none

theorem filterMap_ite_eq {α β : Type} [DecidableEq α] (l : List α) (a : α) (b : β) :
    l.filterMap (fun x => if x = a then some b else none) = List.replicate (l.count a) b := by
  induction l with
  | nil => rfl
  | cons x l ih =>
      by_cases hx : x = a
      · rw [List.filterMap_cons, if_pos hx, hx, List.count_cons_self, List.replicate_succ, ih]
      · rw [List.filterMap_cons, if_neg hx, List.count_cons_of_ne hx, ih]

variable (ini : ProfilesIni)

/-- Each profile is met once at its name, and once at its path. -/
theorem ProfilesIni.filterMap_lines {pick : Line → Option Profile} {key : Entry}
    (plain : ∀ text, pick (.plain text) = none)
    (picks : ∀ p e, pick (Profile.line p e) = if e = key then some p else none)
    (once : ∀ p : Profile, p.entries.count key = 1) : ini.lines.filterMap pick = ini.profiles := by
  have hplain (texts : List QString) : (texts.map Line.plain).filterMap pick = [] := by
    rw [List.filterMap_map, List.filterMap_eq_nil_iff]
    intro text htext
    exact plain text
  have hprofile (p : Profile) : (p.entries.map p.line).filterMap pick = [p] := by
    have hpick : pick ∘ p.line = fun e => if e = key then some p else none := funext (picks p)
    rw [List.filterMap_map, hpick, filterMap_ite_eq, once]
    rfl
  rw [ProfilesIni.lines, ProfilesIni.profiles, List.filterMap_append, hplain, List.nil_append]
  induction ini.sections with
  | nil => rfl
  | cons s sections ih =>
      rw [List.flatMap_cons, List.filterMap_append, ih, List.filterMap_cons]
      cases s with
      | profile p =>
          rw [IniSection.lines, List.filterMap_cons, plain, hprofile]
          rfl
      | other s =>
          rw [IniSection.lines, List.filterMap_cons, plain, hplain]
          rfl

theorem ProfilesIni.filterMap_name? : ini.lines.filterMap Line.name? = ini.profiles :=
  ini.filterMap_lines (fun _ => rfl) (fun p e => by cases e <;> rfl) fun p => p.hasName

theorem ProfilesIni.filterMap_path? : ini.lines.filterMap Line.path? = ini.profiles :=
  ini.filterMap_lines (fun _ => rfl) (fun p e => by cases e <;> rfl) fun p => p.hasPath

variable {ini}

theorem ProfilesIni.mem_lines_iff {pick : Line → Option Profile} {made : Profile → Line}
    (hlines : ini.lines.filterMap pick = ini.profiles)
    (hpick : ∀ line p, pick line = some p ↔ line = made p) {p : Profile} :
    made p ∈ ini.lines ↔ p ∈ ini.profiles := by
  rw [← hlines, List.mem_filterMap]
  constructor
  · exact fun h => ⟨made p, h, (hpick _ p).mpr rfl⟩
  · rintro ⟨line, hline, hp⟩
    rw [← (hpick line p).mp hp]
    exact hline

theorem ProfilesIni.name_mem_lines {p : Profile} :
    .name p ∈ ini.lines ↔ p ∈ ini.profiles :=
  ProfilesIni.mem_lines_iff ini.filterMap_name? fun line p => by cases line <;> simp [Line.name?]

theorem ProfilesIni.path_mem_lines {p : Profile} :
    .path p ∈ ini.lines ↔ p ∈ ini.profiles :=
  ProfilesIni.mem_lines_iff ini.filterMap_path? fun line p => by cases line <;> simp [Line.path?]

theorem notMem_of_mem_streamLines {text line : QString} (h : line ∈ streamLines text) :
    '\n' ∉ line := by
  obtain ⟨raw, hraw, rfl⟩ := List.mem_map.mp h
  have hpiece : raw ∈ split ['\n'] text := by
    split at hraw
    · exact List.mem_of_mem_dropLast hraw
    · exact hraw
  have hno : '\n' ∉ raw := by
    intro hmem
    exact not_infix_of_mem_split (List.cons_ne_nil _ _) hpiece
      ((List.singleton_infix_iff _ _).mpr hmem)
  rw [dropLineEnd]
  split
  · exact fun hmem => hno (List.mem_of_mem_dropLast hmem)
  · exact hno

theorem ProfilesIni.oneLine {line : Line} (h : line ∈ ini.lines) : '\n' ∉ line.text := by
  have hmem : line.text ∈ streamLines ini.text := by
    rw [ini.reads]
    exact List.mem_map_of_mem h
  exact notMem_of_mem_streamLines hmem

/-! ### The two lists -/

variable (os : OS)

theorem firefoxProfiles_eq (ini : ProfilesIni) :
    firefoxProfiles os (some ini.text) =
      (ini.lines.filterMap fun line => nameIn line.text,
        ini.lines.filterMap fun line => folderIn os line.text) := by
  have hreads : streamLines ini.text = ini.lines.map Line.text := ini.reads
  rw [firefoxProfiles, hreads, foldl_addLine, List.nil_append, List.nil_append,
    List.filterMap_map, List.filterMap_map]
  rfl

theorem nameIn_eq_none_iff {str : QString} : nameIn str = none ↔ ¬ nameKey <:+: str := by
  rw [nameIn]
  split <;> simp_all

/-- The names are right when no other line has the key in it, and no name a tab. -/
theorem names_eq_iff :
    (firefoxProfiles os (some ini.text)).1 = ini.profiles.map Profile.name ↔
      (∀ p ∈ ini.profiles, '\t' ∉ p.name) ∧
        (∀ p ∈ ini.profiles, ¬ nameKey <:+: pathKey ++ p.path) ∧
          ∀ text, .plain text ∈ ini.lines → ¬ nameKey <:+: text := by
  have hclean (p : Profile) (hp : p ∈ ini.profiles) :
      some p.name = nameIn (Line.name p).text ↔ '\t' ∉ p.name := by
    have hline := ini.oneLine (ini.name_mem_lines.mpr hp)
    rw [nameIn_name, Option.some_inj, eq_comm, removeBlanks_eq_self_iff]
    exact fun h => hline (List.mem_append_right _ h)
  rw [firefoxProfiles_eq, ← ini.filterMap_name?, List.map_filterMap, eq_comm,
    Counting.filterMap_eq_filterMap_iff]
  · constructor
    · intro h
      refine ⟨?_, ?_, ?_⟩
      · intro p hp
        rw [ini.filterMap_name?] at hp
        exact (hclean p hp).mp (h _ (ini.name_mem_lines.mpr hp))
      · intro p hp
        rw [ini.filterMap_name?] at hp
        exact nameIn_eq_none_iff.mp (h _ (ini.path_mem_lines.mpr hp)).symm
      · intro text htext
        exact nameIn_eq_none_iff.mp (h _ htext).symm
    · rw [ini.filterMap_name?]
      rintro ⟨hnames, hpaths, hplain⟩ line hline
      cases line with
      | name p =>
          have hp := ini.name_mem_lines.mp hline
          exact (hclean p hp).mpr (hnames p hp)
      | path p => exact (nameIn_eq_none_iff.mpr (hpaths p (ini.path_mem_lines.mp hline))).symm
      | plain text => exact (nameIn_eq_none_iff.mpr (hplain text hline)).symm
  · intro line hline hnone
    cases line with
    | name p =>
        rw [nameIn_name] at hnone
        exact absurd hnone (Option.some_ne_none _)
    | path p | plain text => rfl

theorem notMem_drop_profilesDir {os : OS} {path : QString} (hdir : profilesDir os <+: path) :
    '\t' ∉ path.drop (profilesDir os).length ↔ '\t' ∉ path := by
  obtain ⟨rest, rfl⟩ := hdir
  have hno : '\t' ∉ profilesDir os := by
    cases os <;> decide
  rw [List.drop_left, List.mem_append, or_iff_right hno]

/-- The path of a profile leads to its folder exactly when it begins with what is cut off. -/
theorem folder_eq_iff {p : Profile} (hname : ¬ nameKey <:+: pathKey ++ p.path)
    (hline : '\n' ∉ p.path) :
    some (p.folder os) = (folderIn os (Line.path p).text).map some ↔
      (p.relative = true ∧ profilesDir os <+: p.path) ∧ '\t' ∉ p.path := by
  by_cases hbelow : p.relative = true ∧ profilesDir os <+: p.path
  · have hrest : '\n' ∉ p.path.drop (profilesDir os).length :=
      fun h => hline (List.mem_of_mem_drop h)
    rw [Profile.folder, if_pos hbelow, folderIn_path hname hbelow.2, Option.map_some,
      Option.some_inj, Option.some_inj, eq_comm, removeBlanks_eq_self_iff hrest,
      notMem_drop_profilesDir hbelow.2]
    exact (and_iff_right hbelow).symm
  · rw [Profile.folder, if_neg hbelow, folderIn, Line.text, if_neg hname,
      if_pos (List.prefix_append _ _).isInfix]
    simp [hbelow]

theorem folderIn_eq_none_iff {os : OS} {str : QString} (h : ¬ nameKey <:+: str) :
    folderIn os str = none ↔ ¬ pathKey <:+: str := by
  rw [folderIn, if_neg h]
  split <;> simp_all

/-- With the names right, the folders are right when no other line has their key in it and
each path leads below the directory. -/
theorem folders_eq_iff (hpaths : ∀ p ∈ ini.profiles, ¬ nameKey <:+: pathKey ++ p.path)
    (hplain : ∀ text, .plain text ∈ ini.lines → ¬ nameKey <:+: text) :
    (firefoxProfiles os (some ini.text)).2.map some = ini.profiles.map (Profile.folder os) ↔
      (∀ p ∈ ini.profiles, (p.relative = true ∧ profilesDir os <+: p.path) ∧ '\t' ∉ p.path) ∧
        ∀ text, .plain text ∈ ini.lines → ¬ pathKey <:+: text := by
  have hpath (p : Profile) (hp : p ∈ ini.profiles) :=
    folder_eq_iff os (hpaths p hp) fun h =>
      ini.oneLine (ini.path_mem_lines.mpr hp) (List.mem_append_right _ h)
  have hfolders : ini.profiles.map (Profile.folder os) =
      ini.lines.filterMap fun line => line.path?.map (Profile.folder os) := by
    rw [← ini.filterMap_path?, List.map_filterMap]
  rw [firefoxProfiles_eq, hfolders, List.map_filterMap, eq_comm, Counting.filterMap_eq_filterMap_iff]
  · constructor
    · intro h
      refine ⟨?_, ?_⟩
      · intro p hp
        exact (hpath p hp).mp (h _ (ini.path_mem_lines.mpr hp))
      · intro text htext
        have hplainLine := (h _ htext).symm
        rw [Line.path?, Option.map_none, Option.map_eq_none_iff] at hplainLine
        exact (folderIn_eq_none_iff (hplain text htext)).mp hplainLine
    · rintro ⟨hbelow, hplainPath⟩ line hline
      cases line with
      | path p =>
          have hp := ini.path_mem_lines.mp hline
          exact (hpath p hp).mpr (hbelow p hp)
      | name p =>
          have hname : nameKey <:+: (Line.name p).text := (List.prefix_append _ _).isInfix
          rw [folderIn, if_pos hname]
          rfl
      | plain text =>
          have hnone : folderIn os text = none :=
            (folderIn_eq_none_iff (hplain text hline)).mpr (hplainPath text hline)
          rw [Line.text, hnone]
          rfl
  · intro line hline hempty
    cases line with
    | path p =>
        rw [Option.map_eq_none_iff] at hempty
        have hkey : pathKey <:+: (Line.path p).text := (List.prefix_append _ _).isInfix
        exact absurd hkey
          ((folderIn_eq_none_iff (hpaths p (ini.path_mem_lines.mp hline))).mp hempty)
    | name p | plain text => rfl

/-- A search in aligned lists is a search among the profiles. -/
theorem profileFolder_aligned {os : OS} {profiles : List Profile} {folders : List QString}
    (h : folders.map some = profiles.map (Profile.folder os)) (curProfile : QString) :
    profileFolder curProfile (profiles.map Profile.name) folders =
      match profiles.find? (·.name = curProfile) with
      | some p => p.folder os
      | none => some [] := by
  induction profiles generalizing folders with
  | nil => rfl
  | cons p profiles ih =>
      cases folders with
      | nil => exact absurd h.symm (List.cons_ne_nil _ _)
      | cons folder folders =>
          rw [List.map_cons, List.map_cons, List.cons.injEq] at h
          rw [List.map_cons, profileFolder, List.find?_cons]
          by_cases hp : p.name = curProfile
          · simp [hp, h.1]
          · simpa [hp] using ih h.2

variable (ini)

/-- The lists are aligned exactly when the keys stand in their own lines only, and every
path begins with what is cut off. -/
theorem aligned_iff_readable :
    Aligned os ini (firefoxProfiles os (some ini.text)) ↔ Readable os ini := by
  constructor
  · intro h
    obtain ⟨hnames, hpaths, hplain⟩ := (names_eq_iff os).mp h.names
    obtain ⟨hbelow, hplainPath⟩ := (folders_eq_iff os hpaths hplain).mp h.folders
    exact ⟨fun p hp => (hbelow p hp).1, fun p hp => ⟨hnames p hp, (hbelow p hp).2⟩, hpaths,
      fun text htext => ⟨hplain text htext, hplainPath text htext⟩⟩
  · intro h
    have hplain : ∀ text, .plain text ∈ ini.lines → ¬ nameKey <:+: text :=
      fun text htext => (h.plain text htext).1
    have hnames := (names_eq_iff os).mpr ⟨fun p hp => (h.noTab p hp).1, h.path, hplain⟩
    have hfolders := (folders_eq_iff os h.path hplain).mpr
      ⟨fun p hp => ⟨h.relative p hp, (h.noTab p hp).2⟩, fun text htext => (h.plain text htext).2⟩
    refine ⟨hnames, hfolders, ?_⟩
    intro curProfile
    rw [hnames]
    exact profileFolder_aligned hfolders curProfile

/-- One profile, whose path has the key of names in it. -/
def workProfile : Profile where
  header := "[Profile0]".toList
  name := "work".toList
  path := "a.Name=work".toList
  relative := true
  entries := [.name, .isRelative, .path]
  isProfile := by decide
  hasName := by decide
  hasPath := by decide
  hasRelative := by decide
  otherEntries := by
    intro text h
    exact absurd h (by simp)

def workIni : ProfilesIni where
  preamble := []
  sections := [.profile workProfile]
  text := "[Profile0]\nName=work\nIsRelative=1\nPath=a.Name=work\n".toList
  noHeader := fun line h => absurd h List.not_mem_nil
  reads := by decide +kernel

/-- Two names, no folder: the search reads behind the end. -/
theorem not_aligned_work :
    firefoxProfiles .linux (some workIni.text) = (["work".toList, "a.Name=work".toList], []) ∧
      ¬ Aligned .linux workIni (firefoxProfiles .linux (some workIni.text)) := by
  have hfound : firefoxProfiles .linux (some workIni.text) =
      (["work".toList, "a.Name=work".toList], []) := by
    decide +kernel
  refine ⟨hfound, ?_⟩
  intro h
  have hlength := congrArg List.length h.folders
  rw [hfound] at hlength
  exact absurd hlength (by decide)

end SubutaiTray.Browser
