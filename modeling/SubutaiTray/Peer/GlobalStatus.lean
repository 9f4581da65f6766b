import SubutaiTray.Peer.StatusLine

/-!
The list of local peers that `vagrant_update_information` takes from the output of
`vagrant global-status`.

Every line of the output is parsed into the same variables, and the provider and the directory
are looked at after every line. A line of less than five words leaves both as they were.
-/
namespace SubutaiTray.Peer

open Installer

/-- `VagrantProvider::ProviderToVal` -/
def Provider.val : Provider → QString
  | .virtualbox => "virtualbox".toList
  | .vmwareDesktop => "vmware_desktop".toList
  | .hyperv => "hyperv".toList
  | .parallels => "parallels".toList
  | .libvirt => "libvirt".toList

def toNativeSeparators (windows : Bool) (path : QString) : QString :=
  if windows then path.map fun c => if c = '/' then '\\' else c else path

structure Disk where
  dirExists : QString → Bool
  fileExists : QString → Bool

/-- `QDir::separator` -/
def separator (windows : Bool) : QString := if windows then ['\\'] else ['/']

def generatedFilePath (windows : Bool) (directory : QString) : QString :=
  directory ++ separator windows ++ ".vagrant".toList ++ separator windows ++ "generated.yml".toList

/-- The directory is there, and the plugin has left its file in it. -/
def Disk.qualifies (disk : Disk) (windows : Bool) (directory : QString) : Bool :=
  disk.dirExists directory && disk.fileExists (generatedFilePath windows directory)

/-- The machine on which the tray runs. -/
structure StatusHost where
  letters : Letters
  windows : Bool
  current : Provider

namespace StatusHost

variable (host : StatusHost) (disk : Disk)

/-- What is appended to the list after a line. -/
def found (parsed : StatusArgs) : Option QString :=
  let directory := fromNativeSeparators host.windows parsed.directory
  if parsed.provider = host.current.val ∧ disk.qualifies host.windows directory = true then
    some (toNativeSeparators host.windows directory)
  else none

def listPeers (indexState indexDirectory : Int) : StatusArgs → List QString → Option (List QString)
  | _, [] => some []
  | args, line :: lines =>
      match parseStatusLine host.letters indexState indexDirectory args line with
      | none => none
      | some parsed =>
          (listPeers indexState indexDirectory
            { parsed with directory := fromNativeSeparators host.windows parsed.directory } lines).map
              fun out => (host.found disk parsed).toList ++ out

/-- The columns are those of the first line; -1 stands for a word that is not there. -/
def column (word : QString) (out : List QString) : Int :=
  match P2P.indexOf word (out.headD []) with
  | some i => i
  | none => -1

/-- The lines of the result; the bridges are read elsewhere. -/
def vagrantUpdateInformation (out : List QString) : Option (List QString) :=
  host.listPeers disk (column "state".toList out) (column "directory".toList out)
    ⟨[], [], [], [], []⟩ out

end StatusHost

/-! ## The table and the lines around it -/

/-- A row of the table, or a line of the header, of separation or of explanation. -/
inductive StatusOutput where
  | row (row : StatusRow)
  | other (text : QString)

def StatusOutput.text : StatusOutput → QString
  | .row entry => entry.text
  | .other text => text

/-- The third word of a line of at least five, else the one before. -/
def providerAfter (provider line : QString) : QString :=
  match words line with
  | _ :: _ :: third :: _ :: _ :: _ => third
  | _ => provider

namespace StatusHost

variable (host : StatusHost)

/-- What is to be listed of a line. -/
def peer (disk : Disk) : StatusOutput → Option QString
  | .row row =>
      if row.provider = host.current.val ∧
          disk.qualifies host.windows (fromNativeSeparators host.windows row.directory) = true then
        some (toNativeSeparators host.windows row.directory)
      else none
  | .other _ => none

/-- A row of the current provider has its directory where it is read, and any other line comes
with another provider. -/
def LineHarmless (indexDirectory : Int) (provider : QString) : StatusOutput → Prop
  | .row row => Searchable host.letters row.text ∧
      (row.provider = host.current.val → row.Readable host.letters ∧
        ((words row.text).length ≠ 5 → row.InColumn indexDirectory))
  | .other text => Searchable host.letters text ∧ providerAfter provider text ≠ host.current.val

def Harmless (indexDirectory : Int) : QString → List StatusOutput → Prop
  | _, [] => True
  | provider, line :: lines =>
      host.LineHarmless indexDirectory provider line ∧
        Harmless indexDirectory (providerAfter provider line.text) lines

end StatusHost

theorem fromNativeSeparators_eq (windows : Bool) (letters : Letters) :
    ∃ f : Char → Char, (∀ c, isSpace (f c) = isSpace c) ∧
      (∀ c, letters.isLetterOrNumber (f c) = letters.isLetterOrNumber c) ∧
      (∀ path, toNativeSeparators windows path = path.map f) ∧
      ∀ path, toNativeSeparators windows (fromNativeSeparators windows path) = path.map f := by
  cases windows with
  | false =>
      exact ⟨id, fun _ => rfl, fun _ => rfl, fun path => (List.map_id path).symm,
        fun path => (List.map_id path).symm⟩
  | true =>
      refine ⟨fun c => if c = '/' then '\\' else c, ?_, ?_, fun _ => rfl, ?_⟩
      · intro c
        dsimp only
        by_cases hc : c = '/'
        · rw [if_pos hc, hc]
          decide
        · rw [if_neg hc]
      · intro c
        dsimp only
        by_cases hc : c = '/'
        · rw [if_pos hc, hc, letters.slash, letters.backslash]
        · rw [if_neg hc]
      · intro path
        simp only [toNativeSeparators, fromNativeSeparators, if_true, List.map_map]
        refine List.map_congr_left fun c _ => ?_
        by_cases hc : c = '\\'
        · simp [hc]
        · simp [hc]

theorem provider_parseStatusLine {letters : Letters} {indexState indexDirectory : Int}
    {args parsed : StatusArgs} {line : QString}
    (h : parseStatusLine letters indexState indexDirectory args line = some parsed) :
    parsed.provider = providerAfter args.provider line := by
  rw [parseStatusLine] at h
  rw [providerAfter]
  generalize words line = found at h ⊢
  rcases found with _ | ⟨id, _ | ⟨name, _ | ⟨provider, _ | ⟨state, _ | ⟨word, rest⟩⟩⟩⟩⟩
  · cases h
    rfl
  · cases h
    rfl
  · cases h
    rfl
  · cases h
    rfl
  · cases h
    rfl
  · dsimp only at h
    by_cases hrest : rest = []
    · rw [if_pos hrest] at h
      obtain ⟨directory, -, rfl⟩ := Option.map_eq_some_iff.mp h
      rfl
    · rw [if_neg hrest] at h
      cases h
      rfl

theorem StatusRow.providerAfter_text (row : StatusRow) (provider : QString) :
    providerAfter provider row.text = row.provider := by
  obtain ⟨hpos, hpos'⟩ := row.length_words_pos
  obtain ⟨a, as, ha⟩ := List.exists_cons_of_length_pos hpos
  obtain ⟨b, bs, hb⟩ := List.exists_cons_of_length_pos hpos'
  rw [providerAfter, row.words_text, ha, hb]
  cases as with
  | nil => rfl
  | cons _ _ => rfl

/-! ## Whole outputs -/

/-- Every directory is the one of a peer. -/
def everywhere : Disk where
  dirExists _ := true
  fileExists _ := true

namespace StatusHost

variable {host : StatusHost} {disk : Disk} {indexState indexDirectory : Int} {args parsed : StatusArgs}

theorem found_everywhere (parsed : StatusArgs) :
    host.found everywhere parsed =
      if parsed.provider = host.current.val then
        some (toNativeSeparators host.windows (fromNativeSeparators host.windows parsed.directory))
      else none := by
  simp [found, everywhere, Disk.qualifies]

theorem peer_everywhere (entry : StatusRow) :
    host.peer everywhere (.row entry) =
      if entry.provider = host.current.val then some (toNativeSeparators host.windows entry.directory)
      else none := by
  simp [peer, everywhere, Disk.qualifies]

/-- After a harmless line the list has grown as it is to. -/
theorem found_of_harmless {line : StatusOutput} (h : host.LineHarmless indexDirectory args.provider line) :
    ∃ parsed, parseStatusLine host.letters indexState indexDirectory args line.text = some parsed ∧
      host.found disk parsed = host.peer disk line := by
  cases line with
  | row entry =>
      obtain ⟨hsearch, hread⟩ := h
      by_cases hprovider : entry.provider = host.current.val
      · obtain ⟨hreadable, hcolumn⟩ := hread hprovider
        obtain ⟨state, hparse, -⟩ := @StatusRow.parse_readable entry host.letters indexState indexDirectory
          args hreadable hcolumn
        obtain ⟨f, -, -, hnative, hboth⟩ := fromNativeSeparators_eq host.windows host.letters
        refine ⟨_, hparse, ?_⟩
        rw [found, peer, hboth, hnative]
      · obtain ⟨parsed, hparsed⟩ := Option.isSome_iff_exists.mp
          ((@parseStatusLine_isSome_iff host.letters indexState indexDirectory args entry.text).mpr hsearch)
        refine ⟨parsed, hparsed, ?_⟩
        have hafter := provider_parseStatusLine hparsed
        rw [entry.providerAfter_text] at hafter
        rw [found, peer, hafter, if_neg (fun hboth => hprovider hboth.1),
          if_neg (fun hboth => hprovider hboth.1)]
  | other text =>
      obtain ⟨parsed, hparsed⟩ := Option.isSome_iff_exists.mp
        ((@parseStatusLine_isSome_iff host.letters indexState indexDirectory args text).mpr h.1)
      refine ⟨parsed, hparsed, ?_⟩
      have hafter := provider_parseStatusLine hparsed
      rw [found, peer, hafter, if_neg (fun hboth => h.2 hboth.1)]

theorem listPeers_of_harmless {lines : List StatusOutput}
    (h : host.Harmless indexDirectory args.provider lines) :
    host.listPeers disk indexState indexDirectory args (lines.map StatusOutput.text) =
      some (lines.filterMap (host.peer disk)) := by
  induction lines generalizing args with
  | nil => rfl
  | cons line lines ih =>
      obtain ⟨hline, hlines⟩ := h
      obtain ⟨parsed, hparsed, hfound⟩ := @found_of_harmless host disk indexState indexDirectory args line hline
      rw [← provider_parseStatusLine hparsed] at hlines
      rw [List.filterMap_eq_flatMap_toList, List.flatMap_cons, ← List.filterMap_eq_flatMap_toList,
        List.map_cons, listPeers, hparsed]
      dsimp only
      have hrest := @ih { parsed with directory := fromNativeSeparators host.windows parsed.directory } hlines
      rw [hrest, Option.map_some, hfound]

/-- Where every directory qualifies, a row of the current provider is not skipped. -/
theorem length_peer_le {line : StatusOutput}
    (hparse : parseStatusLine host.letters indexState indexDirectory args line.text = some parsed) :
    (host.peer everywhere line).toList.length ≤ (host.found everywhere parsed).toList.length := by
  have hafter := provider_parseStatusLine hparse
  cases line with
  | row entry =>
      rw [StatusOutput.text, entry.providerAfter_text] at hafter
      rw [found_everywhere, peer_everywhere, hafter]
      split <;> exact Nat.le_refl _
  | other text => exact Nat.zero_le _

theorem length_filterMap_peer_le {lines : List StatusOutput} {out : List QString}
    (h : host.listPeers everywhere indexState indexDirectory args (lines.map StatusOutput.text) = some out) :
    (lines.filterMap (host.peer everywhere)).length ≤ out.length := by
  induction lines generalizing args out with
  | nil => exact Nat.zero_le _
  | cons line lines ih =>
      rw [List.map_cons, listPeers] at h
      split at h
      · cases h
      · rename_i parsed hparsed
        obtain ⟨rest, hrest, rfl⟩ := Option.map_eq_some_iff.mp h
        rw [List.filterMap_eq_flatMap_toList, List.flatMap_cons, ← List.filterMap_eq_flatMap_toList,
          List.length_append, List.length_append]
        exact Nat.add_le_add (length_peer_le hparsed) (ih hrest)

/-- The line of a row that is listed as it is, or of no row and not listed. -/
theorem harmless_of_found {line : StatusOutput}
    (hparse : parseStatusLine host.letters indexState indexDirectory args line.text = some parsed)
    (hfound : host.found everywhere parsed = host.peer everywhere line) :
    host.LineHarmless indexDirectory args.provider line := by
  have hafter := provider_parseStatusLine hparse
  have hsearch := (parseStatusLine_isSome_iff args line.text).mp (Option.isSome_iff_exists.mpr ⟨_, hparse⟩)
  cases line with
  | row entry =>
      refine ⟨hsearch, fun hprovider => ?_⟩
      rw [StatusOutput.text, entry.providerAfter_text] at hafter
      obtain ⟨f, hspace, hletters, hnative, hboth⟩ := fromNativeSeparators_eq host.windows host.letters
      rw [found_everywhere, peer_everywhere, hafter, if_pos hprovider, if_pos hprovider, hboth, hnative,
        Option.some.injEq] at hfound
      exact entry.readable_of_parse hspace hletters hparse hfound
  | other text =>
      refine ⟨hsearch, fun hprovider => ?_⟩
      rw [StatusOutput.text, hprovider] at hafter
      rw [found_everywhere, if_pos hafter] at hfound
      cases hfound

theorem harmless_of_listPeers {lines : List StatusOutput}
    (h : host.listPeers everywhere indexState indexDirectory args (lines.map StatusOutput.text) =
      some (lines.filterMap (host.peer everywhere))) :
    host.Harmless indexDirectory args.provider lines := by
  induction lines generalizing args with
  | nil => trivial
  | cons line lines ih =>
      rw [List.map_cons, listPeers] at h
      split at h
      · cases h
      · rename_i parsed hparsed
        obtain ⟨rest, hrest, hout⟩ := Option.map_eq_some_iff.mp h
        rw [List.filterMap_eq_flatMap_toList, List.flatMap_cons, ← List.filterMap_eq_flatMap_toList] at hout
        have hlength := congrArg List.length hout
        have hle := length_peer_le hparsed
        have hle' := length_filterMap_peer_le hrest
        rw [List.length_append, List.length_append] at hlength
        obtain ⟨hhead, htail⟩ := List.append_inj hout (by omega)
        have hfound := congrArg List.head? hhead
        rw [Option.head?_toList, Option.head?_toList] at hfound
        refine ⟨harmless_of_found hparsed hfound, ?_⟩
        rw [← provider_parseStatusLine hparsed]
        rw [htail] at hrest
        exact @ih { parsed with directory := fromNativeSeparators host.windows parsed.directory } hrest

end StatusHost

/-- A table of one row, with the line behind it. -/
def oneRow : List StatusOutput :=
  [.other "id       name    provider   state   directory".toList,
    .other "---------------------------------------------".toList,
    .row
      { hyphenRow with
        directory := "/home/x/peer".toList
        absolute := ⟨'/', "home/x/peer".toList, by decide, .inl rfl⟩ },
    .other " ".toList]

end SubutaiTray.Peer
