import Mathlib.Data.List.Nodup
import SubutaiTray.Hub.SshKeyIndex

/-!
The keys after the storage is read again (`refresh_key_files`).

The files that are read are merged into the keys: a content that no key has becomes a new key at
the end. What is collected from the storage is not compared with the keys the other way round.
-/
namespace SubutaiTray.Hub.SshKeyController

/-- A public-key file of an admissible name, which can be read and ends with a newline. -/
structure PublicKeyFile extends KeyFile where
  readable : opens = true
  admissible : toKeyFile.accepted = true
  newline : text.getLast? = some '\n'

/-- The line of the file is its content. -/
theorem content_line {file : KeyFile} {line : QString} (htext : file.text = line ++ ['\n'])
    (hline : ∀ c ∈ line, c ≠ nul ∧ c ∉ ['\n', '\t', '\r', Char.ofNat 11, Char.ofNat 12]) :
    file.content = line := by
  have hnul : line.takeWhile (· ≠ nul) = line :=
    List.takeWhile_eq_self_iff.mpr fun c hc => decide_eq_true (hline c hc).1
  rw [KeyFile.content, htext, List.dropLast_concat, hnul]
  exact List.filter_eq_self.mpr fun c hc => decide_eq_true (hline c hc).2

/-- The key is that of the file, as both are now. -/
structure Names (absolutePath : QString) (key : SshKey) (file : PublicKeyFile) : Prop where
  fileName : key.fileName = file.fileName
  path : key.path = absolutePath ++ '/' :: file.fileName
  content : key.content = file.content

/-- What the keys should be after the storage is read again. -/
structure Rescanned (absolutePath : QString) (files : List PublicKeyFile) (before after : List SshKey) :
    Prop where
  once : ∀ file ∈ files, (contents after).count file.content = 1
  present : ∀ key ∈ after, ∃ file ∈ files, Names absolutePath key file
  kept : ∀ key ∈ before, (∃ file ∈ files, Names absolutePath key file) → key ∈ after

section
variable {absolutePath : QString} {keys : List SshKey} {file : PublicKeyFile}

/-- The key of a file that is new. -/
def fileKey (absolutePath : QString) (file : PublicKeyFile) : SshKey where
  fileName := file.fileName
  path := absolutePath ++ '/' :: file.fileName
  content := file.content
  envIds := []

theorem refreshKeyFile_eq (absolutePath : QString) (keys : List SshKey) (file : PublicKeyFile) :
    refreshKeyFile absolutePath keys file.toKeyFile =
      if file.content ∈ contents keys then keys else keys ++ [fileKey absolutePath file] := by
  have hany : (keys.any fun key => key.content = file.content) = true ↔ file.content ∈ contents keys := by
    rw [List.any_eq_true, contents, List.mem_map]
    simp only [decide_eq_true_eq]
  rw [refreshKeyFile, file.readable, file.admissible, Bool.and_self, if_pos rfl]
  exact if_congr hany rfl rfl

/-- What reading the files adds. -/
structure Merged (absolutePath : QString) (files : List PublicKeyFile) (before after : List SshKey) :
    Prop where
  prefixed : before <+: after
  added : ∀ key ∈ after, key ∈ before ∨ ∃ file ∈ files, Names absolutePath key file
  complete : ∀ file ∈ files, file.content ∈ contents after
  nodup : (contents before).Nodup → (contents after).Nodup

theorem Merged.next {files : List PublicKeyFile} {before : List SshKey}
    (h : Merged absolutePath files before keys) (file : PublicKeyFile) :
    Merged absolutePath (files ++ [file]) before
      (refreshKeyFile absolutePath keys file.toKeyFile) := by
  have hadded : ∀ key ∈ keys, key ∈ before ∨ ∃ file' ∈ files ++ [file], Names absolutePath key file' := by
    intro key hkey
    refine (h.added key hkey).imp_right fun ⟨file', hmem, hnames⟩ => ⟨file', ?_, hnames⟩
    exact List.mem_append_left _ hmem
  have hcomplete {after : List SshKey} (hkeys : contents keys ⊆ contents after)
      (hlast : file.content ∈ contents after) :
      ∀ file' ∈ files ++ [file], file'.content ∈ contents after := by
    intro file' hmem
    cases List.mem_append.mp hmem with
    | inl hfiles => exact hkeys (h.complete file' hfiles)
    | inr hfile =>
        rw [List.mem_singleton.mp hfile]
        exact hlast
  rw [refreshKeyFile_eq]
  split
  · rename_i hold
    exact ⟨h.prefixed, hadded, hcomplete (List.Subset.refl _) hold, h.nodup⟩
  · rename_i hnew
    have hcontents : contents (keys ++ [fileKey absolutePath file]) = contents keys ++ [file.content] :=
      List.map_append
    refine ⟨h.prefixed.trans (List.prefix_append _ _), ?_, ?_, ?_⟩
    · intro key hkey
      cases List.mem_append.mp hkey with
      | inl hold => exact hadded key hold
      | inr hlast =>
          rw [List.mem_singleton.mp hlast]
          exact .inr ⟨file, List.mem_concat_self, ⟨rfl, rfl, rfl⟩⟩
    · apply hcomplete
      · rw [hcontents]
        exact List.subset_append_left _ _
      · rw [hcontents]
        exact List.mem_concat_self
    · intro hnodup
      rw [hcontents, List.nodup_append_comm]
      exact List.nodup_cons.mpr ⟨hnew, h.nodup hnodup⟩

theorem merged_refreshKeyFiles (absolutePath : QString) (files : List PublicKeyFile)
    (before : List SshKey) :
    Merged absolutePath files before
      ((files.map PublicKeyFile.toKeyFile).foldl (refreshKeyFile absolutePath) before) := by
  induction files using List.reverseRecOn with
  | nil => exact ⟨List.prefix_refl _, fun key hkey => .inl hkey, by simp, id⟩
  | append_singleton files file ih =>
      rw [List.map_append, List.foldl_append]
      exact ih.next file

/-- The keys are those of the files that are there now, if and only if they were already: no two
had one content, and each was the key of a file that is still there as it was. -/
theorem rescanned_iff (absolutePath : QString) (files : List PublicKeyFile) (run : SshKeyController) :
    Rescanned absolutePath files run.keys
        (run.refreshKeyFiles (some ⟨absolutePath, files.map PublicKeyFile.toKeyFile⟩)).keys ↔
      (contents run.keys).Nodup ∧
        ∀ key ∈ run.keys, ∃ file ∈ files, Names absolutePath key file := by
  have hmerged := merged_refreshKeyFiles absolutePath files run.keys
  constructor
  · intro h
    have hbefore : ∀ key ∈ run.keys, ∃ file ∈ files, Names absolutePath key file :=
      fun key hkey => h.present key (hmerged.prefixed.subset hkey)
    refine ⟨?_, hbefore⟩
    rw [List.nodup_iff_count_le_one]
    intro content
    by_cases hmem : content ∈ contents run.keys
    · obtain ⟨key, hkey, rfl⟩ := List.mem_map.mp hmem
      obtain ⟨file, hfile, hnames⟩ := hbefore key hkey
      rw [hnames.content, ← h.once file hfile]
      exact (hmerged.prefixed.map SshKey.content).sublist.count_le _
    · rw [List.count_eq_zero.mpr hmem]
      exact Nat.zero_le 1
  · rintro ⟨hnodup, hbefore⟩
    refine ⟨?_, ?_, ?_⟩
    · intro file hfile
      exact List.count_eq_one_of_mem (hmerged.nodup hnodup) (hmerged.complete file hfile)
    · intro key hkey
      exact (hmerged.added key hkey).elim (hbefore key) id
    · exact fun key hkey _ => hmerged.prefixed.subset hkey

end

/-- One key, of a file that is gone. -/
def oneKey : SshKeyController :=
  { new with keys := [⟨"a.pub".toList, "/k/a.pub".toList, "ssh-rsa a".toList, []⟩] }

/-- The storage is empty and the key stays. -/
theorem not_rescanned_oneKey :
    (oneKey.refreshKeyFiles (some ⟨"/k".toList, []⟩)).keys = oneKey.keys ∧
    ¬ Rescanned "/k".toList [] oneKey.keys (oneKey.refreshKeyFiles (some ⟨"/k".toList, []⟩)).keys := by
  refine ⟨rfl, fun h => ?_⟩
  obtain ⟨file, hfile, -⟩ := h.present _ List.mem_cons_self
  exact List.not_mem_nil hfile

end SubutaiTray.Hub.SshKeyController
