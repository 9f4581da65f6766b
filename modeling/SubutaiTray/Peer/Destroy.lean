import SubutaiTray.Peer.Logs

/-!
Destroying a peer.

Of the many files of a directory only two decide about its removal: the marker
`destroy_finished`, and the first file that is taken for the log of `destroy`. All
other rounds of the loop leave both alone. The log which the terminal wrote is
that first file only if its name has no second underscore, which is up to the
name of the peer.
-/
namespace SubutaiTray.Peer

open Splitting

def destroy : QString := "destroy".toList

/-- The marker that the terminal leaves when `destroy` is over. -/
def File.isMarker (f : File) : Bool := !f.isDir && f.fileName = "destroy_finished".toList

/-- What `check_logs` takes for the log of `destroy`. -/
def firstLog (files : List File) : Option File := files.find? (File.isLogOf destroy)

theorem File.isLogOf_iff {command : QString} {f : File} :
    f.isLogOf command = true ↔
      f.isDir = false ∧ ∃ x, split ['_'] f.fileName = [x, command] := by
  rw [isLogOf, Bool.and_eq_true, Bool.not_eq_true']
  apply and_congr_right
  intro _
  split
  · rename_i x c hsplit
    rw [hsplit, decide_eq_true_iff]
    constructor
    · intro h
      exact ⟨x, by rw [h]⟩
    · intro h
      obtain ⟨y, hy⟩ := h
      exact (List.cons.inj (List.cons.inj hy).2).1
  · rename_i hother
    apply iff_of_false Bool.false_ne_true
    intro h
    obtain ⟨x, hx⟩ := h
    exact hother x command hx

theorem File.isMarker_iff {f : File} :
    f.isMarker = true ↔
      f.isDir = false ∧ split ['_'] f.fileName = [destroy, "finished".toList] := by
  rw [isMarker, Bool.and_eq_true, Bool.not_eq_true', decide_eq_true_iff, split_eq_pair_iff]
  apply and_congr_right
  intro _
  constructor
  · intro h
    exact ⟨h, by decide, by decide⟩
  · intro h
    exact h.1

theorem File.not_isLogOf_of_split {command c x : QString} {f : File}
    (h : split ['_'] f.fileName = [x, c]) (hne : c ≠ command) : f.isLogOf command = false := by
  rw [← Bool.not_eq_true, File.isLogOf_iff, h]
  intro hlog
  obtain ⟨y, hy⟩ := hlog.2
  exact hne (List.cons.inj (List.cons.inj hy).2).1

theorem firstLog_remove {g : File} (h : ∀ f : File, f.fileName = g.fileName → f.isLogOf destroy = false)
    (files : List File) : firstLog (g.remove files) = firstLog files := by
  rw [File.remove]
  split
  · rw [firstLog, List.find?_filter, firstLog]
    congr 1
    funext f
    by_cases hname : f.fileName = g.fileName
    · simp [h f hname]
    · simp [hname]
  · rfl

theorem firstLog_getErrorMessages {command : QString} (h : command ≠ destroy) (files : List File) :
    firstLog (getErrorMessages files command).2 = firstLog files := by
  rw [getErrorMessages]
  split
  · rfl
  · rename_i log hfind
    obtain ⟨-, x, hx⟩ := File.isLogOf_iff.mp (List.find?_some hfind)
    apply firstLog_remove
    intro f hname
    exact File.not_isLogOf_of_split (hname ▸ hx) h

def foundErrors (files : List File) : QString :=
  match firstLog files with
  | none => []
  | some log => if log.opens then removeEscapes log.content else []

theorem getErrorMessages_destroy (files : List File) :
    (getErrorMessages files destroy).1 = foundErrors files := by
  rw [getErrorMessages, foundErrors, firstLog]
  cases files.find? (File.isLogOf destroy) with
  | none => rfl
  | some log =>
      dsimp only
      split <;> rfl

/-- What the round of a marker tells the user. -/
theorem finishedWith_mem_notices_iff (peer command errorMessage messages : QString) :
    Notice.finishedWith peer destroy messages ∈
        (if command = "ssh".toList then []
        else if errorMessage.isEmpty then [.finished peer command]
        else [.finishedWith peer command errorMessage] : List Notice) ↔
      command = destroy ∧ errorMessage ≠ [] ∧ messages = errorMessage := by
  by_cases hssh : command = "ssh".toList
  · rw [if_pos hssh, hssh]
    exact iff_of_false List.not_mem_nil fun h => absurd h.1 (by decide)
  · rw [if_neg hssh]
    cases errorMessage with
    | nil => simp
    | cons c s => simp [eq_comm]

/-- What the files other than the marker leave alone. -/
structure Frame (peer : QString) (before after : Checked) : Prop where
  deleted : after.deleted = before.deleted
  log : firstLog after.files = firstLog before.files
  reported : ∀ messages, .finishedWith peer destroy messages ∈ after.notices ↔
    .finishedWith peer destroy messages ∈ before.notices

theorem Frame.refl (peer : QString) (checked : Checked) : Frame peer checked checked :=
  ⟨rfl, rfl, fun _ => Iff.rfl⟩

theorem Frame.trans {peer : QString} {a b c : Checked} (h : Frame peer a b) (h' : Frame peer b c) :
    Frame peer a c :=
  ⟨h'.deleted.trans h.deleted, h'.log.trans h.log,
    fun messages => (h'.reported messages).trans (h.reported messages)⟩

theorem Frame.foundErrors {peer : QString} {before after : Checked} (h : Frame peer before after) :
    foundErrors after.files = foundErrors before.files := by
  rw [Peer.foundErrors, Peer.foundErrors, h.log]

theorem frame_checkFile (peer : QString) (checked : Checked) {logs : File}
    (h : logs.isMarker = false) : Frame peer checked (checkFile peer checked logs) := by
  rw [checkFile]
  split
  · exact Frame.refl peer checked
  · rename_i hfile
    split
    · rename_i command finished hsplit
      split
      · rename_i hfinished
        have hcommand : command ≠ destroy := by
          intro heq
          rw [← Bool.not_eq_true, File.isMarker_iff, hsplit, heq, hfinished] at h
          exact h ⟨Bool.not_eq_true _ ▸ hfile, rfl⟩
        have hmarker (f : File) (hname : f.fileName = logs.fileName) :
            f.isLogOf destroy = false := by
          apply File.not_isLogOf_of_split (hname ▸ hsplit)
          rw [hfinished]
          decide
        apply Frame.mk
        · have hdestroy : decide (command = "destroy".toList) = false := decide_eq_false hcommand
          dsimp only
          rw [hdestroy, Bool.and_false, Bool.or_false]
        · exact (firstLog_remove hmarker _).trans (firstLog_getErrorMessages hcommand _)
        · intro messages
          rw [List.mem_append, finishedWith_mem_notices_iff]
          exact or_iff_left fun h => hcommand h.1
      · exact Frame.refl peer checked
    · exact Frame.refl peer checked

theorem frame_foldl_checkFile (peer : QString) {files : List File}
    (h : ∀ f ∈ files, f.isMarker = false) (checked : Checked) :
    Frame peer checked (files.foldl (checkFile peer) checked) := by
  induction files generalizing checked with
  | nil => exact Frame.refl peer checked
  | cons f files ih =>
      rw [List.forall_mem_cons] at h
      exact (frame_checkFile peer checked h.1).trans (ih h.2 _)

theorem checkFile_marker (peer : QString) (checked : Checked) {logs : File}
    (h : logs.isMarker = true) :
    (checkFile peer checked logs).deleted =
        (checked.deleted || (foundErrors checked.files).isEmpty) ∧
      (checkFile peer checked logs).notices =
        checked.notices ++
          if (foundErrors checked.files).isEmpty then [.finished peer destroy]
          else [.finishedWith peer destroy (foundErrors checked.files)] := by
  obtain ⟨hdir, hsplit⟩ := File.isMarker_iff.mp h
  rw [checkFile, hdir, hsplit, ← getErrorMessages_destroy]
  constructor
  · exact congrArg (checked.deleted || ·) (Bool.and_true _)
  · rfl

theorem exists_split_at_marker {files : List File} (distinct : (files.map File.fileName).Nodup)
    (h : files.any File.isMarker = true) :
    ∃ before marker after, files = before ++ marker :: after ∧ marker.isMarker = true ∧
      (∀ f ∈ before, f.isMarker = false) ∧ ∀ f ∈ after, f.isMarker = false := by
  obtain ⟨marker, hmem, hmarker⟩ := List.any_eq_true.mp h
  obtain ⟨before, after, rfl⟩ := List.append_of_mem hmem
  rw [List.map_append, List.map_cons, List.nodup_middle, List.nodup_cons, ← List.map_append] at distinct
  have hother (f : File) (hf : f ∈ before ++ after) : f.isMarker = false := by
    rw [← Bool.not_eq_true]
    intro hfmarker
    rw [File.isMarker, Bool.and_eq_true, decide_eq_true_iff] at hfmarker hmarker
    exact distinct.1 (List.mem_map.mpr ⟨f, hf, hfmarker.2.trans hmarker.2.symm⟩)
  exact ⟨before, marker, after, rfl, hmarker,
    fun f hf => hother f (List.mem_append_left after hf),
    fun f hf => hother f (List.mem_append_right before hf)⟩

/-- The loop over the files of one peer: the marker is met once, and what `destroy`
reported is then still in place. -/
theorem checkFiles_spec (peer : QString) {files : List File}
    (distinct : (files.map File.fileName).Nodup) :
    ((files.foldl (checkFile peer) ⟨files, false, []⟩).deleted = true ↔
      files.any File.isMarker = true ∧ foundErrors files = []) ∧
    ∀ messages,
      .finishedWith peer destroy messages ∈
          (files.foldl (checkFile peer) ⟨files, false, []⟩).notices ↔
        files.any File.isMarker = true ∧ foundErrors files ≠ [] ∧ messages = foundErrors files := by
  by_cases hany : files.any File.isMarker = true
  · obtain ⟨before, marker, after, hsplit, hmarker, hbefore, hafter⟩ :=
      exists_split_at_marker distinct hany
    have hfirst := frame_foldl_checkFile peer hbefore ⟨files, false, []⟩
    have hturn := checkFile_marker peer (before.foldl (checkFile peer) ⟨files, false, []⟩) hmarker
    rw [hfirst.foundErrors, hfirst.deleted, Bool.false_or] at hturn
    have hlast := frame_foldl_checkFile peer hafter
      (checkFile peer (before.foldl (checkFile peer) ⟨files, false, []⟩) marker)
    have hrun (start : Checked) : files.foldl (checkFile peer) start =
        after.foldl (checkFile peer)
          (checkFile peer (before.foldl (checkFile peer) start) marker) := by
      rw [hsplit, List.foldl_append, List.foldl_cons]
    rw [hrun, hlast.deleted, hturn.1]
    constructor
    · rw [List.isEmpty_iff]
      exact (and_iff_right hany).symm
    · intro messages
      rw [hlast.reported, hturn.2, List.mem_append, hfirst.reported, and_iff_right hany]
      by_cases hempty : foundErrors files = []
      · simp [hempty]
      · simp [hempty]
  · have hnone : ∀ f ∈ files, f.isMarker = false := by
      rw [Bool.not_eq_true, List.any_eq_false] at hany
      intro f hf
      exact Bool.eq_false_iff.mpr (hany f hf)
    have hframe := frame_foldl_checkFile peer hnone ⟨files, false, []⟩
    constructor
    · rw [hframe.deleted]
      exact iff_of_false Bool.false_ne_true fun h => hany h.1
    · intro messages
      rw [hframe.reported]
      exact iff_of_false List.not_mem_nil fun h => hany h.1

theorem checkDir_deleted_iff {dir : PeerDir} (distinct : (dir.files.map File.fileName).Nodup) :
    (checkDir dir).deleted = true ↔
      dir.shown = true ∧ dir.files.any File.isMarker = true ∧ foundErrors dir.files = [] := by
  rw [← (checkFiles_spec (parseName dir.fileName) distinct).1, checkDir]
  cases dir.shown with
  | false => simp
  | true =>
      rw [if_pos rfl, and_iff_right rfl]
      dsimp only
      split <;> rfl

theorem checkDir_reported_iff {dir : PeerDir} (distinct : (dir.files.map File.fileName).Nodup)
    (messages : QString) :
    .finishedWith (parseName dir.fileName) destroy messages ∈ (checkDir dir).notices ↔
      dir.shown = true ∧ dir.files.any File.isMarker = true ∧ foundErrors dir.files ≠ [] ∧
        messages = foundErrors dir.files := by
  rw [← (checkFiles_spec (parseName dir.fileName) distinct).2, checkDir]
  cases dir.shown with
  | false => simp
  | true =>
      rw [if_pos rfl, and_iff_right rfl]
      dsimp only
      split
      · rw [List.mem_append]
        apply or_iff_left
        split <;> simp
      · rfl

/-! ## The launched command -/

def destroyCommand : QString := "destroy -f".toList

/-- Whether ESC and the text begin with a terminal colour escape: `[`, numbers, `m`. -/
def startsColour : QString → Bool
  | '[' :: s => (s.dropWhile fun c => c.isDigit || c = ';' || c = ':').head? = some 'm'
  | _ => false

def removeColours (s : QString) : QString := dropEscapes startsColour false s

theorem executeRemoteCommand_destroy (name : QString) :
    executeRemoteCommand destroyCommand name = some
      [.vagrant destroyCommand ('"' :: name ++ ['"'] ++ '_' :: destroy) false,
        .echoFinished "destroy_finished".toList] := rfl

theorem mem_write_of_ne {fileName : QString} {change : QString → QString} {files : List File}
    {f : File} (h : f ∈ write fileName change files) (hname : f.fileName ≠ fileName) :
    f ∈ files := by
  rw [write] at h
  split at h
  · obtain ⟨g, hg, hgf⟩ := List.mem_map.mp h
    split at hgf
    · rename_i hwritten
      rw [← hgf] at hname
      exact absurd hwritten.1 hname
    · exact hgf ▸ hg
  · cases List.mem_append.mp h with
    | inl hold => exact hold
    | inr hnew =>
        rw [List.mem_singleton.mp hnew] at hname
        exact absurd rfl hname

theorem content_of_mem_write {fileName text : QString} {files : List File} {f : File}
    (h : f ∈ write fileName (fun _ => text) files) (hname : f.fileName = fileName)
    (hdir : f.isDir = false) : f.content = text := by
  rw [write] at h
  split at h
  · obtain ⟨g, -, hgf⟩ := List.mem_map.mp h
    split at hgf
    · rw [← hgf]
    · rename_i hkept
      exact absurd ⟨hgf ▸ hname, hgf ▸ hdir⟩ hkept
  · rename_i hnone
    cases List.mem_append.mp h with
    | inl hold =>
        exact absurd (List.any_eq_true.mpr ⟨f, hold, decide_eq_true hname⟩) hnone
    | inr hnew => rw [List.mem_singleton.mp hnew]

/-- A directory as `check_logs` finds it. `errors` is what `destroy` wrote to its error log,
if it was launched for this peer and has finished; if not, anything may stand there. -/
structure Launch (shell : Shell) where
  dir : PeerDir
  errors : Option QString
  distinct : (dir.files.map File.fileName).Nodup
  left : ∀ text, errors = some text → dir.shown = true ∧ ∃ before script,
    executeRemoteCommand destroyCommand (parseName dir.fileName) = some script ∧
      dir.files.Perm (script.foldl (ShellCommand.run shell fun _ => text) before)

namespace Launch

variable {shell : Shell}

def peer (launch : Launch shell) : QString := parseName launch.dir.fileName

/-- The file to which the errors of `destroy` go. -/
def errorLog (launch : Launch shell) : QString :=
  shell.target ('"' :: launch.peer ++ ['"'] ++ '_' :: destroy)

/-- The directory is removed on success only, and errors are reported. -/
structure Safe (launch : Launch shell) (checked : Checked) : Prop where
  deletes : checked.deleted = true → ∃ text, launch.errors = some text ∧ removeColours text = []
  reports : ∀ text, launch.errors = some text → removeColours text ≠ [] →
    checked.deleted = false ∧
      .finishedWith launch.peer destroy (removeColours text) ∈ checked.notices

/-- What `check_logs` reads is what `destroy` wrote: the first file taken for its log is the
error log, and can be opened. -/
def LogFound (launch : Launch shell) : Prop :=
  match launch.errors with
  | none =>
      launch.dir.shown = true → launch.dir.files.any File.isMarker = true →
        ∃ log, firstLog launch.dir.files = some log ∧ log.opens = true ∧
          removeEscapes log.content ≠ []
  | some text =>
      removeColours text ≠ [] → launch.dir.files.any File.isMarker = true ∧
        ∃ log, firstLog launch.dir.files = some log ∧ log.opens = true ∧
          removeEscapes (if log.fileName = launch.errorLog then text else log.content) =
            removeColours text

theorem content_errorLog {launch : Launch shell} {text : QString} {log : File}
    (h : launch.errors = some text) (hlog : firstLog launch.dir.files = some log)
    (hname : log.fileName = launch.errorLog) : log.content = text := by
  obtain ⟨-, before, script, hscript, hperm⟩ := launch.left text h
  rw [executeRemoteCommand_destroy] at hscript
  rw [← Option.some.inj hscript] at hperm
  obtain ⟨hdir, x, hx⟩ := File.isLogOf_iff.mp (List.find?_some hlog)
  have hmarker : log.fileName ≠ shell.target "destroy_finished".toList := by
    rw [shell.target_plain _ (by decide)]
    intro heq
    rw [heq] at hx
    exact absurd (List.cons.inj (List.cons.inj hx).2).1 (by decide)
  have hmem : log ∈ write (shell.target "destroy_finished".toList) (fun _ => "finished\n".toList)
      (write launch.errorLog (fun _ => text) before) :=
    hperm.mem_iff.mp (List.mem_of_find?_eq_some hlog)
  exact content_of_mem_write (mem_write_of_ne hmem hmarker) hname hdir

theorem foundErrors_eq_iff {files : List File} {messages : QString} (h : messages ≠ []) :
    foundErrors files = messages ↔
      ∃ log, firstLog files = some log ∧ log.opens = true ∧ removeEscapes log.content = messages := by
  rw [foundErrors]
  cases firstLog files with
  | none => simp [h.symm]
  | some log =>
      dsimp only
      split
      · rename_i hopens
        simp [hopens]
      · rename_i hopens
        simp [hopens, h.symm]

theorem safe_iff_of_none {launch : Launch shell} (h : launch.errors = none) :
    launch.Safe (checkDir launch.dir) ↔ launch.LogFound := by
  have hdeleted := checkDir_deleted_iff launch.distinct
  rw [LogFound, h]
  constructor
  · intro hsafe hshown hmarker
    have hfound : foundErrors launch.dir.files ≠ [] := by
      intro hempty
      obtain ⟨text, htext, -⟩ := hsafe.deletes (hdeleted.mpr ⟨hshown, hmarker, hempty⟩)
      rw [h] at htext
      exact Option.some_ne_none text htext.symm
    obtain ⟨log, hlog, hopens, hcontent⟩ := (foundErrors_eq_iff hfound).mp rfl
    exact ⟨log, hlog, hopens, hcontent ▸ hfound⟩
  · intro hlogFound
    apply Safe.mk
    · intro hdel
      obtain ⟨hshown, hmarker, hempty⟩ := hdeleted.mp hdel
      obtain ⟨log, hlog, hopens, hcontent⟩ := hlogFound hshown hmarker
      have := (foundErrors_eq_iff hcontent).mpr ⟨log, hlog, hopens, rfl⟩
      exact absurd (this.symm.trans hempty) hcontent
    · intro text htext
      rw [h] at htext
      exact absurd htext.symm (Option.some_ne_none text)

/-- After a command that finished, the condition is that its own text is found. -/
theorem logFound_iff_of_some {launch : Launch shell} {text : QString}
    (h : launch.errors = some text) :
    launch.LogFound ↔ (removeColours text ≠ [] → launch.dir.files.any File.isMarker = true ∧
      foundErrors launch.dir.files = removeColours text) := by
  rw [LogFound, h]
  apply imp_congr_right
  intro htext
  rw [foundErrors_eq_iff htext]
  apply and_congr_right
  intro _
  apply exists_congr
  intro log
  apply and_congr_right
  intro hlog
  by_cases hname : log.fileName = launch.errorLog
  · rw [if_pos hname, content_errorLog h hlog hname]
  · rw [if_neg hname]

theorem safe_iff_of_some {launch : Launch shell} {text : QString} (h : launch.errors = some text) :
    launch.Safe (checkDir launch.dir) ↔ launch.LogFound := by
  have hdeleted := checkDir_deleted_iff launch.distinct
  have hreported := checkDir_reported_iff launch.distinct
  have hshown := (launch.left text h).1
  rw [logFound_iff_of_some h]
  constructor
  · intro hsafe htext
    obtain ⟨-, hmarker, -, hfound⟩ :=
      (hreported (removeColours text)).mp (hsafe.reports text h htext).2
    exact ⟨hmarker, hfound.symm⟩
  · intro hfound
    apply Safe.mk
    · intro hdel
      refine ⟨text, h, ?_⟩
      by_contra htext
      exact htext ((hfound htext).2.symm.trans (hdeleted.mp hdel).2.2)
    · intro text' htext' hne
      rw [h] at htext'
      rw [← Option.some.inj htext'] at hne ⊢
      obtain ⟨hmarker, heq⟩ := hfound hne
      constructor
      · rw [← Bool.not_eq_true, hdeleted]
        intro hdel
        exact hne (heq.symm.trans hdel.2.2)
      · exact (hreported _).mpr ⟨hshown, hmarker, heq ▸ hne, heq.symm⟩

theorem safe_iff (launch : Launch shell) :
    launch.Safe (checkDir launch.dir) ↔ launch.LogFound := by
  cases h : launch.errors with
  | none => exact safe_iff_of_none h
  | some text => exact safe_iff_of_some h

/-- With an underscore in its name no peer's error log is taken for one. -/
theorem isLogOf_errorLog_iff {launch : Launch shell} (plain : ∀ c ∈ launch.peer, c ∉ special)
    {log : File} (hname : log.fileName = launch.errorLog) (hdir : log.isDir = false) :
    log.isLogOf destroy = true ↔ '_' ∉ launch.peer := by
  have hlog : log.fileName = launch.peer ++ '_' :: destroy := by
    rw [hname, errorLog, shell.target_quoted _ _ plain (by decide)]
  rw [File.isLogOf_iff, and_iff_right hdir]
  constructor
  · intro h
    obtain ⟨x, hx⟩ := h
    obtain ⟨heq, hfree, -⟩ := split_eq_pair_iff.mp hx
    rw [hlog] at heq
    rw [(List.append_inj' heq rfl).1]
    exact hfree
  · intro h
    exact ⟨launch.peer, split_eq_pair_iff.mpr ⟨hlog, h, by decide⟩⟩

/-- What then happens to the directory, whatever `destroy` reported. -/
theorem deleted_of_underscore {launch : Launch shell} (plain : ∀ c ∈ launch.peer, c ∉ special)
    (hunderscore : '_' ∈ launch.peer) (hshown : launch.dir.shown = true)
    (hmarker : launch.dir.files.any File.isMarker = true)
    (alone : ∀ f ∈ launch.dir.files, f.isLogOf destroy = true → f.fileName = launch.errorLog) :
    (checkDir launch.dir).deleted = true := by
  have hnone : firstLog launch.dir.files = none := by
    apply List.find?_eq_none.mpr
    intro f hf hlog
    have hdir : f.isDir = false := (File.isLogOf_iff.mp hlog).1
    exact (isLogOf_errorLog_iff plain (alone f hf hlog) hdir).mp hlog hunderscore
  apply (checkDir_deleted_iff launch.distinct).mpr
  exact ⟨hshown, hmarker, by rw [foundErrors, hnone]⟩

end Launch

theorem filter_quote_eq_self {s : QString} (h : '"' ∉ s) : s.filter (· ≠ '"') = s := by
  apply List.filter_eq_self.mpr
  intro c hc
  apply decide_eq_true
  intro hquote
  exact h (hquote ▸ hc)

theorem quote_notMem_of_plainWord {word : QString} (h : plainWord word = true) : '"' ∉ word := by
  intro hquote
  exact absurd (List.all_eq_true.mp h _ hquote) (by decide)

/-- A shell for names without special characters. -/
def quoteRemover : Shell where
  target word := word.filter (· ≠ '"')
  target_plain word hword := filter_quote_eq_self (quote_notMem_of_plainWord hword)
  target_quoted name word hname hword := by
    have hfree : '"' ∉ name := fun hquote => hname _ hquote List.mem_cons_self
    rw [List.cons_append, List.cons_append, List.filter_cons_of_neg (by decide),
      List.append_assoc, List.filter_append, List.singleton_append, List.filter_cons_of_neg (by decide),
      filter_quote_eq_self hfree, filter_quote_eq_self (quote_notMem_of_plainWord hword)]

/-- The peer `my_peer`, and a `destroy` that failed. -/
def failedDestroy : Launch quoteRemover where
  dir :=
    { fileName := "subutai-peer_my_peer".toList
      isDir := true
      files :=
        [⟨"destroy_finished".toList, false, "finished\n".toList, true, true⟩,
          ⟨"my_peer_destroy".toList, false, "The machine is locked".toList, true, true⟩]
      removes := true }
  errors := some "The machine is locked".toList
  distinct := by decide
  left text h := by
    rw [← Option.some.inj h]
    exact ⟨by decide, [], _, executeRemoteCommand_destroy _, by decide⟩

end SubutaiTray.Peer
