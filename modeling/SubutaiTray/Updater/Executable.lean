import Mathlib.Logic.Function.Basic
import SubutaiTray.Updater.Operations

/-!
The files under `CExecutableUpdater::replace_executables`.

The questions of the operation are calls of `QFile`. Each of them may fail; then it says no and
leaves the files as they are. `QFile::rename` and `QFile::copy` do not overwrite.
-/
namespace SubutaiTray.Updater

/-- What the files hold, without their permissions. -/
abbrev FileSystem := QString → Option QByteArray

namespace FileSystem

variable (fs : FileSystem)

def remove (fails : Bool) (name : QString) : Bool × FileSystem :=
  if fails || (fs name).isNone then (false, fs) else (true, Function.update fs name none)

def rename (fails : Bool) (name newName : QString) : Bool × FileSystem :=
  if fails || (fs name).isNone || (fs newName).isSome then (false, fs)
  else (true, Function.update (Function.update fs newName (fs name)) name none)

def copy (fails : Bool) (name newName : QString) : Bool × FileSystem :=
  if fails || (fs name).isNone || (fs newName).isSome then (false, fs)
  else (true, Function.update fs newName (fs name))

/-- What a call says about a file that it needs. -/
def seen (fails : Bool) (name : QString) : Bool := !fails && (fs name).isSome

end FileSystem

structure ExecutableUpdater where
  srcFileStr : QString
  dstFileStr : QString

namespace ExecutableUpdater

def tmp (updater : ExecutableUpdater) : QString := updater.dstFileStr ++ ".tmp".toList

/-- The answers that the files give. The other questions are not about files. -/
def answer (updater : ExecutableUpdater) (fails : Question → Bool) (question : Question)
    (fs : FileSystem) : Bool × FileSystem :=
  match question with
  | .srcExists => (fs.seen (fails question) updater.srcFileStr, fs)
  | .dstExists => (fs.seen (fails question) updater.dstFileStr, fs)
  | .tmpExists => (fs.seen (fails question) updater.tmp, fs)
  | .tmpRemoved => fs.remove (fails question) updater.tmp
  | .dstRenamed => fs.rename (fails question) updater.dstFileStr updater.tmp
  | .srcCopied => fs.copy (fails question) updater.srcFileStr updater.dstFileStr
  | .permissionsSet => (fs.seen (fails question) updater.dstFileStr, fs)
  | _ => (false, fs)

/-- The signals of a script and the files behind it. -/
def run (updater : ExecutableUpdater) (fails : Question → Bool) :
    Script → FileSystem → List Notification × FileSystem
  | .ask question next, fs =>
      run updater fails (next (updater.answer fails question fs).1)
        (updater.answer fails question fs).2
  | .finish notification next, fs =>
      (notification :: (run updater fails next fs).1, (run updater fails next fs).2)
  | _, fs => ([], fs)

/-- `emit finished(replaced)` -/
def finished (replaced : Bool) : Script := .finish (.updateFinished replaced) .ends

def replace (updater : ExecutableUpdater) (os : OS) (wasSuccessfulDownloaded : Bool)
    (fails : Question → Bool) (fs : FileSystem) : List Notification × FileSystem :=
  updater.run fails (replaceExecutables os wasSuccessfulDownloaded finished) fs

/-- One signal, and it tells what the destination holds. -/
structure Tells (updater : ExecutableUpdater) (fs : FileSystem) (replaced : Bool)
    (result : List Notification × FileSystem) : Prop where
  once : result.1 = [.updateFinished replaced]
  success : replaced = true →
    ∃ content, fs updater.srcFileStr = some content ∧
      result.2 updater.dstFileStr = some content
  failure : replaced = false → result.2 updater.dstFileStr = fs updater.dstFileStr

def AllOrNothing (updater : ExecutableUpdater) (fs : FileSystem)
    (result : List Notification × FileSystem) : Prop :=
  ∃ replaced, updater.Tells fs replaced result

/-! ## When that is so -/

/-- The destination already holds the content of the source. -/
def Same (updater : ExecutableUpdater) (fs : FileSystem) : Prop :=
  ∃ content, fs updater.srcFileStr = some content ∧ fs updater.dstFileStr = some content

/-- The permissions can be set, or nobody sets them. -/
def Permitted (os : OS) (fails : Question → Bool) : Prop :=
  os = .windows ∨ fails .permissionsSet = false

/-- There is no leftover, or it is found and removed, and the destination is renamed. -/
def MovesAway (updater : ExecutableUpdater) (fails : Question → Bool) (fs : FileSystem) : Prop :=
  (fs updater.tmp = none ∨
      fs.seen (fails .tmpExists) updater.tmp = true ∧ fails .tmpRemoved = false) ∧
    fails .dstRenamed = false

structure Harmless (updater : ExecutableUpdater) (os : OS) (wasSuccessfulDownloaded : Bool)
    (fails : Question → Bool) (fs : FileSystem) : Prop where
  downloaded : wasSuccessfulDownloaded = true
  source : fs.seen (fails .srcExists) updater.srcFileStr = false → updater.Same fs
  leftover : fs.seen (fails .srcExists) updater.srcFileStr = true →
    fs.seen (fails .dstExists) updater.dstFileStr = true →
      fs.seen (fails .tmpExists) updater.tmp = true → fails .tmpRemoved = true → updater.Same fs
  movedAway : fs.seen (fails .srcExists) updater.srcFileStr = true →
    fs.seen (fails .dstExists) updater.dstFileStr = true → updater.MovesAway fails fs →
      fails .srcCopied = false ∧ updater.srcFileStr ≠ updater.dstFileStr ∧
        ((Permitted os fails ↔ updater.srcFileStr ≠ updater.tmp) ∨ updater.Same fs)
  created : fs.seen (fails .srcExists) updater.srcFileStr = true →
    fs updater.dstFileStr = none → fails .srcCopied = false → Permitted os fails

end ExecutableUpdater

/-! ## The parts of the operation -/

namespace ExecutableUpdater

/-- From the copy on. -/
def copyScript (os : OS) : Script :=
  .ask .srcCopied fun
    | false => finished false
    | true => if os = .windows then finished true else .ask .permissionsSet finished

def renameScript (os : OS) : Script :=
  .ask .dstRenamed fun
    | false => finished false
    | true => copyScript os

variable (updater : ExecutableUpdater) (os : OS) (fails : Question → Bool) (fs : FileSystem)

theorem tmp_ne_dst : updater.tmp ≠ updater.dstFileStr := by
  intro h
  have hlength := congrArg List.length h
  simp [tmp] at hlength

theorem run_finished (replaced : Bool) :
    updater.run fails (finished replaced) fs = ([.updateFinished replaced], fs) := rfl

theorem run_copyScript :
    updater.run fails (copyScript os) fs =
      if fails .srcCopied || (fs updater.srcFileStr).isNone || (fs updater.dstFileStr).isSome then
        ([.updateFinished false], fs)
      else
        ([.updateFinished (decide (os = .windows) || !fails .permissionsSet)],
          Function.update fs updater.dstFileStr (fs updater.srcFileStr)) := by
  cases h : fails .srcCopied || (fs updater.srcFileStr).isNone || (fs updater.dstFileStr).isSome with
  | true => simp [copyScript, run, answer, FileSystem.copy, h, run_finished]
  | false =>
      have hsome : (fs updater.srcFileStr).isSome = true := by
        cases hsrc : fs updater.srcFileStr <;> simp [hsrc] at h ⊢
      by_cases hos : os = .windows
      · simp [copyScript, run, answer, FileSystem.copy, h, hos, run_finished]
      · simp [copyScript, run, answer, FileSystem.copy, FileSystem.seen, h, hos, hsome,
          run_finished]

theorem run_renameScript {content : QByteArray} (hdst : fs updater.dstFileStr = some content) :
    updater.run fails (renameScript os) fs =
      if fails .dstRenamed || (fs updater.tmp).isSome then ([.updateFinished false], fs)
      else
        updater.run fails (copyScript os)
          (Function.update (Function.update fs updater.tmp (some content)) updater.dstFileStr
            none) := by
  cases h : fails .dstRenamed || (fs updater.tmp).isSome <;>
    simp [renameScript, run, answer, FileSystem.rename, hdst, h, run_finished]

theorem replace_eq :
    updater.replace os true fails fs =
      if fs.seen (fails .srcExists) updater.srcFileStr then
        if fs.seen (fails .dstExists) updater.dstFileStr then
          if fs.seen (fails .tmpExists) updater.tmp then
            if fails .tmpRemoved then ([.updateFinished true], fs)
            else updater.run fails (renameScript os) (Function.update fs updater.tmp none)
          else updater.run fails (renameScript os) fs
        else updater.run fails (copyScript os) fs
      else ([.updateFinished true], fs) := by
  rw [replace, replaceExecutables, if_pos rfl]
  cases hsrc : fs.seen (fails .srcExists) updater.srcFileStr with
  | false => simp [run, answer, hsrc, run_finished]
  | true =>
      cases hdst : fs.seen (fails .dstExists) updater.dstFileStr with
      | false =>
          simp only [run, answer, hsrc, hdst, if_true, Bool.false_eq_true, if_false]
          rfl
      | true =>
          cases htmp : fs.seen (fails .tmpExists) updater.tmp with
          | false =>
              simp only [run, answer, hsrc, hdst, htmp, if_true, Bool.false_eq_true, if_false]
              rfl
          | true =>
              have hsome : (fs updater.tmp).isNone = false := by
                rw [FileSystem.seen, Bool.and_eq_true] at htmp
                rw [Option.isNone_eq_false_iff]
                exact htmp.2
              cases hremoved : fails .tmpRemoved with
              | true =>
                  simp [run, answer, FileSystem.remove, hsrc, hdst, htmp, hremoved, run_finished]
              | false =>
                  simp only [run, answer, FileSystem.remove, hsrc, hdst, htmp, hremoved, hsome,
                    Bool.or_false, if_true, Bool.false_eq_true, if_false]
                  rfl

/-! ## All or nothing -/

variable {updater os fails fs}

theorem allOrNothing_iff (replaced : Bool) (fs' : FileSystem) :
    updater.AllOrNothing fs ([.updateFinished replaced], fs') ↔
      if replaced then
        ∃ content, fs updater.srcFileStr = some content ∧ fs' updater.dstFileStr = some content
      else fs' updater.dstFileStr = fs updater.dstFileStr := by
  constructor
  · rintro ⟨replaced', h⟩
    have heq : replaced = replaced' := by simpa using h.once
    cases replaced with
    | true => exact h.success heq.symm
    | false => exact h.failure heq.symm
  · intro h
    refine ⟨replaced, rfl, ?_, ?_⟩
    · rintro rfl
      exact h
    · rintro rfl
      exact h

theorem allOrNothing_unchanged_true :
    updater.AllOrNothing fs ([.updateFinished true], fs) ↔ updater.Same fs :=
  allOrNothing_iff true fs

theorem allOrNothing_unchanged_false : updater.AllOrNothing fs ([.updateFinished false], fs) :=
  (allOrNothing_iff false fs).mpr rfl

theorem permitted_iff :
    Permitted os fails ↔ (decide (os = .windows) || !fails .permissionsSet) = true := by
  simp [Permitted]

/-- The copy after the destination has been moved away. -/
theorem allOrNothing_movedAway {content : QByteArray} {moved : FileSystem}
    (hsrc : (fs updater.srcFileStr).isSome = true) (hdst : fs updater.dstFileStr = some content)
    (hmoved : moved = Function.update (Function.update fs updater.tmp (some content))
      updater.dstFileStr none) :
    updater.AllOrNothing fs (updater.run fails (copyScript os) moved) ↔
      fails .srcCopied = false ∧ updater.srcFileStr ≠ updater.dstFileStr ∧
        ((Permitted os fails ↔ updater.srcFileStr ≠ updater.tmp) ∨ updater.Same fs) := by
  obtain ⟨source, hsource⟩ := Option.isSome_iff_exists.mp hsrc
  have hdstMoved : moved updater.dstFileStr = none := by rw [hmoved, Function.update_self]
  have hlost (h : updater.AllOrNothing fs ([.updateFinished false], moved)) : False := by
    rw [allOrNothing_iff, hdstMoved, hdst] at h
    exact absurd h.symm (Option.some_ne_none _)
  rw [run_copyScript]
  cases hcopied : fails .srcCopied with
  | true =>
      rw [Bool.true_or, Bool.true_or, if_pos rfl]
      exact iff_of_false hlost fun h => Bool.false_ne_true h.1.symm
  | false =>
      by_cases hsame : updater.srcFileStr = updater.dstFileStr
      · rw [hsame, hdstMoved, Option.isNone_none, Bool.false_or, Bool.true_or, if_pos rfl]
        exact iff_of_false hlost fun h => h.2.1 rfl
      · have hsrcMoved : moved updater.srcFileStr =
            if updater.srcFileStr = updater.tmp then some content else some source := by
          rw [hmoved, Function.update_of_ne hsame, Function.update_apply, hsource]
        have hpresent : (moved updater.srcFileStr).isNone = false := by
          rw [hsrcMoved]
          split <;> rfl
        rw [hpresent, hdstMoved, Option.isSome_none, Bool.or_false, Bool.or_false,
          if_neg Bool.false_ne_true, allOrNothing_iff, Function.update_self, hsrcMoved,
          permitted_iff, and_iff_right rfl, and_iff_right hsame, Same, hsource, hdst]
        cases decide (os = .windows) || !fails .permissionsSet <;>
          by_cases htmp : updater.srcFileStr = updater.tmp <;>
          simp [htmp, eq_comm]

/-- The copy to a destination that was not there. -/
theorem allOrNothing_created (hsrc : (fs updater.srcFileStr).isSome = true)
    (hdst : fs updater.dstFileStr = none) :
    updater.AllOrNothing fs (updater.run fails (copyScript os) fs) ↔
      (fails .srcCopied = false → Permitted os fails) := by
  obtain ⟨source, hsource⟩ := Option.isSome_iff_exists.mp hsrc
  rw [run_copyScript, hsource, hdst, permitted_iff]
  cases hcopied : fails .srcCopied with
  | true => simpa using allOrNothing_unchanged_false
  | false =>
      rw [Option.isNone_some, Option.isSome_none, Bool.or_false, Bool.or_false,
        if_neg Bool.false_ne_true, allOrNothing_iff, Function.update_self]
      cases decide (os = .windows) || !fails .permissionsSet <;> simp [hsource, hdst]

/-- The copy to a destination that was not seen. -/
theorem allOrNothing_unseen {content : QByteArray} (hdst : fs updater.dstFileStr = some content) :
    updater.AllOrNothing fs (updater.run fails (copyScript os) fs) := by
  rw [run_copyScript, hdst, Option.isSome_some, Bool.or_true, if_pos rfl]
  exact allOrNothing_unchanged_false

theorem movesAway_iff_of_leftover (htmp : fs.seen (fails .tmpExists) updater.tmp = true)
    (hremoved : fails .tmpRemoved = false) :
    updater.MovesAway fails fs ↔ fails .dstRenamed = false := by
  simp [MovesAway, htmp, hremoved]

theorem movesAway_iff_of_not (htmp : fs.seen (fails .tmpExists) updater.tmp = false) :
    updater.MovesAway fails fs ↔ fs updater.tmp = none ∧ fails .dstRenamed = false := by
  simp [MovesAway, htmp]

/-- The renaming and what follows it, from files that differ from the first ones in the
leftover only. -/
theorem allOrNothing_renamed {content : QByteArray} {cleaned : FileSystem}
    (hsrc : (fs updater.srcFileStr).isSome = true) (hdst : fs updater.dstFileStr = some content)
    (hcleaned : ∀ new, Function.update cleaned updater.tmp new = Function.update fs updater.tmp new) :
    updater.AllOrNothing fs (updater.run fails (renameScript os) cleaned) ↔
      (cleaned updater.tmp = none ∧ fails .dstRenamed = false →
        fails .srcCopied = false ∧ updater.srcFileStr ≠ updater.dstFileStr ∧
          ((Permitted os fails ↔ updater.srcFileStr ≠ updater.tmp) ∨ updater.Same fs)) := by
  have hdstCleaned : cleaned updater.dstFileStr = some content := by
    have h := congrFun (hcleaned none) updater.dstFileStr
    rwa [Function.update_of_ne updater.tmp_ne_dst.symm,
      Function.update_of_ne updater.tmp_ne_dst.symm, hdst] at h
  have hkept : updater.AllOrNothing fs ([.updateFinished false], cleaned) := by
    rw [allOrNothing_iff, hdstCleaned, hdst]
    rfl
  rw [run_renameScript updater os fails cleaned hdstCleaned]
  cases hrenamed : fails .dstRenamed with
  | true => simpa using hkept
  | false =>
      cases htmp : cleaned updater.tmp with
      | some leftover => simpa using hkept
      | none =>
          rw [Bool.false_or, Option.isSome_none, if_neg Bool.false_ne_true,
            allOrNothing_movedAway hsrc hdst (by rw [hcleaned])]
          simp

theorem isSome_of_seen {failing : Bool} {name : QString} (h : fs.seen failing name = true) :
    (fs name).isSome = true := by
  rw [FileSystem.seen, Bool.and_eq_true] at h
  exact h.2

theorem harmless_iff_of_seen (hsrc : fs.seen (fails .srcExists) updater.srcFileStr = true)
    (hdst : fs.seen (fails .dstExists) updater.dstFileStr = true) :
    updater.Harmless os true fails fs ↔
      (fs.seen (fails .tmpExists) updater.tmp = true → fails .tmpRemoved = true → updater.Same fs) ∧
        (updater.MovesAway fails fs →
          fails .srcCopied = false ∧ updater.srcFileStr ≠ updater.dstFileStr ∧
            ((Permitted os fails ↔ updater.srcFileStr ≠ updater.tmp) ∨ updater.Same fs)) := by
  constructor
  · intro h
    exact ⟨h.leftover hsrc hdst, h.movedAway hsrc hdst⟩
  · rintro ⟨hleftover, hmoved⟩
    refine ⟨rfl, ?_, fun _ _ => hleftover, fun _ _ => hmoved, ?_⟩
    · intro h
      exact absurd (h.symm.trans hsrc) Bool.false_ne_true
    · intro _ hnone
      have hsome := isSome_of_seen hdst
      rw [hnone] at hsome
      exact absurd hsome Bool.false_ne_true

theorem allOrNothing_of_seen (hsrc : fs.seen (fails .srcExists) updater.srcFileStr = true)
    (hdst : fs.seen (fails .dstExists) updater.dstFileStr = true) :
    updater.AllOrNothing fs (updater.replace os true fails fs) ↔
      updater.Harmless os true fails fs := by
  obtain ⟨content, hcontent⟩ := Option.isSome_iff_exists.mp (isSome_of_seen hdst)
  rw [replace_eq, harmless_iff_of_seen hsrc hdst, if_pos hsrc, if_pos hdst]
  cases htmp : fs.seen (fails .tmpExists) updater.tmp with
  | false =>
      rw [if_neg Bool.false_ne_true,
        allOrNothing_renamed (isSome_of_seen hsrc) hcontent fun _ => rfl, movesAway_iff_of_not htmp]
      simp
  | true =>
      rw [if_pos rfl]
      cases hremoved : fails .tmpRemoved with
      | true =>
          have hstuck : ¬ updater.MovesAway fails fs := by
            rintro ⟨hnone | hnone, -⟩
            · have hsome := isSome_of_seen htmp
              rw [hnone] at hsome
              exact absurd hsome Bool.false_ne_true
            · exact absurd (hnone.2.symm.trans hremoved) Bool.false_ne_true
          rw [if_pos rfl, allOrNothing_unchanged_true]
          simp [hstuck]
      | false =>
          rw [if_neg Bool.false_ne_true,
            allOrNothing_renamed (isSome_of_seen hsrc) hcontent fun _ => Function.update_idem _ _ _,
            movesAway_iff_of_leftover htmp hremoved, Function.update_self]
          simp

theorem allOrNothing_of_unseen (hsrc : fs.seen (fails .srcExists) updater.srcFileStr = true)
    (hdst : fs.seen (fails .dstExists) updater.dstFileStr = false) :
    updater.AllOrNothing fs (updater.replace os true fails fs) ↔
      updater.Harmless os true fails fs := by
  have hunseen {P : Prop} (h : fs.seen (fails .dstExists) updater.dstFileStr = true) : P :=
    absurd (hdst.symm.trans h) Bool.false_ne_true
  have hsource (h : fs.seen (fails .srcExists) updater.srcFileStr = false) : updater.Same fs :=
    absurd (h.symm.trans hsrc) Bool.false_ne_true
  rw [replace_eq, if_pos hsrc, hdst, if_neg Bool.false_ne_true]
  cases hcontent : fs updater.dstFileStr with
  | none =>
      rw [allOrNothing_created (isSome_of_seen hsrc) hcontent]
      constructor
      · intro h
        exact ⟨rfl, hsource, fun _ => hunseen, fun _ => hunseen, fun _ _ => h⟩
      · exact fun h => h.created hsrc hcontent
  | some content =>
      refine iff_of_true (allOrNothing_unseen hcontent)
        ⟨rfl, hsource, fun _ => hunseen, fun _ => hunseen, ?_⟩
      intro _ hnone
      exact absurd (hcontent.symm.trans hnone) (Option.some_ne_none content)

theorem allOrNothing_of_missing (hsrc : fs.seen (fails .srcExists) updater.srcFileStr = false) :
    updater.AllOrNothing fs (updater.replace os true fails fs) ↔
      updater.Harmless os true fails fs := by
  have hmissing {P : Prop} (h : fs.seen (fails .srcExists) updater.srcFileStr = true) : P :=
    absurd (hsrc.symm.trans h) Bool.false_ne_true
  rw [replace_eq, hsrc, if_neg Bool.false_ne_true, allOrNothing_unchanged_true]
  constructor
  · exact fun h => ⟨rfl, fun _ => h, hmissing, hmissing, hmissing⟩
  · exact fun h => h.source hsrc

/-- The replacement is all or nothing exactly when the download succeeded and no call fails at
a wrong place. -/
theorem allOrNothing_iff_harmless (updater : ExecutableUpdater) (os : OS)
    (wasSuccessfulDownloaded : Bool) (fails : Question → Bool) (fs : FileSystem) :
    updater.AllOrNothing fs (updater.replace os wasSuccessfulDownloaded fails fs) ↔
      updater.Harmless os wasSuccessfulDownloaded fails fs := by
  cases wasSuccessfulDownloaded with
  | false =>
      apply iff_of_false
      · rintro ⟨replaced, h⟩
        exact absurd h.once.symm (List.cons_ne_nil _ _)
      · exact fun h => Bool.false_ne_true h.downloaded
  | true =>
      cases hsrc : fs.seen (fails .srcExists) updater.srcFileStr with
      | false => exact allOrNothing_of_missing hsrc
      | true =>
          cases hdst : fs.seen (fails .dstExists) updater.dstFileStr with
          | false => exact allOrNothing_of_unseen hsrc hdst
          | true => exact allOrNothing_of_seen hsrc hdst

/-- The copy fails after the old executable has been renamed. -/
theorem not_allOrNothing_copyFails :
    ¬ AllOrNothing ⟨"new".toList, "p2p".toList⟩
      (fun name => if name = "p2p".toList then some [1] else if name = "new".toList then some [2]
        else none)
      (replace ⟨"new".toList, "p2p".toList⟩ .linux true (fun question => question = .srcCopied)
        (fun name => if name = "p2p".toList then some [1] else if name = "new".toList then some [2]
          else none)) := by
  rintro ⟨replaced, h⟩
  have hsignal := h.once
  cases replaced with
  | true => exact absurd hsignal (by decide)
  | false => exact absurd (h.failure rfl) (by decide)

end ExecutableUpdater

end SubutaiTray.Updater
