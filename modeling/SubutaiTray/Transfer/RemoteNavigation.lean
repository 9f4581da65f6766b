import SubutaiTray.Transfer.RemoteListing

/-!
The path of the remote directory along a session of the dialog.

The dialog keeps the path as a text: it is extended when a directory is entered, and put together
from its pieces when the user goes back. The names that were entered and not left are a stack
beside it.
-/
namespace SubutaiTray.Transfer

open Splitting (split)

namespace RemoteDir

/-- The root and the names below it, each with its slash. -/
def pathOf (names : List QString) : QString := '/' :: names.flatMap fun name => name ++ ['/']

theorem flatMap_slash (names : List QString) : names.flatMap ('/' :: ·) ++ ['/'] = pathOf names := by
  rw [pathOf]
  induction names with
  | nil => rfl
  | cons name names ih =>
      rw [List.flatMap_cons, List.append_assoc, ih, List.flatMap_cons, List.append_assoc]
      rfl

theorem split_pathOf {names : List QString} (h : ∀ name ∈ names, '/' ∉ name) :
    split ['/'] (pathOf names) = [] :: (names ++ [[]]) := by
  have hrest : split ['/'] (names.flatMap fun name => name ++ ['/']) = names ++ [[]] := by
    induction names with
    | nil => rfl
    | cons name names ih =>
        rw [List.forall_mem_cons] at h
        rw [List.flatMap_cons, List.append_assoc, Splitting.split_append_sep h.1 [], ih h.2,
          List.cons_append]
  rw [pathOf, ← hrest]
  exact Splitting.split_sep_append (List.cons_ne_nil _ _) _

/-- The last name goes; at the root there is none. -/
theorem path_back {dir : RemoteDir} {names : List QString} (h : ∀ name ∈ names, '/' ∉ name)
    (hdir : dir.path = pathOf names) : dir.back.path = pathOf names.dropLast := by
  have hlength : ([] :: (names ++ [[]]) : List QString).length - 2 = names.length := by simp
  have htake : ([] :: (names ++ [[]])).take names.length = ([] :: names).dropLast := by
    rw [List.dropLast_eq_take, List.length_cons, Nat.add_sub_cancel, ← List.cons_append,
      List.take_append_of_le_length (Nat.le_succ _)]
  have hdrop : ([] :: names).dropLast.drop 1 = names.dropLast := by
    rw [List.drop_one, List.tail_dropLast, List.tail_cons]
  rw [back]
  dsimp only
  rw [hdir, split_pathOf h, hlength, htake, hdrop, flatMap_slash]

theorem path_enter {dir : RemoteDir} {names : List QString} (hdir : dir.path = pathOf names)
    {shown : QString} (hslash : endsWith '/' shown = true) :
    (dir.enter shown hslash).path = pathOf (names ++ [shown.dropLast]) := by
  have hshown : shown.dropLast ++ ['/'] = shown := by
    rw [endsWith] at hslash
    exact List.dropLast_append_getLast? '/' (by simpa using hslash)
  have hpath : pathOf (names ++ [shown.dropLast]) = pathOf names ++ shown := by
    rw [pathOf, List.flatMap_append, List.flatMap_singleton, hshown]
    rfl
  rw [hpath, ← hdir]
  rfl

theorem eq_of_path {dir dir' : RemoteDir} (h : dir.path = dir'.path) : dir = dir' := by
  rw [mk.injEq]
  exact h

end RemoteDir

/-! ## Sessions -/

/-- The name of the directory that is entered at a row. It is shown with a slash behind it. -/
def RemoteListing.entered (s : RemoteListing) (row : Int) : Option QString :=
  if row < 0 then none
  else
    (s.remoteFiles[row.toNat]?).bind fun selected =>
      if selected.file.fileType = .directory then some selected.file.fileName.dropLast else none

/-- The dialog, the names that were entered and not left, and all names that were entered. -/
structure RemoteSession where
  listing : RemoteListing
  names : List QString
  visited : List QString

namespace RemoteSession

def init : RemoteSession := ⟨.init, [], []⟩

/-- The names after an event. -/
def follow (s : RemoteSession) (listing : RemoteListing) : ListingEvent → RemoteSession
  | .fileRemoteSelected row =>
      match s.listing.entered row with
      | some name => ⟨listing, s.names ++ [name], name :: s.visited⟩
      | none => ⟨listing, s.names, s.visited⟩
  | .remoteBack => ⟨listing, s.names.dropLast, s.visited⟩
  | .refreshButtonRemote | .outputFromRemoteCommand .. => ⟨listing, s.names, s.visited⟩

def step (machine : RemoteMachine) (s : RemoteSession) (event : ListingEvent) :
    Option RemoteSession :=
  (s.listing.step machine event).map fun listing => s.follow listing event

/-- While only names without a slash have been entered, the path is made of those not left. -/
def Follows (s : RemoteSession) : Prop :=
  (∀ name ∈ s.visited, '/' ∉ name) →
    s.listing.currentRemoteDir.path = RemoteDir.pathOf s.names ∧ ∀ name ∈ s.names, '/' ∉ name

end RemoteSession

namespace RemoteListing

variable {s : RemoteListing} {row : Int}

theorem fileRemoteSelected_of_entered {name : QString} (h : s.entered row = some name) :
    ∃ shown, ∃ hslash : endsWith '/' shown = true, name = shown.dropLast ∧
      (s.fileRemoteSelected row).currentRemoteDir = s.currentRemoteDir.enter shown hslash := by
  rw [entered] at h
  split at h
  · exact absurd h.symm (Option.some_ne_none name)
  · rename_i hrow
    obtain ⟨selected, hselected, hname⟩ := Option.bind_eq_some_iff.mp h
    obtain ⟨hlength, -⟩ := List.getElem?_eq_some_iff.mp hselected
    split at hname
    · rename_i hdirectory
      refine ⟨_, selected.slash hdirectory, (Option.some.inj hname).symm, ?_⟩
      rw [fileRemoteSelected, if_neg (by omega), hselected]
      dsimp only
      rw [dif_pos hdirectory]
      rfl
    · exact absurd hname.symm (Option.some_ne_none name)

/-- Without a directory in the row the path stays. -/
theorem fileRemoteSelected_of_not_entered (h : s.entered row = none) :
    (s.fileRemoteSelected row).currentRemoteDir = s.currentRemoteDir := by
  rw [fileRemoteSelected]
  split
  · rfl
  · rename_i hrow
    split
    · rfl
    · rename_i selected hselected
      split
      · rename_i hdirectory
        rw [entered, if_neg (by omega), hselected, Option.bind_some, if_pos hdirectory] at h
        exact absurd h (Option.some_ne_none _)
      · rfl

end RemoteListing

namespace RemoteSession

variable {machine : RemoteMachine} {s s' : RemoteSession}

theorem follows_step (h : s.Follows) {event : ListingEvent} (hstep : s.step machine event = some s') :
    s'.Follows := by
  obtain ⟨listing, hlisting, rfl⟩ := Option.map_eq_some_iff.mp hstep
  cases event with
  | fileRemoteSelected row =>
      rw [RemoteListing.step, Option.some.injEq] at hlisting
      subst hlisting
      rw [follow]
      cases hentered : s.listing.entered row with
      | none =>
          intro hplain
          dsimp only at hplain ⊢
          rw [RemoteListing.fileRemoteSelected_of_not_entered hentered]
          exact h hplain
      | some name =>
          intro hplain
          dsimp only at hplain ⊢
          rw [List.forall_mem_cons] at hplain
          obtain ⟨hpath, hnames⟩ := h hplain.2
          obtain ⟨shown, hslash, hname, henter⟩ :=
            RemoteListing.fileRemoteSelected_of_entered hentered
          rw [henter, hname]
          refine ⟨RemoteDir.path_enter hpath hslash, ?_⟩
          rw [List.forall_mem_append, List.forall_mem_singleton, ← hname]
          exact ⟨hnames, hplain.1⟩
  | remoteBack =>
      rw [RemoteListing.step, Option.some.injEq] at hlisting
      subst hlisting
      intro hplain
      obtain ⟨hpath, hnames⟩ := h hplain
      exact ⟨RemoteDir.path_back hnames hpath, fun name hmem => hnames name (List.mem_of_mem_dropLast hmem)⟩
  | refreshButtonRemote =>
      rw [RemoteListing.step, Option.some.injEq] at hlisting
      subst hlisting
      exact h
  | outputFromRemoteCommand year dir failure =>
      rw [RemoteListing.step] at hlisting
      split at hlisting
      · rw [Option.some.injEq] at hlisting
        subst hlisting
        exact h
      · exact absurd hlisting.symm (Option.some_ne_none _)

theorem follows_run {events : List ListingEvent} {t : RemoteSession}
    (run : events.foldlM (step machine) init = some t) : t.Follows := by
  refine @Runs.invariant_of_foldlM _ _ _ _ Follows ?_ ?_ _ _ run
  · exact fun _ => ⟨rfl, fun name hmem => absurd hmem List.not_mem_nil⟩
  · exact fun s event s' h hstep => follows_step h hstep

/-- The path is the root with the names that were entered and not left; going back undoes an
entry, and at the root it does nothing. -/
theorem path_eq_names {events : List ListingEvent} {t : RemoteSession}
    (run : events.foldlM (step machine) init = some t) (plain : ∀ name ∈ t.visited, '/' ∉ name) :
    t.listing.currentRemoteDir.path = RemoteDir.pathOf t.names ∧
    (∀ row name, t.listing.entered row = some name → '/' ∉ name →
      (t.listing.fileRemoteSelected row).remoteBack.currentRemoteDir = t.listing.currentRemoteDir) ∧
    (t.listing.currentRemoteDir = .root → t.listing.remoteBack.currentRemoteDir = .root) := by
  obtain ⟨hpath, hnames⟩ := follows_run run plain
  refine ⟨hpath, ?_, ?_⟩
  · intro row name hentered hname
    obtain ⟨shown, hslash, rfl, henter⟩ := RemoteListing.fileRemoteSelected_of_entered hentered
    have hmore : ∀ other ∈ t.names ++ [shown.dropLast], '/' ∉ other := by
      rw [List.forall_mem_append, List.forall_mem_singleton]
      exact ⟨hnames, hname⟩
    apply RemoteDir.eq_of_path
    rw [RemoteListing.remoteBack]
    dsimp only [RemoteListing.refreshRemoteFileSystem]
    rw [henter, RemoteDir.path_back hmore (RemoteDir.path_enter hpath hslash), List.dropLast_concat,
      hpath]
  · intro hroot
    rw [RemoteListing.remoteBack, hroot]
    exact RemoteDir.eq_of_path (@RemoteDir.path_back .root [] (by simp) rfl)

/-- The directory of the root is entered. -/
theorem path_eq_names_a :
    ([.outputFromRemoteCommand "2019".toList .root none, .fileRemoteSelected 0].foldlM
      (step RemoteListing.machineA) init).map (fun t => t.listing.currentRemoteDir.path) = some "/a/".toList := by
  have hnames : ([.outputFromRemoteCommand "2019".toList .root none, .fileRemoteSelected 0].foldlM
      (step RemoteListing.machineA) init).map (fun t => (t.names, t.visited)) = some ([['a']], [['a']]) := by
    decide +kernel
  obtain ⟨t, run, ht⟩ := Option.map_eq_some_iff.mp hnames
  rw [Prod.mk.injEq] at ht
  have hpath := (path_eq_names run (by rw [ht.2]; decide)).1
  rw [run, Option.map_some, hpath, ht.1]
  rfl

end RemoteSession

end SubutaiTray.Transfer
