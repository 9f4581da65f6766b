import SubutaiTray.Installer.Functions

/-!
Who gives `installer_is_busy` back.

Eight of the functions have a `return` before the `unlock`; the others give the lock back
on every path.
-/
namespace SubutaiTray.Installer

open Locking Routine

variable {oracle : Oracle Answer}

/-! ## The returns with the lock -/

/-- The added box is there, but cannot be moved to the version of the cloud. -/
structure BoxStays (separator : Char) (oracle : Oracle Answer) (box provider : QString)
    (paths : BoxPaths) : Prop where
  newBox : oracle (.dirExists paths.newBox) = true
  inCloud : oracle (.cloudVersion box provider) ≠ undefinedVersion
  cloudBox : oracle (.dirExists (paths.cloudBox (oracle (.cloudVersion box provider)))) = true ∨
    oracle (.mkdir (paths.cloudBox (oracle (.cloudVersion box provider)))) = true
  stays : oracle (.rename paths.newBox
    (inDir separator (paths.cloudBox (oracle (.cloudVersion box provider))) provider)) = false

def BoxFound (separator : Char) (oracle : Oracle Answer) (home box provider : QString) : Prop :=
  oracle (.dirExists (boxesPath separator home)) = true ∧
    ∃ paths ∈ boxPaths separator home box provider, BoxStays separator oracle box provider paths

/-- `vagrant` adds the box, and then the box stays where it is. -/
structure BoxNotMoved (separator : Char) (oracle : Oracle Answer)
    (dir fileName box provider : QString) : Prop where
  added : oracle (.vagrantAddBox box provider (inDir separator dir fileName)) = .success
  stays : ∃ home ∈ (oracle .homeLocations).head?, BoxFound separator oracle home box provider

/-- The answers after which a function returns with the lock. -/
def KeepsLock (separator : Char) (oracle : Oracle Answer) : Call → Prop
  | .parallelsInterfaces =>
      (oracle (.which "prlctl".toList)).1 = .success ∧
        (oracle (listParallels (oracle (.which "prlctl".toList)).2)).failed = true
  | .libvirtInterfaces =>
      (oracle (.which "virsh".toList)).1 = .success ∧ (oracle listLibvirt).failed = true
  | .virtualboxInterfaces =>
      oracle (.version .oracleVirtualbox) ≠ undefinedVersion ∧
        (oracle (listVirtualbox (oracle (.parentPath (oracle .oracleVirtualboxPath))))).failed =
          true
  | .installVmwareUtility .. => oracle (.version .vmware) = undefinedVersion
  | .uninstallVmwareUtility .. => oracle (.version .vmware) = undefinedVersion
  | .installParallels dir fileName =>
      (oracle (osascript (installParallelsScript (inDir separator dir fileName)))).res ≠ .success ∧
        (oracle (osascript (installParallelsScript (inDir separator dir fileName)))).exitCode ≠ 0
  | .uninstallParallels .. =>
      oracle (.dirExists parallelsApp) = false ∨ (oracle quitParallels).exitCode ≠ 0 ∨
        (oracle removeParallels).exitCode ≠ 0
  | .installSubutaiBox dir fileName =>
      BoxNotMoved separator oracle dir fileName (oracle .subutaiBoxName) (oracle .currentProvider)
  | _ => False

/-! ## Function by function -/

theorem clean_returnVersion (of : Versioned) (res : SystemCallWrapperError) : (returnVersion of res).Clean true := by
  rw [returnVersion]
  split
  · exact fun _ => ⟨rfl, rfl⟩
  · exact ⟨rfl, rfl⟩

theorem clean_installVersioned (operation : Internal) (of : Versioned) (dir fileName : QString) :
    (installVersioned operation of dir fileName).Clean false :=
  ⟨rfl, clean_returnVersion of⟩

theorem clean_installE2e (operation : Internal) (dir fileName : QString) :
    (installE2e operation dir fileName).Clean false :=
  ⟨rfl, fun _ => ⟨rfl, rfl⟩⟩

theorem clean_vagrantPlugin (name command : QString) :
    (vagrantPlugin name command).Clean false :=
  ⟨rfl, fun _ _ => clean_returnVersion (.vagrantPlugin name) _⟩

theorem clean_installXquartz (separator : Char) (dir fileName : QString) :
    (installXquartz separator dir fileName).Clean false :=
  ⟨rfl, fun _ => clean_returnVersion .xquartz _⟩

theorem clean_runSwitchScript (tmpScript : QString) :
    (runSwitchScript tmpScript).Clean true := by
  intro answer
  cases answer with
  | false => exact ⟨rfl, rfl⟩
  | true =>
      intro finished
      dsimp only
      split
      · exact ⟨rfl, rfl⟩
      · exact fun _ => ⟨rfl, rfl⟩

theorem clean_hypervInterfaces (separator : Char) : (hypervInterfaces separator).Clean false := by
  refine ⟨rfl, ?_⟩
  intro found
  dsimp only
  split
  · exact ⟨rfl, rfl⟩
  · intro tmpDir
    cases tmpDir with
    | nil => exact ⟨rfl, rfl⟩
    | cons tmp rest =>
        intro answer
        cases answer with
        | false => exact fun _ => clean_runSwitchScript _
        | true => exact clean_runSwitchScript _

/-! ## The listings -/

theorem keeps_parallelsInterfaces (separator : Char) :
    parallelsInterfaces.Keeps oracle false (KeepsLock separator oracle .parallelsInterfaces) := by
  apply keeps_lock
  apply keeps_call
  by_cases hfound : (oracle (.which "prlctl".toList)).1 = .success
  · rw [if_neg (not_not_intro hfound)]
    apply keeps_call
    have hending : ∀ interfaces : List QString,
        Routine.Keeps oracle true
          (if (oracle (listParallels (oracle (.which "prlctl".toList)).2)).failed = true then
            .returns interfaces
          else .unlock (.returns interfaces))
          (KeepsLock separator oracle .parallelsInterfaces) := by
      intro interfaces
      by_cases hfailed : (oracle (listParallels (oracle (.which "prlctl".toList)).2)).failed = true
      · rw [if_pos hfailed]
        exact keeps_returns interfaces ⟨hfound, hfailed⟩
      · rw [if_neg hfailed]
        exact Clean.keeps_of_not ⟨rfl, rfl⟩ (fun hkeeps => hfailed hkeeps.2)
    dsimp only
    split
    · apply keeps_call
      split
      · exact keeps_call (hending _)
      · exact hending _
    · exact hending []
  · rw [if_pos hfound]
    exact Clean.keeps_of_not ⟨rfl, rfl⟩ (fun hkeeps => hfound hkeeps.1)

theorem keeps_libvirtInterfaces (separator : Char) :
    libvirtInterfaces.Keeps oracle false (KeepsLock separator oracle .libvirtInterfaces) := by
  apply keeps_lock
  apply keeps_call
  by_cases hfound : (oracle (.which "virsh".toList)).1 = .success
  · rw [if_neg (not_not_intro hfound)]
    apply keeps_call
    by_cases hfailed : (oracle listLibvirt).failed = true
    · rw [if_pos hfailed]
      exact keeps_returns [] ⟨hfound, hfailed⟩
    · rw [if_neg hfailed]
      refine Clean.keeps_of_not ?_ (fun hkeeps => hfailed hkeeps.2)
      cases libvirtRows ((oracle listLibvirt).out.drop 2) with
      | none => trivial
      | some interfaces => exact ⟨rfl, rfl⟩
  · rw [if_pos hfound]
    exact Clean.keeps_of_not ⟨rfl, rfl⟩ (fun hkeeps => hfound hkeeps.1)

theorem keeps_virtualboxInterfaces (separator : Char) :
    virtualboxInterfaces.Keeps oracle false
      (KeepsLock separator oracle .virtualboxInterfaces) := by
  apply keeps_lock
  apply keeps_call
  by_cases hversion : oracle (.version .oracleVirtualbox) = undefinedVersion
  · rw [if_pos hversion]
    exact Clean.keeps_of_not ⟨rfl, rfl⟩ (fun hkeeps => hkeeps.1 hversion)
  · rw [if_neg hversion]
    apply keeps_call
    apply keeps_call
    apply keeps_call
    split
    case isTrue hfailed => exact keeps_returns [] ⟨hversion, hfailed⟩
    case isFalse hfailed =>
      exact Clean.keeps_of_not ⟨rfl, rfl⟩ (fun hkeeps => hfailed hkeeps.2)

/-! ## Installing and uninstalling -/

/-- Without VMware the function of the utility returns at once. -/
theorem keeps_installUtility (operation : Internal) (dir fileName : QString) :
    (installUtility operation dir fileName).Keeps oracle false
      (oracle (.version .vmware) = undefinedVersion) := by
  apply keeps_lock
  apply keeps_call
  by_cases hversion : oracle (.version .vmware) = undefinedVersion
  · rw [if_pos hversion]
    exact keeps_returns _ hversion
  · rw [if_neg hversion]
    exact Clean.keeps_of_not (fun _ => clean_returnVersion .vmwareUtility _) hversion

theorem keeps_installParallels (separator : Char) (dir fileName : QString) :
    (installParallels separator dir fileName).Keeps oracle false
      (KeepsLock separator oracle (.installParallels dir fileName)) := by
  apply keeps_lock
  apply keeps_call
  split
  case isTrue hfailed => exact keeps_returns _ hfailed
  case isFalse hfailed => exact Clean.keeps_of_not (clean_returnVersion .parallels _) hfailed

theorem keeps_uninstallParallels (separator : Char) (dir fileName : QString) :
    uninstallParallels.Keeps oracle false
      (KeepsLock separator oracle (.uninstallParallels dir fileName)) := by
  apply keeps_lock
  apply keeps_call
  cases hdir : oracle (.dirExists parallelsApp) with
  | false => exact keeps_returns _ (Or.inl hdir)
  | true =>
      apply keeps_call
      by_cases hquit : (oracle quitParallels).exitCode ≠ 0
      · rw [if_pos hquit]
        exact keeps_returns _ (Or.inr (Or.inl hquit))
      · rw [if_neg hquit]
        apply keeps_call
        by_cases hremove : (oracle removeParallels).exitCode ≠ 0
        · rw [if_pos hremove]
          exact keeps_returns _ (Or.inr (Or.inr hremove))
        · rw [if_neg hremove]
          refine Clean.keeps_of_not ?_ ?_
          · split
            · exact fun _ => ⟨rfl, rfl⟩
            · exact ⟨rfl, rfl⟩
          · rintro (habsent | hfailed | hfailed)
            · exact Bool.false_ne_true (habsent.symm.trans hdir)
            · exact hquit hfailed
            · exact hremove hfailed

theorem clean_failBox : failBox.Clean true := ⟨rfl, rfl⟩

theorem clean_finishBox (box provider : QString) (paths : BoxPaths) :
    (finishBox box provider paths).Clean true := by
  intro answer
  cases answer with
  | true => exact fun _ => ⟨rfl, rfl⟩
  | false =>
      intro created
      cases created with
      | false => exact clean_failBox
      | true => exact fun _ => ⟨rfl, rfl⟩

theorem keeps_moveBox (separator : Char) (box provider cloudVersion : QString) (paths : BoxPaths) :
    (moveBox separator box provider cloudVersion paths).Keeps oracle true
      (oracle (.rename paths.newBox
        (inDir separator (paths.cloudBox cloudVersion) provider)) = false) := by
  apply keeps_call
  cases hmoved : oracle (.rename paths.newBox
      (inDir separator (paths.cloudBox cloudVersion) provider)) with
  | false => exact keeps_returns _ rfl
  | true => exact Clean.keeps_of_not (clean_finishBox _ _ _) (ne_false_of_eq_true rfl)

theorem keeps_placeBox (separator : Char) (box provider : QString) (paths : BoxPaths) :
    (placeBox separator box provider paths).Keeps oracle true
      (BoxStays separator oracle box provider paths) := by
  have hmove (hplace : BoxStays separator oracle box provider paths ↔
        oracle (.rename paths.newBox (inDir separator
          (paths.cloudBox (oracle (.cloudVersion box provider))) provider)) = false) :
      (moveBox separator box provider (oracle (.cloudVersion box provider)) paths).Keeps oracle true
        (BoxStays separator oracle box provider paths) := by
    rw [hplace]
    exact keeps_moveBox separator box provider _ paths
  apply keeps_call
  cases hnew : oracle (.dirExists paths.newBox) with
  | false =>
      exact Clean.keeps_of_not clean_failBox fun hkeeps =>
        Bool.false_ne_true (hnew.symm.trans hkeeps.newBox)
  | true =>
      apply keeps_call
      by_cases hcloud : oracle (.cloudVersion box provider) = undefinedVersion
      · rw [if_pos hcloud]
        exact Clean.keeps_of_not clean_failBox fun hkeeps => hkeeps.inCloud hcloud
      · rw [if_neg hcloud]
        apply keeps_call
        cases hdir : oracle (.dirExists
            (paths.cloudBox (oracle (.cloudVersion box provider)))) with
        | true =>
            exact hmove ⟨fun hkeeps => hkeeps.stays, fun hstays =>
              ⟨hnew, hcloud, Or.inl hdir, hstays⟩⟩
        | false =>
            apply keeps_call
            cases hmade : oracle (.mkdir
                (paths.cloudBox (oracle (.cloudVersion box provider)))) with
            | true =>
                exact hmove ⟨fun hkeeps => hkeeps.stays, fun hstays =>
                  ⟨hnew, hcloud, Or.inr hmade, hstays⟩⟩
            | false =>
                refine Clean.keeps_of_not clean_failBox fun hkeeps => ?_
                rcases hkeeps.cloudBox with hthere | hthere
                · exact Bool.false_ne_true (hdir.symm.trans hthere)
                · exact Bool.false_ne_true (hmade.symm.trans hthere)

theorem keeps_findBox (separator : Char) (home box provider : QString) :
    (findBox separator home box provider).Keeps oracle true
      (BoxFound separator oracle home box provider) := by
  apply keeps_call
  cases hboxes : oracle (.dirExists (boxesPath separator home)) with
  | false =>
      exact Clean.keeps_of_not clean_failBox fun hkeeps =>
        Bool.false_ne_true (hboxes.symm.trans hkeeps.1)
  | true =>
      dsimp only
      cases hpaths : boxPaths separator home box provider with
      | none => exact Or.inl rfl
      | some paths =>
          have hfound : BoxFound separator oracle home box provider ↔
              BoxStays separator oracle box provider paths := by
            constructor
            · rintro ⟨-, paths', hmem, hstays⟩
              rw [hpaths] at hmem
              rwa [Option.some.inj hmem]
            · exact fun hstays => ⟨hboxes, paths, hpaths, hstays⟩
          rw [hfound]
          exact keeps_placeBox separator box provider paths

theorem keeps_installSubutaiBox (separator : Char) (dir fileName : QString) :
    (installSubutaiBox separator dir fileName).Keeps oracle false
      (KeepsLock separator oracle (.installSubutaiBox dir fileName)) := by
  apply keeps_lock
  apply keeps_call
  apply keeps_call
  apply keeps_call
  split
  case isTrue hadded =>
    exact Clean.keeps_of_not ⟨rfl, rfl⟩ fun hkeeps => hadded hkeeps.added
  case isFalse hadded =>
    apply keeps_call
    cases hhome : oracle .homeLocations with
    | nil =>
        refine Clean.keeps_of_not clean_failBox fun hkeeps => ?_
        obtain ⟨home, hmem, -⟩ := hkeeps.stays
        rw [hhome] at hmem
        exact Option.not_mem_none home hmem
    | cons home others =>
        have hkeeps : KeepsLock separator oracle (.installSubutaiBox dir fileName) ↔
            BoxFound separator oracle home (oracle .subutaiBoxName) (oracle .currentProvider) := by
          constructor
          · rintro ⟨-, home', hmem, hfound⟩
            rw [hhome] at hmem
            rwa [Option.some.inj hmem]
          · intro hfound
            refine ⟨not_not.mp hadded, home, ?_, hfound⟩
            rw [hhome]
            rfl
        rw [hkeeps]
        exact keeps_findBox separator home _ _

/-! ## Every call -/

theorem keeps_routine (separator : Char) (call : Call) (oracle : Oracle Answer) :
    (call.routine separator).Keeps oracle false (KeepsLock separator oracle call) := by
  have hversioned : ∀ operation of dir fileName,
      (installVersioned operation of dir fileName).Keeps oracle false False :=
    fun operation of dir fileName => (clean_installVersioned operation of dir fileName).keeps
  have he2e : ∀ operation dir fileName,
      (installE2e operation dir fileName).Keeps oracle false False :=
    fun operation dir fileName => (clean_installE2e operation dir fileName).keeps
  cases call with
  | parallelsInterfaces => exact keeps_parallelsInterfaces separator
  | hypervInterfaces => exact (clean_hypervInterfaces separator).keeps
  | libvirtInterfaces => exact keeps_libvirtInterfaces separator
  | virtualboxInterfaces => exact keeps_virtualboxInterfaces separator
  | vagrantPlugin name command => exact (clean_vagrantPlugin name command).keeps
  | installVmwareUtility dir fileName | uninstallVmwareUtility dir fileName =>
      exact keeps_installUtility _ dir fileName
  | installParallels dir fileName => exact keeps_installParallels separator dir fileName
  | uninstallParallels dir fileName => exact keeps_uninstallParallels separator dir fileName
  | installSubutaiBox dir fileName => exact keeps_installSubutaiBox separator dir fileName
  | installXquartz dir fileName => exact (clean_installXquartz separator dir fileName).keeps
  | installE2eChrome | uninstallE2eChrome | installE2eFirefox _ _ | uninstallE2eFirefox =>
      exact he2e _ _ _
  | _ => exact hversioned _ _ _ _

/-- In every sequence of calls the lock is free after each of them and nobody waits for it,
exactly when no call gets the answers after which it returns with the lock. -/
theorem alwaysFree_iff_noneKeepsLock (separator : Char) (events : List (Call × Oracle Answer)) :
    Runs.AlwaysPartial (Mutex.step (Call.routine separator)) Mutex.Free Mutex.new events ↔
      Runs.EachStepPartial (Mutex.step (Call.routine separator))
        (fun _ event => ¬ KeepsLock separator event.2 event.1) Mutex.new events :=
  Mutex.alwaysFree_iff (Call.routine separator) (keeps_routine separator) events

instance (step : Step) : Inhabited (Answer step) := ⟨by cases step <;> exact default⟩

/-- VirtualBox is there, but its list of the interfaces fails. -/
def brokenVirtualbox : Oracle Answer
  | .version .oracleVirtualbox => "5.2.22".toList
  | .ssystemTh .. => { res := .success, out := [], exitCode := 1 }
  | _ => default

/-- The second call waits for ever. -/
theorem not_alwaysFree_brokenVirtualbox :
    ¬ Runs.AlwaysPartial (Mutex.step (Call.routine '/')) Mutex.Free Mutex.new
      [(.virtualboxInterfaces, brokenVirtualbox), (.virtualboxInterfaces, brokenVirtualbox)] := by
  intro always
  have hfree : Mutex.Free { held := true, waiting := true } :=
    always _ _ (List.prefix_refl _) rfl
  exact Bool.false_ne_true hfree.2.symm

end SubutaiTray.Installer
