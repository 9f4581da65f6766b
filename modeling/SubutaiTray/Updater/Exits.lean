import SubutaiTray.Updater.Operations

/-!
Which exits of the operations are without a finished signal.

They are listed once; every operation is read against the list.
-/
namespace SubutaiTray.Updater

inductive Kind where
  | update
  | install
  | uninstall
  deriving DecidableEq

def Operations.internal (operations : Operations) : Kind → Script
  | .update => operations.updateInternal
  | .install => operations.installInternal
  | .uninstall => operations.uninstallInternal

/-- The answers after which an operation is over and says nothing. -/
def quiet (os : OS) (id : ComponentId) (kind : Kind) (question : Question) (yes : Bool) : Bool :=
  !yes &&
    match id, kind with
    | .p2p, .install => question = .presented
    | .p2p, .update =>
        question ∈ [.pathFound, .pathUsable, .presented] || os ≠ .linux && question = .downloaded
    | .tray, .update => question ∈ [.pathUsable, .presented, .downloaded]
    | _, _ => false

/-- The control center says nothing about its installation and removal. -/
def mute (id : ComponentId) (kind : Kind) : Prop := id = .tray ∧ kind ≠ .update

namespace Script

/-- The operation is over without having to wait, and has sent nothing. -/
def silent : Script → Bool
  | .ends => true
  | .progress _ _ next => next.silent
  | .returns _ next => next.silent
  | _ => false

/-- Whatever the answers that are not quiet, one signal is sent, and it is the last thing
that waiting leads to. -/
def Speaks (quiet : Question → Bool → Bool) : Bool → Script → Prop
  | said, .ends => said = true
  | said, .finish _ next => said = false ∧ Speaks quiet true next
  | _, .clear _ => False
  | said, .progress _ _ next => Speaks quiet said next
  | said, .returns _ next => Speaks quiet said next
  | said, .ask question next =>
      said = false ∧ ∀ yes, if quiet question yes then (next yes).silent = true
        else Speaks quiet false (next yes)
  | said, .download _ next =>
      said = false ∧ ∀ yes, if quiet .downloaded yes then (next yes).silent = true
        else Speaks quiet false (next yes)
  | said, .work silent cc next =>
      said = false ∧ silent.handles cc = true ∧
        ∀ success version, Speaks quiet false (next success version)

end Script

section
variable {quiet : Question → Bool → Bool} {question : Question} {next : Bool → Script}

theorem speaks_ask (hquiet : ∀ yes, quiet question yes = false)
    (hno : (next false).Speaks quiet false) (hyes : (next true).Speaks quiet false) :
    (Script.ask question next).Speaks quiet false := by
  refine ⟨rfl, ?_⟩
  intro yes
  rw [hquiet yes, if_neg Bool.false_ne_true]
  cases yes with
  | false => exact hno
  | true => exact hyes

/-- The answer "no" is one of the quiet ones. -/
theorem speaks_ask_of_silent (hquiet : ∀ yes, quiet question yes = !yes)
    (hno : (next false).silent = true) (hyes : (next true).Speaks quiet false) :
    (Script.ask question next).Speaks quiet false := by
  refine ⟨rfl, ?_⟩
  intro yes
  rw [hquiet yes]
  cases yes with
  | false => exact hno
  | true => exact hyes

theorem speaks_download (shown : Int → Int → Int × Int)
    (hquiet : ∀ yes, quiet .downloaded yes = false)
    (hno : (next false).Speaks quiet false) (hyes : (next true).Speaks quiet false) :
    (Script.download shown next).Speaks quiet false :=
  speaks_ask hquiet hno hyes

theorem speaks_install (cc : CcComponent) : (install cc).Speaks quiet false :=
  ⟨rfl, rfl, fun _ _ => ⟨rfl, rfl⟩⟩

theorem speaks_uninstall (cc : CcComponent) : (uninstall cc).Speaks quiet false :=
  ⟨rfl, rfl, fun _ _ => ⟨rfl, rfl⟩⟩

theorem speaks_update {cc : CcComponent} (hcc : Silent.updater.handles cc = true) :
    (update cc).Speaks quiet false :=
  ⟨rfl, hcc, fun _ _ => ⟨rfl, rfl⟩⟩

theorem speaks_downloadAndInstall (cc : CcComponent)
    (hquiet : ∀ yes, quiet .downloaded yes = false) :
    (downloadAndInstall cc).Speaks quiet false :=
  speaks_download Prod.mk hquiet ⟨rfl, rfl⟩ (speaks_install cc)

/-- The files are the surroundings only of the download, and whatever comes of them is said. -/
theorem speaks_replaceExecutables (os : OS) {finished : Bool → Script}
    (hquiet : ∀ question ∈ [Question.srcExists, .dstExists, .tmpExists, .tmpRemoved, .dstRenamed,
      .srcCopied, .permissionsSet], ∀ yes, quiet question yes = false)
    (hfinished : ∀ replaced, (finished replaced).Speaks quiet false) :
    (replaceExecutables os true finished).Speaks quiet false := by
  have hset : (if os = .windows then finished true else Script.ask .permissionsSet finished).Speaks
      quiet false := by
    split
    · exact hfinished true
    · exact speaks_ask (hquiet .permissionsSet (by decide)) (hfinished false) (hfinished true)
  refine speaks_ask (hquiet .srcExists (by decide)) (hfinished true) ?_
  refine speaks_ask (hquiet .dstExists (by decide)) ?_ ?_
  · exact speaks_ask (hquiet .srcCopied (by decide)) (hfinished false) hset
  · have hrenamed := hquiet .dstRenamed (by decide)
    have hcopied := hquiet .srcCopied (by decide)
    refine speaks_ask (hquiet .tmpExists (by decide)) ?_ ?_
    · exact speaks_ask hrenamed (hfinished false) (speaks_ask hcopied (hfinished false) hset)
    · refine speaks_ask (hquiet .tmpRemoved (by decide)) (hfinished true) ?_
      exact speaks_ask hrenamed (hfinished false) (speaks_ask hcopied (hfinished false) hset)

end

/-! ## The components that always speak -/

def Loud (script : Script) : Prop := script.Speaks (fun _ _ => false) false

theorem loud_ask (question : Question) {next : Bool → Script} (hno : Loud (next false))
    (hyes : Loud (next true)) : Loud (.ask question next) :=
  speaks_ask (fun _ => rfl) hno hyes

theorem loud_download (shown : Int → Int → Int × Int) {next : Bool → Script}
    (hno : Loud (next false)) (hyes : Loud (next true)) : Loud (.download shown next) :=
  speaks_download shown (fun _ => rfl) hno hyes

theorem loud_refuseInstall (code : Chue) : Loud (refuseInstall code) := ⟨rfl, rfl⟩

theorem loud_refuseUninstall (code : Chue) : Loud (refuseUninstall code) := ⟨rfl, rfl⟩

theorem loud_installPackage (cc : CcComponent) : Loud (installPackage cc) := by
  refine loud_ask .proceed (loud_refuseInstall .success) ?_
  refine loud_ask .presented (loud_refuseInstall .notOnKurjun) ?_
  exact @speaks_downloadAndInstall (fun _ _ => false) cc fun _ => rfl

theorem loud_installDirectly (cc : CcComponent) : Loud (installDirectly cc) :=
  loud_ask .proceed (loud_refuseInstall .success) (speaks_install cc)

theorem loud_updateNothing : Loud updateNothing := ⟨rfl, rfl⟩

theorem loud_updatePlugin (part total : Int) {cc : CcComponent}
    (hcc : Silent.updater.handles cc = true) : Loud (updatePlugin part total cc) :=
  speaks_update hcc

theorem loud_uninstallDirectly (cc : CcComponent) : Loud (uninstallDirectly cc) :=
  speaks_uninstall cc

theorem loud_uninstallStopped (cc : CcComponent) : Loud (uninstallStopped cc) :=
  loud_ask .proceed (loud_refuseUninstall .failed) (speaks_uninstall cc)

theorem loud_hyperv (kind : Kind) : Loud (updaterComponentHyperv.internal kind) := by
  cases kind with
  | update => exact loud_updateNothing
  | install => exact loud_installDirectly .hyperv
  | uninstall =>
      exact loud_ask .proceed (loud_refuseUninstall .success) (speaks_uninstall .hyperv)

theorem loud_kvm (kind : Kind) : Loud (updaterComponentKvm.internal kind) := by
  cases kind with
  | update => exact loud_updateNothing
  | install =>
      exact loud_ask .proceed (loud_refuseInstall .success)
        (loud_ask .cpuSupport
          (loud_ask .acknowledge (speaks_install .kvm) (loud_refuseInstall .success))
          (speaks_install .kvm))
  | uninstall => exact loud_uninstallStopped .kvm

theorem loud_virtualbox (os : OS) (kind : Kind) :
    Loud ((updaterComponentVirtualbox os).internal kind) := by
  cases kind with
  | update => exact loud_updateNothing
  | install => exact loud_installPackage .vb
  | uninstall =>
      refine loud_ask .proceed (loud_refuseUninstall .failed) ?_
      dsimp only
      split
      · refine loud_ask .presented (loud_refuseInstall .notOnKurjun) ?_
        exact loud_download Prod.mk ⟨rfl, rfl⟩ (speaks_uninstall .vb)
      · exact speaks_uninstall .vb

theorem loud_e2e (kind : Kind) : Loud (updaterComponentE2E.internal kind) := by
  cases kind with
  | update => exact ⟨rfl, rfl⟩
  | install =>
      refine loud_ask .proceed (loud_refuseInstall .success) ?_
      refine loud_ask .chromeIsDefault ?_ (speaks_install .e2e)
      refine loud_ask .presented (loud_refuseInstall .notOnKurjun) ?_
      exact loud_download (fun rec total => (rec, total + total.tdiv 5)) ⟨rfl, rfl⟩
        (speaks_install .e2e)
  | uninstall => exact loud_uninstallDirectly .e2e

theorem loud_installSubutaiBox (isUpdate : Bool) : Loud (installSubutaiBox isUpdate) := by
  refine loud_ask .boxInstalled (loud_ask .proceed (loud_refuseInstall .success) ?box) ?box
  refine loud_ask .presented (loud_refuseInstall .notOnKurjun) ?_
  exact loud_download Prod.mk ⟨rfl, rfl⟩ ⟨rfl, rfl, fun _ _ => ⟨rfl, rfl⟩⟩

theorem loud_subutaiBox (kind : Kind) : Loud (updaterComponentSubutaiBox.internal kind) := by
  cases kind with
  | update => exact loud_installSubutaiBox true
  | install => exact loud_installSubutaiBox false
  | uninstall =>
      refine loud_ask .licenseInstalled (loud_refuseUninstall .success) ?_
      exact loud_ask .machinePeers (speaks_uninstall .subutaiBox)
        (loud_ask .proceed (loud_refuseUninstall .success) (speaks_uninstall .subutaiBox))

/-! ## All components -/

theorem quiet_eq (os : OS) {id : ComponentId} (hp2p : id ≠ .p2p) (htray : id ≠ .tray)
    (kind : Kind) : quiet os id kind = fun _ _ => false := by
  funext question yes
  have hnone : quiet os id kind question yes = (!yes && false) := by
    cases id with
    | p2p => exact absurd rfl hp2p
    | tray => exact absurd rfl htray
    | _ => rfl
  rw [hnone, Bool.and_false]

theorem loud_of {operations : Operations} (hupdate : Loud operations.updateInternal)
    (hinstall : Loud operations.installInternal) (huninstall : Loud operations.uninstallInternal)
    (kind : Kind) : Loud (operations.internal kind) := by
  cases kind with
  | update => exact hupdate
  | install => exact hinstall
  | uninstall => exact huninstall

theorem loud_component (os : OS) {id : ComponentId} (hp2p : id ≠ .p2p) (htray : id ≠ .tray)
    (kind : Kind) : Loud ((component os id).internal kind) := by
  cases id with
  | p2p => exact absurd rfl hp2p
  | tray => exact absurd rfl htray
  | chrome | firefox | vagrant | x2go | xquartz | vmwareUtility =>
      exact loud_of loud_updateNothing (loud_installPackage _) (loud_uninstallDirectly _) kind
  | vmware | parallels =>
      exact loud_of loud_updateNothing (loud_installPackage _) (loud_uninstallStopped _) kind
  | vagrantSubutai | vagrantVbguest | vagrantLibvirt | vagrantParallels | vagrantVmwareDesktop =>
      exact loud_of (loud_updatePlugin _ _ rfl) (loud_installDirectly _) (loud_uninstallDirectly _)
        kind
  | hyperv => exact loud_hyperv kind
  | kvm => exact loud_kvm kind
  | oracleVirtualbox => exact loud_virtualbox os kind
  | e2e => exact loud_e2e kind
  | subutaiBox => exact loud_subutaiBox kind

section
variable {quiet : Question → Bool → Bool}

/-- The executable cannot be replaced where there is none on the server, or the download
has failed. -/
theorem speaks_downloadAndReplace (os : OS) (hpresented : ∀ yes, quiet .presented yes = !yes)
    (hdownloaded : ∀ yes, quiet .downloaded yes = !yes)
    (hupToDate : ∀ yes, quiet .upToDate yes = false)
    (hquiet : ∀ question ∈ [Question.srcExists, .dstExists, .tmpExists, .tmpRemoved, .dstRenamed,
      .srcCopied, .permissionsSet], ∀ yes, quiet question yes = false) :
    (downloadAndReplace os).Speaks quiet false := by
  refine speaks_ask_of_silent hpresented rfl ?_
  refine speaks_ask hupToDate ?_ ?_
  · refine ⟨rfl, ?_⟩
    intro yes
    rw [hdownloaded yes]
    cases yes with
    | false => exact rfl
    | true =>
        exact @speaks_replaceExecutables quiet os
          (fun replaced => .finish (.updateFinished replaced) .ends) hquiet fun _ => ⟨rfl, rfl⟩
  · exact @speaks_replaceExecutables quiet os
      (fun replaced => .finish (.updateFinished replaced) (.returns .success .ends)) hquiet
      fun _ => ⟨rfl, rfl⟩

theorem speaks_withP2pPath {next : Script} (hfound : ∀ yes, quiet .pathFound yes = !yes)
    (husable : ∀ yes, quiet .pathUsable yes = !yes) (hnext : next.Speaks quiet false) :
    (withP2pPath next).Speaks quiet false :=
  speaks_ask_of_silent hfound rfl (speaks_ask_of_silent husable rfl hnext)

end

theorem speaks_updateInternalLinux :
    updateInternalLinux.Speaks (quiet .linux .p2p .update) false := by
  apply speaks_withP2pPath
  · decide
  · decide
  · refine speaks_ask_of_silent (by decide) rfl ?_
    refine speaks_ask (by decide) ?_ ?_
    · exact speaks_download Prod.mk (by decide) ⟨rfl, rfl⟩ (speaks_update rfl)
    · exact @speaks_update (quiet .linux .p2p .update) .p2p rfl

theorem speaks_updateInternalMacWin {os : OS} (hos : os ≠ .linux) :
    (updateInternalMacWin os).Speaks (quiet os .p2p .update) false := by
  have hno (yes : Bool) : (!yes && true) = !yes := Bool.and_true _
  have hdownloaded : ∀ yes, quiet os .p2p .update .downloaded yes = !yes := by
    intro yes
    cases os with
    | linux => exact absurd rfl hos
    | mac => exact hno yes
    | windows => exact hno yes
  apply speaks_withP2pPath
  · exact hno
  · exact hno
  · apply speaks_downloadAndReplace os hno hdownloaded
    · cases os <;> decide
    · cases os <;> decide

theorem speaks_p2p (os : OS) (kind : Kind) :
    ((updaterComponentP2P os).internal kind).Speaks (quiet os .p2p kind) false := by
  cases kind with
  | update =>
      by_cases hos : os = .linux
      · rw [hos]
        exact speaks_updateInternalLinux
      · have hinternal : (updaterComponentP2P os).internal .update = updateInternalMacWin os :=
          if_neg hos
        rw [hinternal]
        exact speaks_updateInternalMacWin hos
  | install =>
      have hos : quiet os .p2p .install = quiet .linux .p2p .install := rfl
      rw [hos]
      refine speaks_ask (by decide) ⟨rfl, rfl⟩ ?_
      refine speaks_ask_of_silent (by decide) rfl ?_
      exact @speaks_downloadAndInstall (quiet .linux .p2p .install) .p2p (by decide)
  | uninstall => exact @speaks_uninstall (quiet os .p2p .uninstall) .p2p

theorem speaks_tray (os : OS) :
    ((updaterComponentTray os).internal .update).Speaks (quiet os .tray .update) false := by
  have hos : quiet os .tray .update = quiet .linux .tray .update := rfl
  rw [hos]
  refine speaks_ask_of_silent (by decide) rfl ?_
  apply speaks_downloadAndReplace os
  · decide
  · decide
  · decide
  · decide

/-- The list is complete. -/
theorem speaks_internal (os : OS) {id : ComponentId} {kind : Kind} (hmute : ¬ mute id kind) :
    ((component os id).internal kind).Speaks (quiet os id kind) false := by
  by_cases hp2p : id = .p2p
  · rw [hp2p]
    exact speaks_p2p os kind
  · by_cases htray : id = .tray
    · have hkind : kind = .update := by
        by_contra hne
        exact hmute ⟨htray, hne⟩
      rw [htray, hkind]
      exact speaks_tray os
    · rw [quiet_eq os hp2p htray kind]
      exact loud_component os hp2p htray kind

end SubutaiTray.Updater
