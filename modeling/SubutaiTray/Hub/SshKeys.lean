import SubutaiTray.Qt.StdMap

/-!
The SSH keys of the machine and of the healthy environments (`SshKeyController`).

Which key is in which environment is stored in each key, in each environment, and once
more as the list of the contents. A check asks the hub about the environments that are
new, and looks through the others for files that are gone. The counter of its loops is
eight bits wide, and it indexes vectors without a test: where that is out of bounds the
step is refused.
-/
namespace SubutaiTray.Hub

structure SshKey where
  fileName : QString
  path : QString
  content : QString
  envIds : List QString
  deriving DecidableEq

structure Envs where
  id : QString
  name : QString
  lstSshContents : List QString
  keys : List SshKey
  deriving DecidableEq

/-- A file `*.pub` of the storage. -/
structure KeyFile where
  fileName : QString
  opens : Bool
  text : QString

structure KeysStorage where
  absolutePath : QString
  files : List KeyFile

namespace KeyFile

def baseName (file : KeyFile) : QString := file.fileName.takeWhile (· ≠ '.')

def accepted (file : KeyFile) : Bool :=
  !(file.baseName.any fun c => c ∈ ['/', '|', '\\', '$', '%', '~', '"', '*', '?', ':', '<', '>', '^']) &&
    file.baseName.head? ≠ some '.'

/-- The text without its last character, up to the first NUL, and without the white space of lines. -/
def content (file : KeyFile) : QString :=
  (file.text.dropLast.takeWhile (· ≠ nul)).filter fun c => c ∉ ['\n', '\t', '\r', Char.ofNat 11, Char.ofNat 12]

end KeyFile

/-- `removing` and `uploading` are the jobs of the workers: the content of the key, and the
environments. The last three fields only remember: the environments of the last
update, the contents that the hub has last reported present in each environment, and whether a check was the last step. -/
structure SshKeyController where
  keys : List SshKey
  envs : StdMap Envs
  lstHealthyEnvironments : StdMap QString
  removing : List QString
  uploading : List (List QString)
  healthy : List QString
  reported : StdMap (List QString)
  checked : Bool

namespace SshKeyController

def new : SshKeyController where
  keys := []
  envs := ∅
  lstHealthyEnvironments := ∅
  removing := []
  uploading := []
  healthy := []
  reported := ∅
  checked := false

/-- One file of `refresh_key_files` -/
def refreshKeyFile (absolutePath : QString) (keys : List SshKey) (file : KeyFile) : List SshKey :=
  if file.opens && file.accepted then
    if keys.any fun key => key.content = file.content then keys
    else
      keys ++
        [{ fileName := file.fileName
           path := absolutePath ++ '/' :: file.fileName
           content := file.content
           envIds := [] }]
  else keys

def refreshKeyFiles (storage : Option KeysStorage) (run : SshKeyController) : SshKeyController :=
  match storage with
  | none => run
  | some storage =>
      { run with keys := storage.files.foldl (refreshKeyFile storage.absolutePath) run.keys }

/-- `refresh_healthy_envs`, but for the check that it begins -/
def refreshHealthyEnvs (environments : List (QString × QString)) (run : SshKeyController) :
    SshKeyController :=
  { run with
    lstHealthyEnvironments := environments.foldl (fun envs env => envs.insert env.1 env.2) ∅
    healthy := environments.map Prod.fst }

/-- `env_ids << envId` and `env_ids.removeDuplicates()` -/
def addEnvId (envId : QString) (key : SshKey) : SshKey :=
  { key with envIds := (key.envIds ++ [envId]).eraseDups }

/-- A counter of type `uint8_t` after so many increments. -/
def counter (turns : Nat) : Nat := turns % 256

/-- The environments that are not healthy any more go, but only if there are more or fewer
than there should be. -/
def cleanUp (run : SshKeyController) : SshKeyController :=
  if run.envs.isEmpty = false ∧ run.envs.size ≠ run.lstHealthyEnvironments.size then
    { run with envs := run.envs.filter fun id _ => id ∈ run.lstHealthyEnvironments }
  else run

/-- One key of an environment that is known. -/
def checkKey (fileExists : QString → Bool) (envId : QString)
    (found : List SshKey × List QString) (turn : SshKey × Nat) :
    Option (List SshKey × List QString) :=
  if turn.1.content ∈ found.2 then
    match found.1[counter turn.2]? with
    | none => none
    | some key =>
        if fileExists key.path then some (found.1.modify (counter turn.2) (addEnvId envId), found.2)
        else if counter turn.2 < found.2.length then
          some (found.1, found.2.eraseIdx (counter turn.2))
        else none
  else some found

/-- One answer about an environment that is new. -/
def saveKey (found : List SshKey × Envs) (turn : Bool × Nat) : Option (List SshKey × Envs) :=
  if turn.1 then
    match found.1[counter turn.2]? with
    | none => none
    | some key =>
        some
          (found.1.modify (counter turn.2) (addEnvId found.2.id),
            { found.2 with
              keys := found.2.keys ++ [key]
              lstSshContents := found.2.lstSshContents ++ [key.content] })
  else some found

/-- The contents that the hub reports present. -/
def present (keys : List SshKey) (response : List Bool) : List QString :=
  ((keys.zip response).filter Prod.snd).map fun answered => answered.1.content

/-- `response` is what `is_sshkeys_in_environment` returns for each environment. -/
def checkEnvironment (response : QString → List Bool) (fileExists : QString → Bool)
    (run : SshKeyController) (env : QString × QString) : Option SshKeyController :=
  match run.envs[env.1]? with
  | some known =>
      (run.keys.zipIdx.foldlM (checkKey fileExists env.1) (run.keys, known.lstSshContents)).map
        fun found =>
          { run with
            keys := found.1
            envs := run.envs.insert env.1 { known with lstSshContents := found.2 } }
  | none =>
      ((response env.1).zipIdx.foldlM saveKey (run.keys, ⟨env.1, env.2, [], []⟩)).map fun found =>
        { run with
          keys := found.1
          envs := run.envs.insert env.1 found.2
          reported := run.reported.insert env.1 (present run.keys (response env.1)) }

def checkEnvironmentKeys (response : QString → List Bool) (fileExists : QString → Bool)
    (run : SshKeyController) : Option SshKeyController :=
  (run.lstHealthyEnvironments.toList.foldlM (checkEnvironment response fileExists) run.cleanUp).map
    fun run => { run with checked := true }

def cleanEnvironmentList (envIds : List QString) (run : SshKeyController) : SshKeyController :=
  { run with
    envs := envIds.foldl (fun envs envId => envs.erase envId) run.envs
    lstHealthyEnvironments :=
      envIds.foldl (fun envs envId => envs.erase envId) run.lstHealthyEnvironments }

def cleanKeysList (content : QString) (run : SshKeyController) : SshKeyController :=
  { run with keys := run.keys.eraseP fun key => key.content = content }

def removeKey (fileName : QString) (fileExists : QString → Bool) (storage : Option KeysStorage)
    (run : SshKeyController) : SshKeyController :=
  let run :=
    match run.keys.find? fun key => key.fileName = fileName with
    | none => run
    | some key =>
        if key.envIds ≠ [] then { run with removing := run.removing ++ [key.content] }
        else if fileExists key.path then run.cleanKeysList key.content
        else run
  run.refreshKeyFiles storage

/-- The environments to which the key at the index is uploaded. -/
def selectedEnvs (keys : List SshKey) (state : Nat × List (QString × Bool)) : List QString :=
  let envIds := ((keys[state.1]?).map SshKey.envIds).getD []
  (state.2.filter fun st => st.2 && st.1 ∉ envIds).map Prod.fst

def uploadKey (keyWithSelectedEnvs : List (Nat × List (QString × Bool))) (run : SshKeyController) :
    SshKeyController :=
  { run with
    uploading :=
      run.uploading ++
        (keyWithSelectedEnvs.map (selectedEnvs run.keys)).filter fun envIds => envIds ≠ [] }

/-- The last two are the ends of the jobs. -/
inductive Event where
  | refreshKeyFiles (storage : Option KeysStorage)
  | refreshHealthyEnvs (environments : List (QString × QString))
  | checkEnvironmentKeys (response : QString → List Bool) (fileExists : QString → Bool)
  | removeKey (fileName : QString) (fileExists : QString → Bool) (storage : Option KeysStorage)
  | uploadKey (keyWithSelectedEnvs : List (Nat × List (QString × Bool)))
  | removed (content : QString)
  | uploaded (envIds : List QString)

def step (run : SshKeyController) (event : Event) : Option SshKeyController :=
  let run := { run with checked := false }
  match event with
  | .refreshKeyFiles storage => some (run.refreshKeyFiles storage)
  | .refreshHealthyEnvs environments => some (run.refreshHealthyEnvs environments)
  | .checkEnvironmentKeys response fileExists => run.checkEnvironmentKeys response fileExists
  | .removeKey fileName fileExists storage => some (run.removeKey fileName fileExists storage)
  | .uploadKey keyWithSelectedEnvs => some (run.uploadKey keyWithSelectedEnvs)
  | .removed content =>
      if content ∈ run.removing then
        some ({ run with removing := run.removing.erase content }.cleanKeysList content)
      else none
  | .uploaded envIds =>
      if envIds ∈ run.uploading then
        some ({ run with uploading := run.uploading.erase envIds }.cleanEnvironmentList envIds)
      else none

end SshKeyController

end SubutaiTray.Hub
