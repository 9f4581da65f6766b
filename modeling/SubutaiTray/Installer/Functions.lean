import SubutaiTray.Library.Locking
import SubutaiTray.Process.SystemCall
import SubutaiTray.Qt.PlaceMarkers

/-!
The functions of `CSystemCallWrapper` that take `installer_is_busy`.

What a function asks the system is a step, and the answer decides how it goes on. The
functions with the suffix `_internal` run programs and never touch the lock: a step each.
-/
namespace SubutaiTray.Installer

open Locking

/-- `system_call_wrapper_install_t` -/
structure SystemCallWrapperInstall where
  res : SystemCallWrapperError
  version : QString

/-- The functions that do the work for the operating system. -/
inductive Internal where
  | installP2p
  | updateP2pLinux
  | uninstallP2p
  | installX2go
  | uninstallX2go
  | installVagrant
  | uninstallVagrant
  | installVmwareUtility
  | uninstallVmwareUtility
  | installVmware
  | uninstallVmware
  | installOracleVirtualbox
  | uninstallOracleVirtualbox
  | installChrome
  | uninstallChrome
  | installFirefox
  | uninstallFirefox
  | installE2eChrome
  | uninstallE2eChrome
  | installE2eFirefox
  | uninstallE2eFirefox

/-- The programs that are asked for their version. -/
inductive Versioned where
  | p2p
  | x2go
  | vagrant
  | vmware
  | vmwareUtility
  | parallels
  | oracleVirtualbox
  | chrome
  | firefox
  | xquartz
  | vagrantPlugin (name : QString)
  | vagrantLatestBox (box provider : QString)

inductive Step where
  | which (cmd : QString)
  | ssystem (cmd : QString) (args : List QString)
  | ssystemTh (cmd : QString) (args : List QString)
  | proc (commandLine : QString)
  | version (of : Versioned)
  | cloudVersion (box provider : QString)
  | internal (operation : Internal) (dir fileName : QString)
  | vagrantAddBox (box provider boxDir : QString)
  | vagrantPath
  | oracleVirtualboxPath
  | setParallelsVmStorage (path : QString)
  | subutaiBoxName
  | currentProvider
  | tempLocations
  | homeLocations
  | parentPath (path : QString)
  | dirExists (path : QString)
  | fileExists (path : QString)
  | fileExistsNow (path : QString)
  | copyFile (source target : QString)
  | mkdir (path : QString)
  | rename (source target : QString)
  | createFile (path text : QString)
  | hardwareInfo (output : QString)
  | switchNames (output : QString)

/-- The JSON documents are read by Qt: the storage of the machines with the key and the type
of each piece of hardware, and the names of the switches. -/
abbrev Answer : Step → Type
  | .which _ => SystemCallWrapperError × QString
  | .ssystem .. => SystemCallRes
  | .ssystemTh .. => SystemCallRes
  | .proc _ => Int × QString
  | .version _ => QString
  | .cloudVersion .. => QString
  | .internal .. => SystemCallWrapperError
  | .vagrantAddBox .. => SystemCallWrapperError
  | .vagrantPath => QString
  | .oracleVirtualboxPath => QString
  | .setParallelsVmStorage _ => Unit
  | .subutaiBoxName => QString
  | .currentProvider => QString
  | .tempLocations => List QString
  | .homeLocations => List QString
  | .parentPath _ => QString
  | .dirExists _ => Bool
  | .fileExists _ => Bool
  | .fileExistsNow _ => Bool
  | .copyFile .. => Unit
  | .mkdir _ => Bool
  | .rename .. => Bool
  | .createFile .. => Bool
  | .hardwareInfo _ => QString × List (QString × QString)
  | .switchNames _ => List QString

/-- `dir + QDir::separator() + file_name` -/
def inDir (separator : Char) (dir fileName : QString) : QString := dir ++ separator :: fileName

/-! ## The interfaces -/

def listParallels (path : QString) : Step :=
  .ssystemTh path ["server".toList, "info".toList, "--json".toList]

def listLibvirt : Step := .ssystemTh "virsh".toList ["iface-list".toList]

def listVirtualbox (dir : QString) : Step :=
  .ssystemTh (dir ++ "/VBoxManage".toList) ["list".toList, "bridgedifs".toList]

def parallelsInterfaces : Routine Answer (List QString) :=
  .lock <|
    .call (.which "prlctl".toList) fun found =>
      if found.1 ≠ .success then .unlock (.returns [])
      else
        .call (listParallels found.2) fun res =>
          let ending (interfaces : List QString) : Routine Answer (List QString) :=
            if res.failed then .returns interfaces else .unlock (.returns interfaces)
          if res.out ≠ [] then
            .call (.hardwareInfo res.out.flatten) fun data =>
              let interfaces := (data.2.filter fun key => key.2 = "net".toList).map Prod.fst
              if data.1 ≠ [] then .call (.setParallelsVmStorage data.1) fun _ => ending interfaces
              else ending interfaces
          else ending []

/-- `QFileInfo` may keep its first answer: the script is looked for again. -/
def runSwitchScript (tmpScript : QString) : Routine Answer (List QString) :=
  .call (.fileExistsNow tmpScript) fun
    | false => .unlock (.returns [])
    | true =>
        let commandLine := multiArg
          "%1 -NoLogo -NoProfile -NonInteractive -ExecutionPolicy Bypass \"&('%2')\"".toList
          ["powershell.exe".toList, tmpScript]
        .call (.proc commandLine) fun finished =>
          if finished.1 ≠ 0 then .unlock (.returns [])
          else .call (.switchNames finished.2) fun interfaces => .unlock (.returns interfaces)

def hypervInterfaces (separator : Char) : Routine Answer (List QString) :=
  .lock <|
    .call (.which "powershell.exe".toList) fun found =>
      if found.1 ≠ .success then .unlock (.returns [])
      else
        .call .tempLocations fun
          | [] => .unlock (.returns [])
          | tmp :: _ =>
              let tmpScript := inDir separator tmp "get_switches.ps1".toList
              .call (.fileExists tmpScript) fun
                | true => runSwitchScript tmpScript
                | false =>
                    .call (.copyFile ":/hub/get_switches.ps1".toList tmpScript) fun _ =>
                      runSwitchScript tmpScript

/-- `QChar::isSpace` -/
def isSpace (c : Char) : Bool :=
  9 ≤ c.toNat && c.toNat ≤ 13 || 0x2000 ≤ c.toNat && c.toNat ≤ 0x200A ||
    c.toNat ∈ [32, 0x85, 0xA0, 0x1680, 0x2028, 0x2029, 0x202F, 0x205F, 0x3000]

/-- `split(QRegExp("\\s+"), QString::SkipEmptyParts)` -/
def words (line : QString) : List QString := (line.splitOnP isSpace).filter fun word => word ≠ []

/-- The rows after the two of the header; a row of less than two words is read past its end. -/
def libvirtRows : List QString → Option (List QString)
  | [] => some []
  | line :: lines =>
      match words line with
      | bridge :: state :: _ =>
          (libvirtRows lines).map fun interfaces =>
            if state = "active".toList && bridge ≠ "lo".toList then bridge :: interfaces
            else interfaces
      | _ => none

def libvirtInterfaces : Routine Answer (List QString) :=
  .lock <|
    .call (.which "virsh".toList) fun found =>
      if found.1 ≠ .success then .unlock (.returns [])
      else
        .call listLibvirt fun res =>
          if res.failed then .returns []
          else
            match libvirtRows (res.out.drop 2) with
            | none => .undefined
            | some interfaces => .unlock (.returns interfaces)

/-- The flag, the value, and whether the value is being read. -/
def scanCharacter (scanned : QString × QString × Bool) (c : Char) : QString × QString × Bool :=
  let (flag, value, reading) := scanned
  if c = '\r' then scanned
  else if reading then (flag, value ++ [c], true)
  else if c = ':' then (value, [], false)
  else if c ≠ ' ' then (flag, value ++ [c], value = [] && flag ≠ [])
  else scanned

/-- One line of the list: the name that was read last, and the interfaces. -/
def scanLine (found : QString × List QString) (line : QString) : QString × List QString :=
  let (flag, value, _) := line.foldl scanCharacter ([], [], false)
  let lastName := if flag = "Name".toList then value else found.1
  if flag = "Status".toList && value = "Up".toList then (lastName, found.2 ++ [lastName])
  else (lastName, found.2)

def virtualboxInterfaces : Routine Answer (List QString) :=
  .lock <|
    .call (.version .oracleVirtualbox) fun version =>
      if version = undefinedVersion then .unlock (.returns [])
      else
        .call .oracleVirtualboxPath fun path =>
          .call (.parentPath path) fun dir =>
            .call (listVirtualbox dir) fun res =>
              if res.failed then .returns []
              else .unlock (.returns (res.out.foldl scanLine ([], [])).2)

/-! ## Installing -/

/-- The end of most functions: the version is asked for where the work is done. -/
def returnVersion (of : Versioned) (res : SystemCallWrapperError) : Routine Answer SystemCallWrapperInstall :=
  if res = .success then .call (.version of) fun version => .unlock (.returns ⟨res, version⟩)
  else .unlock (.returns ⟨res, []⟩)

/-- The work is done by the function for the operating system. -/
def installVersioned (operation : Internal) (of : Versioned) (dir fileName : QString) :
    Routine Answer SystemCallWrapperInstall :=
  .lock <| .call (.internal operation dir fileName) (returnVersion of)

def installP2p := installVersioned .installP2p .p2p

def updateP2p := installVersioned .updateP2pLinux .p2p

def uninstallP2p := installVersioned .uninstallP2p .p2p

def installX2go := installVersioned .installX2go .x2go

def uninstallX2go := installVersioned .uninstallX2go .x2go [] []

def installVagrant := installVersioned .installVagrant .vagrant

def uninstallVagrant := installVersioned .uninstallVagrant .vagrant

def installVmware := installVersioned .installVmware .vmware

def uninstallVmware := installVersioned .uninstallVmware .vmware

def installOracleVirtualbox := installVersioned .installOracleVirtualbox .oracleVirtualbox

def uninstallOracleVirtualbox := installVersioned .uninstallOracleVirtualbox .oracleVirtualbox

def installChrome := installVersioned .installChrome .chrome

def uninstallChrome := installVersioned .uninstallChrome .chrome

def installFirefox := installVersioned .installFirefox .firefox

def uninstallFirefox := installVersioned .uninstallFirefox .firefox

/-- The extensions of the browsers: only the result counts. -/
def installE2e (operation : Internal) (dir fileName : QString) : Routine Answer SystemCallWrapperError :=
  .lock <| .call (.internal operation dir fileName) fun res => .unlock (.returns res)

def installE2eChrome := installE2e .installE2eChrome [] []

def uninstallE2eChrome := installE2e .uninstallE2eChrome [] []

def installE2eFirefox := installE2e .installE2eFirefox

def uninstallE2eFirefox := installE2e .uninstallE2eFirefox [] []

/-- VMware has to be there. -/
def installUtility (operation : Internal) (dir fileName : QString) :
    Routine Answer SystemCallWrapperInstall :=
  .lock <|
    .call (.version .vmware) fun vmwareVer =>
      if vmwareVer = undefinedVersion then .returns ⟨.createProcess, []⟩
      else
        .call (.internal operation dir fileName) (returnVersion .vmwareUtility)

def installVmwareUtility := installUtility .installVmwareUtility

def uninstallVmwareUtility := installUtility .uninstallVmwareUtility

def vagrantPlugin (name command : QString) : Routine Answer SystemCallWrapperInstall :=
  .lock <|
    .call .vagrantPath fun cmd =>
      .call (.ssystemTh cmd ["plugin".toList, command, name]) fun resT =>
        returnVersion (.vagrantPlugin name)
          (if resT.res = .success ∧ resT.exitCode ≠ 0 then .createProcess else resT.res)

def osascript (script : QString) : Step := .ssystemTh "osascript".toList ["-e".toList, script]

def installParallelsScript (filePath : QString) : QString :=
  arg
    ("do shell script \"hdiutil attach %1; " ++
      "cp -R /Volumes/Parallels\\\\ Desktop\\\\ 14/Parallels\\\\ Desktop.app/ " ++
      "/Applications/Parallels\\\\ Desktop.app/; " ++
      "open -a Parallels\\\\ Desktop.app;\" with administrator privileges").toList filePath

def installParallels (separator : Char) (dir fileName : QString) :
    Routine Answer SystemCallWrapperInstall :=
  .lock <|
    .call (osascript (installParallelsScript (inDir separator dir fileName))) fun res =>
      if res.res ≠ .success ∧ res.exitCode ≠ 0 then .returns ⟨.createProcess, []⟩
      else returnVersion .parallels res.res

def parallelsApp : QString := "/Applications/Parallels Desktop.app/".toList

def quitParallels : Step :=
  .ssystem "osascript".toList
    ["-e".toList, "tell application \"Parallels Desktop.app\" to quit".toList]

def removeParallels : Step :=
  osascript
    (arg "do shell script \"%1\" with administrator privileges".toList
      "rm -rf /Applications/Parallels\\\\ Desktop.app/; ".toList)

def uninstallParallels : Routine Answer SystemCallWrapperInstall :=
  .lock <|
    .call (.dirExists parallelsApp) fun
      | false => .returns ⟨.createProcess, undefinedVersion⟩
      | true =>
          .call quitParallels fun res =>
            if res.exitCode ≠ 0 then .returns ⟨.commandFailed, undefinedVersion⟩
            else
              .call removeParallels fun rs =>
                if rs.exitCode ≠ 0 then .returns ⟨.commandFailed, undefinedVersion⟩
                else if res.res = .success then
                  .call (.version .parallels) fun version => .unlock (.returns ⟨res.res, version⟩)
                else .unlock (.returns ⟨res.res, undefinedVersion⟩)

def installXquartz (separator : Char) (dir fileName : QString) :
    Routine Answer SystemCallWrapperInstall :=
  let script := arg
    "do shell script \"installer -pkg %1 -target /\" with administrator privileges".toList
    (inDir separator dir fileName)
  .lock <|
    .call (osascript script) fun resT =>
      returnVersion .xquartz (if resT.exitCode ≠ 0 then .createProcess else resT.res)

/-- The directories of the box with the version "0" and with the version of the cloud, and
the file with its address. -/
structure BoxPaths where
  newBox : QString
  cloudBox : QString → QString
  metadataUrl : QString
  address : QString

def boxesPath (separator : Char) (home : QString) : QString :=
  inDir separator (inDir separator home ".vagrant.d".toList) "boxes".toList

/-- A name without a slash is read past its end. -/
def boxPaths (separator : Char) (home box provider : QString) : Option BoxPaths :=
  match box.splitOn '/' with
  | owner :: name :: _ =>
      let directory := inDir separator (boxesPath separator home)
        (owner ++ "-VAGRANTSLASH-".toList ++ name)
      some
        { newBox := inDir separator (inDir separator directory ['0']) provider
          cloudBox := inDir separator directory
          metadataUrl := inDir separator directory "metadata_url".toList
          address := "https://vagrantcloud.com/".toList ++ owner ++ '/' :: name }
  | _ => none

/-- `return res` with the lock given back. -/
def failBox : Routine Answer SystemCallWrapperInstall := .unlock (.returns ⟨.createProcess, []⟩)

/-- The end of `install_subutai_box`, after the box has been moved. -/
def finishBox (box provider : QString) (paths : BoxPaths) :
    Routine Answer SystemCallWrapperInstall :=
  let done : Routine Answer SystemCallWrapperInstall :=
    .call (.version (.vagrantLatestBox box provider)) fun version =>
      .unlock (.returns ⟨.success, version⟩)
  .call (.fileExists paths.metadataUrl) fun
    | true => done
    | false =>
        .call (.createFile paths.metadataUrl paths.address) fun
          | false => failBox
          | true => done

/-- The box is moved from the version "0" to the version of the cloud. -/
def moveBox (separator : Char) (box provider cloudVersion : QString) (paths : BoxPaths) :
    Routine Answer SystemCallWrapperInstall :=
  .call (.rename paths.newBox (inDir separator (paths.cloudBox cloudVersion) provider)) fun
    | false => .returns ⟨.createProcess, []⟩
    | true => finishBox box provider paths

/-- The added box has to be there, and gets a directory for the version of the cloud. -/
def placeBox (separator : Char) (box provider : QString) (paths : BoxPaths) :
    Routine Answer SystemCallWrapperInstall :=
  .call (.dirExists paths.newBox) fun
    | false => failBox
    | true =>
        .call (.cloudVersion box provider) fun cloudVersion =>
          if cloudVersion = undefinedVersion then failBox
          else
            .call (.dirExists (paths.cloudBox cloudVersion)) fun
              | true => moveBox separator box provider cloudVersion paths
              | false =>
                  .call (.mkdir (paths.cloudBox cloudVersion)) fun
                    | false => failBox
                    | true => moveBox separator box provider cloudVersion paths

def findBox (separator : Char) (home box provider : QString) :
    Routine Answer SystemCallWrapperInstall :=
  .call (.dirExists (boxesPath separator home)) fun
    | false => failBox
    | true =>
        match boxPaths separator home box provider with
        | none => .undefined
        | some paths => placeBox separator box provider paths

def installSubutaiBox (separator : Char) (dir fileName : QString) :
    Routine Answer SystemCallWrapperInstall :=
  .lock <|
    .call .subutaiBoxName fun box =>
      .call .currentProvider fun provider =>
        .call (.vagrantAddBox box provider (inDir separator dir fileName)) fun resT =>
          if resT ≠ .success then .unlock (.returns ⟨resT, []⟩)
          else
            .call .homeLocations fun
              | [] => failBox
              | home :: _ => findBox separator home box provider

/-! ## The calls -/

inductive Call where
  | parallelsInterfaces
  | hypervInterfaces
  | libvirtInterfaces
  | virtualboxInterfaces
  | installP2p (dir fileName : QString)
  | updateP2p (dir fileName : QString)
  | uninstallP2p (dir fileName : QString)
  | installX2go (dir fileName : QString)
  | uninstallX2go
  | installVagrant (dir fileName : QString)
  | uninstallVagrant (dir fileName : QString)
  | vagrantPlugin (name command : QString)
  | installVmwareUtility (dir fileName : QString)
  | uninstallVmwareUtility (dir fileName : QString)
  | installVmware (dir fileName : QString)
  | uninstallVmware (dir fileName : QString)
  | installParallels (dir fileName : QString)
  | uninstallParallels (dir fileName : QString)
  | installOracleVirtualbox (dir fileName : QString)
  | uninstallOracleVirtualbox (dir fileName : QString)
  | installChrome (dir fileName : QString)
  | uninstallChrome (dir fileName : QString)
  | installE2eChrome
  | uninstallE2eChrome
  | installFirefox (dir fileName : QString)
  | uninstallFirefox (dir fileName : QString)
  | installE2eFirefox (dir fileName : QString)
  | uninstallE2eFirefox
  | installSubutaiBox (dir fileName : QString)
  | installXquartz (dir fileName : QString)

def Call.Reply : Call → Type
  | .parallelsInterfaces => List QString
  | .hypervInterfaces => List QString
  | .libvirtInterfaces => List QString
  | .virtualboxInterfaces => List QString
  | .installE2eChrome => SystemCallWrapperError
  | .uninstallE2eChrome => SystemCallWrapperError
  | .installE2eFirefox .. => SystemCallWrapperError
  | .uninstallE2eFirefox => SystemCallWrapperError
  | _ => SystemCallWrapperInstall

def Call.routine (separator : Char) : (call : Call) → Routine Answer call.Reply
  | .parallelsInterfaces => Installer.parallelsInterfaces
  | .hypervInterfaces => Installer.hypervInterfaces separator
  | .libvirtInterfaces => Installer.libvirtInterfaces
  | .virtualboxInterfaces => Installer.virtualboxInterfaces
  | .installP2p dir fileName => Installer.installP2p dir fileName
  | .updateP2p dir fileName => Installer.updateP2p dir fileName
  | .uninstallP2p dir fileName => Installer.uninstallP2p dir fileName
  | .installX2go dir fileName => Installer.installX2go dir fileName
  | .uninstallX2go => Installer.uninstallX2go
  | .installVagrant dir fileName => Installer.installVagrant dir fileName
  | .uninstallVagrant dir fileName => Installer.uninstallVagrant dir fileName
  | .vagrantPlugin name command => Installer.vagrantPlugin name command
  | .installVmwareUtility dir fileName => Installer.installVmwareUtility dir fileName
  | .uninstallVmwareUtility dir fileName => Installer.uninstallVmwareUtility dir fileName
  | .installVmware dir fileName => Installer.installVmware dir fileName
  | .uninstallVmware dir fileName => Installer.uninstallVmware dir fileName
  | .installParallels dir fileName => Installer.installParallels separator dir fileName
  | .uninstallParallels _ _ => Installer.uninstallParallels
  | .installOracleVirtualbox dir fileName => Installer.installOracleVirtualbox dir fileName
  | .uninstallOracleVirtualbox dir fileName => Installer.uninstallOracleVirtualbox dir fileName
  | .installChrome dir fileName => Installer.installChrome dir fileName
  | .uninstallChrome dir fileName => Installer.uninstallChrome dir fileName
  | .installE2eChrome => Installer.installE2eChrome
  | .uninstallE2eChrome => Installer.uninstallE2eChrome
  | .installFirefox dir fileName => Installer.installFirefox dir fileName
  | .uninstallFirefox dir fileName => Installer.uninstallFirefox dir fileName
  | .installE2eFirefox dir fileName => Installer.installE2eFirefox dir fileName
  | .uninstallE2eFirefox => Installer.uninstallE2eFirefox
  | .installSubutaiBox dir fileName => Installer.installSubutaiBox separator dir fileName
  | .installXquartz dir fileName => Installer.installXquartz separator dir fileName

end SubutaiTray.Installer
