import SubutaiTray.Qt.Text

/-!
What a call of `CSystemCallWrapper` gives back.
-/
namespace SubutaiTray

/-- `system_call_wrapper_error_t` -/
inductive SystemCallWrapperError where
  | success
  | shellError
  | pipe
  | setHandleInfo
  | createProcess
  | p2pIsNotRunnable
  | cantJoinSwarm
  | containerIsNotReady
  | cantSendHandshake
  | sshLaunchFailed
  | cantGetRhIp
  | cantGenerateSshKey
  | timeout
  | whichCallFailed
  | processCrashed
  | last
  | permissionDenied
  | wrongFileName
  | dirDoesntExist
  | dirExists
  | commandFailed
  | wrongTempPath
  deriving DecidableEq, Inhabited

/-- `system_call_res_t` -/
structure SystemCallRes where
  res : SystemCallWrapperError
  out : List QString
  exitCode : Int
  deriving DecidableEq, Inhabited

def SystemCallRes.failed (res : SystemCallRes) : Bool := res.exitCode ≠ 0 || res.res ≠ .success

def undefinedVersion : QString := "undefined".toList

end SubutaiTray
