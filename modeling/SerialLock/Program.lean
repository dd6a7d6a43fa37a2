import SerialLock.CommandLine.Read
import SerialLock.Settings.Resolve
import SerialLock.Status

/-!
# The program

A run reads its arguments, does what they request, and ends with an outcome: the arguments make no
request, the request failed, or it was done and left a report.
-/

set_option autoImplicit false

namespace SerialLock

/-- What a request that was done leaves. -/
structure Report where
  exitCode : ExitCode
  /-- What is printed. -/
  output : String
  deriving DecidableEq, Repr

/-- How a run ends. -/
inductive Outcome where
  /-- The arguments make no request. -/
  | refused (usage : Usage)
  | failed (failure : Failure)
  | done (report : Report)
  deriving DecidableEq, Repr

namespace Outcome

/-- The exit code of the run. -/
def exitCode : Outcome → ExitCode
  | .refused usage => usage.exitCode
  | .failed failure => failure.exitCode
  | .done report => report.exitCode

/-- What the run prints as its result. -/
def output : Outcome → String
  | .refused (.version command) => Usage.versionLine command
  | .refused _ => ""
  | .failed _ => ""
  | .done report => report.output

/-- What the run prints about its failure. -/
def complaint : Outcome → String
  | .failed failure => s!"Error: {failure.message}\n"
  | _ => ""

end Outcome

namespace Program

variable {m : Type → Type} [Monad m] [Host m]

/-- Tells the owner that a lock file names. -/
def tellOwner (path : Path) : Attempt m Report := do
  let pid ← LockFile.owner path
  return ⟨ExitCode.success, s!"{pid}\n"⟩

/-- The report on the states of devices. -/
def statusReport (json : Bool) (statuses : List DeviceStatus) : Except Failure Report :=
  let exitCode := DeviceStatus.exitCode statuses
  if json then
    match DeviceStatus.jsonReport? statuses with
    | some output => .ok ⟨exitCode, output⟩
    | none => .error (.mistake s!"failed to serialize status: {DeviceStatus.unwritablePath}")
  else .ok ⟨exitCode, DeviceStatus.report statuses⟩

/-- Tells the states of devices. -/
def tellStatus (settings : Settings) (devices : List String) (json : Bool) : Attempt m Report := do
  let checker ← (Checker.chosen settings.checkLiveness : m (Checker m))
  let statuses ← DeviceStatus.inspectAll settings checker devices
  ExceptT.mk (pure (statusReport json statuses))

/-- Does what is requested.  `setting` is what the environment says about the lock directory. -/
def perform (request : Request) (setting : Option Bytes) : Attempt m Report :=
  match request.command with
  | .owner path => tellOwner path
  | .status devices json => do
    let settings ← Settings.resolve request.settingsFile setting request.lockDirectory
    tellStatus settings devices json
  | .lock device => do
    Device.acquire device
    return ⟨ExitCode.success, ""⟩
  | .unlock device => do
    Device.release device
    return ⟨ExitCode.success, ""⟩

/-- Does what is requested, up to the outcome. -/
def outcome (request : Request) (setting : Option Bytes) : m Outcome := do
  match ← (perform request setting).run with
  | .ok report => return .done report
  | .error failure => return .failed failure

end Program

end SerialLock
