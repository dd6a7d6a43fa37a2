import SerialLock.Json
import SerialLock.Liveness
import SerialLock.LockFile

/-!
# The state of devices

A device is free, or it has an owner, which is running, not running, or cannot be looked up.
-/

set_option autoImplicit false

namespace SerialLock

/-- The state of a device. -/
inductive DeviceState where
  /-- Nobody owns the lock. -/
  | free
  /-- The owner is running. -/
  | locked
  /-- The owner is not running. -/
  | stale
  /-- The owner could not be looked up. -/
  | unverified
  deriving DecidableEq, Repr

/-- The word for a state. -/
def DeviceState.word : DeviceState → String
  | .free => "free"
  | .locked => "locked"
  | .stale => "stale"
  | .unverified => "unverified"

/-- What was found out about a device. -/
structure DeviceStatus where
  /-- The device as it was named. -/
  device : String
  /-- The lock file that was looked at. -/
  lockPath : Path
  /-- The owner. -/
  pid : Int
  /-- What is known of the owner, if there is one. -/
  liveness : Option Liveness
  deriving DecidableEq, Repr

namespace DeviceStatus

/-- The state that follows from what is known of the owner. -/
def state (status : DeviceStatus) : DeviceState :=
  match status.liveness with
  | none => .free
  | some .alive => .locked
  | some .dead => .stale
  | some .unknown => .unverified

/-- The status in words. -/
def text (status : DeviceStatus) : String :=
  match status.state with
  | .free => s!"{status.device}: free"
  | state =>
    s!"{status.device}: {state.word} (pid {status.pid}, {Utf8.display status.lockPath})"

/-- The status as JSON, for which the path has to be a text. -/
def json? (status : DeviceStatus) : Option Json :=
  (Utf8.decode? status.lockPath).map fun path =>
    let liveness := match status.liveness with
      | none => Json.null
      | some liveness => Json.text liveness.word.toList
    .object [
      ("device".toList, .text status.device.toList),
      ("lock_path".toList, .text path),
      ("pid".toList, .number status.pid),
      ("liveness".toList, liveness),
      ("state".toList, .text status.state.word.toList)]

/-- Why a path that is no text cannot be written as JSON. -/
def unwritablePath : String := "path contains invalid UTF-8 characters"

variable {m : Type → Type} [Monad m] [Host m]

/-- Asks about the owner of a device. -/
def ask (checker : Checker m) (device : String) (pid : Int) : m (Option Liveness) := do
  if pid == Pid.noOwner then return none
  else
    let liveness ← checker pid
    if liveness == .unknown then
      warn .status s!"cannot verify whether pid {pid} holding '{device}' is running"
    return some liveness

/-- Finds out about a device. -/
def inspect (settings : Settings) (checker : Checker m) (device : String) :
    Attempt m DeviceStatus := do
  let lockPath ← Device.lockPath settings device
  let pid ← LockFile.owner lockPath
  let liveness ← ask (m := m) checker device pid
  return { device, lockPath, pid, liveness }

/-- Finds out about devices one after the other, up to the first failure. -/
def inspectAll (settings : Settings) (checker : Checker m) :
    List String → Attempt m (List DeviceStatus)
  | [] => return []
  | device :: rest => do
    let status ← inspect settings checker device
    return status :: (← inspectAll settings checker rest)

/-- The exit code that tells whether a device is in use. -/
def exitCode (statuses : List DeviceStatus) : ExitCode :=
  if statuses.any fun status => status.state == .locked then ExitCode.deviceLocked
  else ExitCode.success

/-- The statuses in words, one after the other. -/
def report (statuses : List DeviceStatus) : String :=
  String.ofList (statuses.flatMap fun status => status.text.toList ++ ['\n'])

/-- The statuses as a JSON array. -/
def jsonReport? (statuses : List DeviceStatus) : Option String :=
  (statuses.mapM json?).map fun items =>
    String.ofList ((Json.array items).spread 0 ++ ['\n'])

end DeviceStatus

end SerialLock
