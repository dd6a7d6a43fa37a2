import SerialLock.Failure
import SerialLock.Host
import SerialLock.Pid

/-!
# Lock files

The lock file of a device is named after the last segment of the device's path and lies in the lock
directory.  It names its owner.  A file that does not is stale and is taken away, which is done in
two steps: look at the file, then remove it.  In between others may act.
-/

set_option autoImplicit false

namespace SerialLock

namespace Device

/-- The path of a device's lock file. -/
def lockPath? (settings : Settings) (device : String) : Option Path :=
  (Path.fileName? device.toList).map fun name =>
    Path.join (Utf8.ofString settings.lockDirectory)
      (Utf8.ofString settings.lockPrefix ++ Utf8.encode name)

variable {m : Type → Type} [Monad m] [Host m]

/-- Finds the path of a device's lock file. -/
def lockPath (settings : Settings) (device : String) : Attempt m Path :=
  match lockPath? settings device with
  | none => throw (.invalidDevice device)
  | some path => do
    debug (m := m) .naming s!"device '{device}' -> lock file '{Utf8.display path}'"
    return path

/-- Refuses to take the lock of a device. -/
def acquire (device : String) : Attempt m Unit := do
  debug (m := m) .requests s!"acquire_lock called for '{device}'"
  throw (.unsupported s!"acquiring the lock for '{device}'")

/-- Refuses to give back the lock of a device. -/
def release (device : String) : Attempt m Unit := do
  debug (m := m) .requests s!"release_lock called for '{device}'"
  throw (.unsupported s!"releasing the lock for '{device}'")

end Device

namespace LockFile

/-- What a look at a lock file shows. -/
inductive Finding where
  /-- The owner, or nobody where there is no lock file. -/
  | owner (pid : Int)
  /-- The file names nobody. -/
  | invalid
  | unreadable (fault : Fault)
  deriving DecidableEq, Repr

/-- What contents that were read, or the fault met instead, show. -/
def Finding.ofContents : Except Fault Bytes → Finding
  | .ok contents =>
    match Pid.ofBytes? contents with
    | some pid => .owner pid
    | none => .invalid
  | .error fault => if fault.isMissing then .owner Pid.noOwner else .unreadable fault

variable {m : Type → Type} [Monad m] [Host m]

/-- Looks at a lock file. -/
def look (path : Path) : m Finding := do
  if ← Host.isFile path then return .ofContents (← Host.read path) else return .owner Pid.noOwner

/-- Removes an invalid lock file by the step `remove`.  It may have been removed before. -/
def discard (remove : Path → m (Except Fault Unit)) (path : Path) : Attempt m Int := do
  info (m := m) .reading s!"lock file '{Utf8.display path}' is invalid, removing it"
  match ← remove path with
  | .ok () => return Pid.noOwner
  | .error fault =>
    if fault.isMissing then return Pid.noOwner else throw (.lockFileKept path fault)

/-- The owner of a lock, where invalid files are removed by the step `remove`. -/
def ownerWith (remove : Path → m (Except Fault Unit)) (path : Path) : Attempt m Int := do
  match ← look (m := m) path with
  | .owner pid => return pid
  | .invalid => discard remove path
  | .unreadable fault => throw (.lockFileUnread path fault)

/-- The owner of a lock.  An invalid file is removed. -/
def owner (path : Path) : Attempt m Int :=
  ownerWith Host.remove path

end LockFile

end SerialLock
