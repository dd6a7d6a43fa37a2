import SerialLock.Fault.Basic
import SerialLock.Path
import SerialLock.Settings.Read

/-!
# Failures

Why the program could not do what it was asked for.  The exit code tells a mistake of the user from
a lock file that could not be read or removed.
-/

set_option autoImplicit false

namespace SerialLock

/-- The exit code of a run. -/
abbrev ExitCode := Nat

namespace ExitCode

/-- All went well. -/
def success : ExitCode := 0

/-- The user asked for something that makes no sense, or that is not supported. -/
def userMistake : ExitCode := 1

/-- A lock file could not be read, or an invalid one could not be removed. -/
def lockFileFailure : ExitCode := 2

/-- A device is in use. -/
def deviceLocked : ExitCode := 3

end ExitCode

/-- Why a request failed. -/
inductive Failure where
  /-- There is no way to do this. -/
  | unsupported (action : String)
  /-- A mistake of the user, told in words of its own. -/
  | mistake (text : String)
  /-- A device without a name. -/
  | invalidDevice (device : String)
  /-- A settings file that could not be read. -/
  | settingsFile (path : Path) (fault : Fault)
  /-- A text that holds no settings. -/
  | settingsText (reason : Settings.Unreadable)
  /-- Settings that cannot be used. -/
  | settingsFlaw (flaw : Settings.Flaw)
  /-- A lock file that could not be read. -/
  | lockFileUnread (path : Path) (fault : Fault)
  /-- An invalid lock file that could not be removed. -/
  | lockFileKept (path : Path) (fault : Fault)
  deriving DecidableEq, Repr

namespace Failure

/-- What a message says about a text that holds no settings.  Of a text that is no document it says
no more than that. -/
def settingsTextMessage : Settings.Unreadable → String
  | .malformed _ => "failed to parse config YAML"
  | .mismatched mismatch => s!"failed to parse config YAML: {mismatch.message}"

/-- How the failure is told. -/
def message : Failure → String
  | .unsupported action => s!"{action} is not implemented"
  | .mistake text => text
  | .invalidDevice device =>
    s!"invalid device '{device}': expected a device path like /dev/ttyS0"
  | .settingsFile path fault =>
    s!"failed to read config file '{Utf8.display path}': {fault.message}"
  | .settingsText reason => settingsTextMessage reason
  | .settingsFlaw flaw => s!"config validation failed: {flaw.message}"
  | .lockFileUnread path fault =>
    s!"failed to read lock file '{Utf8.display path}': {fault.message}"
  | .lockFileKept path fault =>
    s!"failed to remove invalid lock file '{Utf8.display path}': {fault.message}"

/-- The exit code of a run that fails. -/
def exitCode : Failure → ExitCode
  | .lockFileUnread .. => ExitCode.lockFileFailure
  | .lockFileKept .. => ExitCode.lockFileFailure
  | _ => ExitCode.userMistake

end Failure

/-- A computation on a system that may fail. -/
abbrev Attempt (m : Type → Type) := ExceptT Failure m

end SerialLock
