/-!
# Settings

Where lock files are kept and how they are named, and whether their owners are looked up.  Settings
can be used if the lock directory has a path and the prefix can be a part of a file's name.
-/

set_option autoImplicit false

namespace SerialLock

/-- The settings of the program. -/
structure Settings where
  /-- The directory of the lock files. -/
  lockDirectory : String := "/var/lock"
  /-- What stands before the device's name in the name of a lock file. -/
  lockPrefix : String := "LCK.."
  /-- Are the owners of locks looked up in the process table? -/
  checkLiveness : Bool := true
  deriving DecidableEq, Repr

namespace Settings

/-- Why settings cannot be used. -/
inductive Flaw where
  | emptyDirectory
  | emptyPrefix
  /-- The prefix would lead to another directory. -/
  | separatorInPrefix (text : String)
  deriving DecidableEq, Repr

/-- What is wrong with the settings. -/
def flaw? (settings : Settings) : Option Flaw :=
  if settings.lockDirectory.isEmpty then some .emptyDirectory
  else if settings.lockPrefix.isEmpty then some .emptyPrefix
  else if settings.lockPrefix.toList.contains '/' then some (.separatorInPrefix settings.lockPrefix)
  else none

/-- What a message says about a flaw. -/
def Flaw.message : Flaw → String
  | .emptyDirectory => "lock_dir must not be empty"
  | .emptyPrefix => "lock_prefix must not be empty"
  | .separatorInPrefix text => s!"lock_prefix must not contain '/' (found '{text}')"

end Settings

end SerialLock
