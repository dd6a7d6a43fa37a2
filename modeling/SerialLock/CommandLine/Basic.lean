import SerialLock.Path

/-!
# What the command line asks for

A command with its operands, and the options that all commands share.
-/

set_option autoImplicit false

namespace SerialLock

/-- A command with its operands. -/
inductive Command where
  /-- Tell the owner that a lock file names. -/
  | owner (path : Path)
  /-- Tell the states of devices, in words or as JSON. -/
  | status (devices : List String) (json : Bool)
  /-- Take the lock of a device. -/
  | lock (device : String)
  /-- Give back the lock of a device. -/
  | unlock (device : String)
  deriving DecidableEq, Repr

/-- The name of a command. -/
inductive CommandName where
  | owner
  | status
  | lock
  | unlock
  deriving DecidableEq, Repr

/-- The word for a command. -/
def CommandName.word : CommandName → String
  | .owner => "owner"
  | .status => "status"
  | .lock => "lock"
  | .unlock => "unlock"

/-- All commands. -/
def CommandName.all : List CommandName :=
  [.owner, .status, .lock, .unlock]

/-- A request. -/
structure Request where
  /-- The settings file. -/
  settingsFile : Option Path := none
  /-- The lock directory. -/
  lockDirectory : Option Path := none
  /-- How often more log was asked for, at most 255 times. -/
  verbosity : Nat := 0
  command : Command
  deriving DecidableEq, Repr

/-- Why the command line does not make a request. -/
inductive Usage where
  /-- An argument that is not known, or an operand too many. -/
  | unknownArgument
  /-- An option without its value, or an empty path. -/
  | invalidValue
  /-- A command without its operand. -/
  | missingOperand
  /-- An option given twice. -/
  | argumentConflict
  /-- A value for an option that takes none. -/
  | tooManyValues
  /-- A word that is no command. -/
  | invalidCommand
  /-- Options but no command. -/
  | missingCommand
  /-- A device that is no text. -/
  | invalidText
  /-- Help was asked for. -/
  | help
  /-- The version was asked for, of the program or of a command. -/
  | version (command : Option CommandName)
  /-- Nothing was asked for. -/
  | nothing
  deriving DecidableEq, Repr

namespace Usage

/-- The exit code of a run that makes no request. -/
def exitCode : Usage → Nat
  | .help => 0
  | .version _ => 0
  | _ => 2

/-- The line that tells the version. -/
def versionLine (command : Option CommandName) : String :=
  let name := match command with
    | none => ""
    | some command => "-" ++ command.word
  s!"ttylock{name} 0.1.0\n"

end Usage

end SerialLock
