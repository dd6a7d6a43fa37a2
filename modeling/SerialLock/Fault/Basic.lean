import SerialLock.Fault.Texts

/-!
# Faults of the file system

Why reading or removing a file failed: an error number of the operating system, or a fault that is
noticed before the system is asked.
-/

set_option autoImplicit false

namespace SerialLock

/-- The classes of faults that are not told by an error number. -/
inductive FaultKind where
  | notFound
  | permissionDenied
  | alreadyExists
  | interrupted
  | invalidInput
  | invalidData
  | unexpectedEnd
  | timedOut
  | other
  deriving DecidableEq, Repr

/-- How a class of faults reads when nothing more is known. -/
def FaultKind.text : FaultKind → String
  | .notFound => "entity not found"
  | .permissionDenied => "permission denied"
  | .alreadyExists => "entity already exists"
  | .interrupted => "operation interrupted"
  | .invalidInput => "invalid input parameter"
  | .invalidData => "invalid data"
  | .unexpectedEnd => "unexpected end of file"
  | .timedOut => "timed out"
  | .other => "other error"

/-- A failed access to a file. -/
inductive Fault where
  /-- The operating system refused with an error number. -/
  | system (number : Nat)
  /-- A fault of a class, told in words of its own. -/
  | described (kind : FaultKind) (text : String)
  deriving DecidableEq, Repr

namespace Fault

/-- A fault of which only the class is known. -/
def plain (kind : FaultKind) : Fault := .described kind kind.text

/-- Operation not permitted. -/
def notPermitted : Fault := .system 1
/-- No such file or directory. -/
def missing : Fault := .system 2
/-- Input/output error. -/
def inputOutput : Fault := .system 5
/-- Permission denied. -/
def denied : Fault := .system 13
/-- File exists. -/
def occupied : Fault := .system 17
/-- Not a directory. -/
def notDirectory : Fault := .system 20
/-- Is a directory. -/
def isDirectory : Fault := .system 21
/-- File name too long. -/
def nameTooLong : Fault := .system 36
/-- Too many levels of symbolic links. -/
def linkLoop : Fault := .system 40

/-- A path with a zero byte in it, which no system call takes. -/
def zeroByte : Fault := .described .invalidInput "file name contained an unexpected NUL byte"

/-- A file that should hold a text and holds other bytes. -/
def notText : Fault := .described .invalidData "stream did not contain valid UTF-8"

/-- Does the fault say that there is no such file? -/
def isMissing : Fault → Bool
  | .system number => number == 2
  | .described kind _ => kind == .notFound

/-- The text of an error number. -/
def systemText (number : Nat) : String :=
  (texts[number]?).getD s!"Unknown error {number}"

/-- How the fault is told. -/
def message : Fault → String
  | .system number => s!"{systemText number} (os error {number})"
  | .described _ text => text

end Fault

end SerialLock
