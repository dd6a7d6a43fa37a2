import SerialLock.Log.Filter
import SerialLock.Process
import SerialLock.Program

/-!
# The command

The program on the system that it runs on: files are those of the system, processes are looked up
under `/proc`, and log records are printed as they come, those that the filter shows.
-/

set_option autoImplicit false

namespace SerialLock

/-- A step on the running system, with a view of its processes. -/
abbrev Live := StateT ProcessTable (ReaderT Log.Filter IO)

namespace Live

/-- The fault with an error number, which may come as its complement to 2^32. -/
def numbered (code : UInt32) : Fault :=
  .system (if code < 0x80000000 then code else 0 - code).toNat

/-- The fault that an error of the system amounts to. -/
def faultOf : IO.Error → Fault
  | .alreadyExists _ code _ | .otherError code _ | .resourceBusy code _ | .resourceVanished code _
  | .unsupportedOperation code _ | .hardwareFault code _ | .unsatisfiedConstraints code _
  | .illegalOperation code _ | .protocolError code _ | .timeExpired code _
  | .interrupted _ code _ | .noFileOrDirectory _ code _ | .invalidArgument _ code _
  | .permissionDenied _ code _ | .resourceExhausted _ code _ | .inappropriateType _ code _
  | .noSuchThing _ code _ => numbered code
  | .unexpectedEof => .plain .unexpectedEnd
  | .userError text => .described .other text

/-- Does something with the file that a path names.  Here the system is asked by texts only: a path
that is no text cannot be asked for and counts as missing, also where there is a file, and no
failure says so. -/
def onFile {α : Type} (path : Path) (act : String → IO α) : Live (Except Fault α) :=
  if path.contains 0 then return .error .zeroByte
  else
    match Utf8.toString? path with
    | none => return .error .missing
    | some name => do
      match ← (act name).toBaseIO with
      | .ok result => return .ok result
      | .error error => return .error (faultOf error)

/-- Does a name lead to a regular file? -/
def isRegular (name : String) : IO Bool := do
  let info ← (← IO.FS.realPath name).metadata
  return match info.type with
    | .file => true
    | _ => false

/-- The state of a process, from the line that `/proc` has about it: the letter after the name of
its program, which stands in brackets. -/
def stateOf? (line : Bytes) : Option ProcessState :=
  let letter := ((line.reverse.takeWhile (· != 0x29)).reverse.drop 1).head?
  letter.bind fun letter =>
    if letter == 0x5A then some .zombie
    else if letter == 0x58 || letter == 0x78 then none
    else some .running

/-- The state of a process of the system. -/
def lookUp (number : Nat) : Live (Option ProcessState) := do
  match ← onFile (Utf8.ofString s!"/proc/{number}/stat") fun name => IO.FS.readBinFile name with
  | .ok line => return stateOf? line.data.toList
  | .error _ => return none

instance : Host Live where
  isFile path := do
    match ← onFile path isRegular with
    | .ok regular => return regular
    | .error _ => return false
  read path := onFile path fun name => return (← IO.FS.readBinFile name).data.toList
  remove path := onFile path fun name => IO.FS.removeFile name
  refresh number := do
    match ← lookUp number with
    | some state => modify fun view => view.put number state
    | none => modify fun view => view.drop number
  shows number := do return (← get).shows number
  tell record := do
    if (← read).shows record then IO.eprint record.line

end Live

/-- The value of a variable of the environment. -/
def variableOf (name : String) : IO (Option Bytes) := do
  return (← IO.getEnv name).map Utf8.ofString

/-- Does what is requested, on the running system.  The patterns that restrict the log stand for
themselves here. -/
def perform (request : Request) : IO Outcome := do
  let (filter, notes) := Log.Filter.chosen .verbatim (← variableOf "RUST_LOG") request.verbosity
  for note in notes do IO.eprint note
  let directory ← variableOf Settings.directoryVariable
  let (outcome, _) ← ((Program.outcome request directory : Live Outcome).run []).run filter
  return outcome

/-- What the user is told about arguments that make no request. -/
def usageText : String :=
  "Usage: ttylock [--config FILE] [--lock-dir DIR] [-v...] COMMAND\n\n" ++
  "Commands:\n" ++
  "  owner PATH                  print the owner that a lock file names\n" ++
  "  status [--json] DEVICE...   print the state of devices\n" ++
  "  lock DEVICE                 not implemented\n" ++
  "  unlock DEVICE               not implemented\n"

end SerialLock

open SerialLock in
/-- Runs the program. -/
def main (arguments : List String) : IO UInt32 := do
  let outcome ← match CommandLine.read (arguments.map Utf8.ofString) with
    | .ok request => perform request
    | .error usage => pure (.refused usage)
  match outcome with
  | .refused (.version _) => pure ()
  | .refused .help => IO.print usageText
  | .refused _ => IO.eprint usageText
  | _ => pure ()
  IO.print outcome.output
  IO.eprint outcome.complaint
  return UInt32.ofNat outcome.exitCode
