/-!
# The log

What the program tells about its work: records with a level, a topic and a text.  A record is
printed as one line, and the later lines of its text are indented below the first.
-/

set_option autoImplicit false

namespace SerialLock.Log

/-- How much a record matters. -/
inductive Level where
  | error
  | warn
  | info
  | debug
  | trace
  deriving DecidableEq, Repr

/-- The levels by rank: a greater rank matters less. -/
def Level.rank : Level → Nat
  | .error => 1
  | .warn => 2
  | .info => 3
  | .debug => 4
  | .trace => 5

/-- The name of a level. -/
def Level.name : Level → String
  | .error => "ERROR"
  | .warn => "WARN"
  | .info => "INFO"
  | .debug => "DEBUG"
  | .trace => "TRACE"

/-- What a record is about. -/
inductive Topic where
  /-- The lock file that belongs to a device. -/
  | naming
  /-- The contents of lock files. -/
  | reading
  /-- The state of devices. -/
  | status
  /-- Requests to take or to give back a lock. -/
  | requests
  /-- Whether owners can be looked up. -/
  | liveness
  /-- The process table. -/
  | processes
  /-- The settings. -/
  | settings
  deriving DecidableEq, Repr

/-- The name by which log lines and filters know a topic. -/
def Topic.name : Topic → String
  | .naming => "ttylock::locks::naming"
  | .reading => "ttylock::locks::reader"
  | .status => "ttylock::locks::status"
  | .requests => "ttylock::locks::stub"
  | .liveness => "ttylock::process"
  | .processes => "ttylock::process::sysinfo_checker"
  | .settings => "ttylock::config::operations"

/-- One thing told. -/
structure Record where
  level : Level
  topic : Topic
  text : String
  deriving DecidableEq, Repr

/-- The text with four blanks after each line break. -/
def indented (text : List Char) : List Char :=
  text.flatMap fun c => if c == '\n' then ['\n', ' ', ' ', ' ', ' '] else [c]

/-- The level's name, filled up to five characters. -/
def Level.column (level : Level) : String :=
  level.name ++ String.ofList (List.replicate (5 - level.name.length) ' ')

/-- The printed line, with its line break. -/
def Record.line (record : Record) : String :=
  s!"[{record.level.column} {record.topic.name}] "
    ++ String.ofList (indented record.text.toList) ++ "\n"

end SerialLock.Log
