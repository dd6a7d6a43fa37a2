import SerialLock.FileTree.Change
import SerialLock.Liveness
import SerialLock.Log.Filter

/-!
# A machine as a value

A tree of files, a process table with the view of it, the log with the language of the patterns
that restrict it, and the processes asked about.  The operations of a system on such a machine are
steps from one machine to the next.
-/

set_option autoImplicit false

namespace SerialLock

/-- The state of a machine. -/
structure Machine where
  files : FileTree
  processes : ProcessTable
  /-- What has been seen of the process table. -/
  view : ProcessTable := []
  /-- The log, oldest record first. -/
  log : List Log.Record := []
  /-- What patterns for the texts of log records mean. -/
  patterns : Log.Patterns := .verbatim
  /-- The owners that a checker was asked about, in order. -/
  asked : List Int := []

/-- A step of a machine. -/
abbrev Simulation := StateM Machine

namespace Machine

/-- The machine after one more log record. -/
def told (machine : Machine) (record : Log.Record) : Machine :=
  { machine with log := machine.log ++ [record] }

/-- Takes away the entry that the path names. -/
def remove (machine : Machine) (path : Path) : Except Fault Unit × Machine :=
  match machine.files.remove path with
  | .ok files => (.ok (), { machine with files })
  | .error fault => (.error fault, machine)

end Machine

instance : Host Simulation where
  isFile path := do return (← get).files.isFile path
  read path := do return (← get).files.read path
  remove path := modifyGet fun machine => machine.remove path
  refresh number := modify fun machine =>
    { machine with view := machine.view.refresh machine.processes number }
  shows number := do return (← get).view.shows number
  tell record := modify fun machine => machine.told record

/-- The checker, and a note of each owner that it is asked about, which it cannot change itself. -/
def Checker.noted (checker : Checker Simulation) : Checker Simulation := fun pid => do
  let before ← get
  let liveness ← checker pid
  modify fun machine => { machine with asked := before.asked ++ [pid] }
  return liveness

end SerialLock
