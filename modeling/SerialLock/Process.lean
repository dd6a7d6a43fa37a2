/-!
# Processes

The table of the processes of a system, and a view of it that is brought up to date one process at
a time.  A process that ended stays in the table as a zombie until its parent collects it.
-/

set_option autoImplicit false

namespace SerialLock

/-- What a process in the table is doing. -/
inductive ProcessState where
  | running
  /-- It ended and has not been collected. -/
  | zombie
  deriving DecidableEq, Repr

/-- The processes of a system by number, each number once. -/
abbrev ProcessTable := List (Nat × ProcessState)

namespace ProcessTable

/-- The table with a process in the state given. -/
def put (table : ProcessTable) (number : Nat) (state : ProcessState) : ProcessTable :=
  (number, state) :: table.filter fun entry => entry.1 != number

/-- The table without a process. -/
def drop (table : ProcessTable) (number : Nat) : ProcessTable :=
  table.filter fun entry => entry.1 != number

/-- A process starts. -/
def spawn (table : ProcessTable) (number : Nat) : ProcessTable :=
  table.put number .running

/-- A process is killed; one that is not there stays away. -/
def kill (table : ProcessTable) (number : Nat) : ProcessTable :=
  match table.lookup number with
  | some _ => table.put number .zombie
  | none => table

/-- A zombie is collected. -/
def reap (table : ProcessTable) (number : Nat) : ProcessTable :=
  match table.lookup number with
  | some .zombie => table.drop number
  | _ => table

/-- A view of the table after one process was looked up in it: the view's entry of that process
becomes the table's, and is dropped where the table has none. -/
def refresh (view table : ProcessTable) (number : Nat) : ProcessTable :=
  match table.lookup number with
  | some state => view.put number state
  | none => view.drop number

/-- Does the view show the process as running? -/
def shows (view : ProcessTable) (number : Nat) : Bool :=
  view.lookup number == some .running

end ProcessTable

/-- The number by which the system would know the process, if there can be one: from 1 to
2^32 - 1. -/
def processNumber? (pid : Int) : Option Nat :=
  if 0 < pid ∧ pid < 0x100000000 then some pid.toNat else none

end SerialLock
