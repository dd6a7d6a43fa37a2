import SerialLock.Host
import SerialLock.Process

/-!
# Is an owner alive?

A checker says of a process number whether that process is running.  The one of the process table
looks up the process at the moment it is asked; the one for systems without such a table never
knows.
-/

set_option autoImplicit false

namespace SerialLock

/-- What is known of the process that owns a lock. -/
inductive Liveness where
  | alive
  | dead
  | unknown
  deriving DecidableEq, Repr

/-- The word for what is known of an owner. -/
def Liveness.word : Liveness → String
  | .alive => "alive"
  | .dead => "dead"
  | .unknown => "unknown"

/-- Answers whether a process is running. -/
abbrev Checker (m : Type → Type) := Int → m Liveness

namespace Checker

variable {m : Type → Type} [Monad m]

/-- Never knows. -/
def unavailable : Checker m := fun _ => pure .unknown

/-- Answers from a fixed rule. -/
def fixed (rule : Int → Liveness) : Checker m := fun pid => pure (rule pid)

/-- Looks the process up in the process table.  No process has a number outside the system's
range. -/
def ofProcesses [Host m] : Checker m := fun pid =>
  match processNumber? pid with
  | none => pure .dead
  | some number => do
    Host.refresh number
    let running ← Host.shows number
    debug .processes s!"pid {number} alive: {running}"
    return if running then .alive else .dead

/-- The checker that the settings ask for. -/
def chosen [Host m] (checkLiveness : Bool) : m (Checker m) :=
  if checkLiveness then pure ofProcesses
  else do
    debug .liveness "liveness checks disabled by config"
    return unavailable

end Checker

end SerialLock
