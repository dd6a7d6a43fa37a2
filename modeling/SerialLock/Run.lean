import SerialLock.Machine
import SerialLock.Program

/-!
# Runs on a machine

A whole run of the program on a machine: the outcome, what is printed, and what becomes of the
machine.
-/

set_option autoImplicit false

namespace SerialLock

/-- What a run finds in its environment, where it is set. -/
structure Environment where
  /-- The lock directory. -/
  lockDirectory : Option Bytes := none
  /-- Which log records are shown. -/
  logRules : Option Bytes := none
  deriving DecidableEq, Repr

/-- What is seen of a run. -/
structure Transcript where
  outcome : Outcome
  /-- What is printed besides the result: log lines, and why the run failed. -/
  errors : String
  deriving DecidableEq, Repr

namespace Machine

/-- Runs the program for a request. -/
def runRequest (machine : Machine) (environment : Environment) (request : Request) :
    Transcript × Machine :=
  let (outcome, after) :=
    (Program.outcome request environment.lockDirectory : Simulation Outcome).run
      { machine with view := [], log := [] }
  let (filter, notes) := Log.Filter.chosen machine.patterns environment.logRules request.verbosity
  let lines := (after.log.filter filter.shows).map Log.Record.line
  let errors := String.join notes ++ String.join lines ++ outcome.complaint
  (⟨outcome, errors⟩, { after with view := machine.view, log := machine.log })

/-- Runs the program. -/
def run (machine : Machine) (environment : Environment) (arguments : List Bytes) :
    Transcript × Machine :=
  match CommandLine.read arguments with
  | .error usage => (⟨.refused usage, ""⟩, machine)
  | .ok request => machine.runRequest environment request

end Machine

end SerialLock
