import SerialLock.Liveness
import SerialLock.Proofs.Attempt
import SerialLock.Proofs.Table

/-!
# Checkers that follow a rule

While the process table stands still, a checker answers by a rule, and being asked changes neither
files nor processes (`Checker.Follows`).  This holds of the fixed checkers and of the one that looks
processes up, whatever its view of the table was before.
-/

set_option autoImplicit false

namespace SerialLock

namespace Checker

/-- On machines with these processes the checker answers by the rule, and changes neither files nor
processes. -/
def Follows (checker : Checker Simulation) (processes : ProcessTable) (rule : Int → Liveness) :
    Prop :=
  ∀ (machine : Machine) (pid : Int), machine.processes = processes →
    ∃ after, (checker pid).run machine = (rule pid, after) ∧
      after.files = machine.files ∧ after.processes = processes

/-- Is the process with that number running? -/
def truth (processes : ProcessTable) (pid : Int) : Liveness :=
  match processNumber? pid with
  | none => .dead
  | some number => if processes.shows number then .alive else .dead

/-- A fixed checker follows its rule, whatever processes there are. -/
theorem follows_fixed (processes : ProcessTable) (rule : Int → Liveness) :
    Follows (fixed rule) processes rule := by
  intro machine pid hprocesses
  exact ⟨machine, rfl, rfl, hprocesses⟩

/-- The checker that never knows follows the rule that nothing is known. -/
theorem follows_unavailable (processes : ProcessTable) :
    Follows unavailable processes fun _ => .unknown := by
  intro machine pid hprocesses
  exact ⟨machine, rfl, rfl, hprocesses⟩

/-- Looking processes up tells the truth about them. -/
theorem follows_ofProcesses (processes : ProcessTable) :
    Follows ofProcesses processes (truth processes) := by
  intro machine pid hprocesses
  unfold ofProcesses truth
  cases hnumber : processNumber? pid with
  | none => exact ⟨machine, rfl, rfl, hprocesses⟩
  | some number =>
      subst hprocesses
      simp only
      rw [← ProcessTable.shows_refresh machine.view machine.processes number]
      exact ⟨_, rfl, rfl, rfl⟩

/-- The rule of the checker that the settings ask for. -/
def ruleOf (checkLiveness : Bool) (processes : ProcessTable) : Int → Liveness :=
  if checkLiveness then truth processes else fun _ => .unknown

/-- The checker that the settings ask for follows its rule, and choosing it changes neither files
nor processes. -/
theorem run_chosen (machine : Machine) (checkLiveness : Bool) :
    ∃ checker after, (chosen checkLiveness : Simulation (Checker Simulation)).run machine =
      (checker, after) ∧ after.files = machine.files ∧ after.processes = machine.processes ∧
      checker.Follows machine.processes (ruleOf checkLiveness machine.processes) := by
  cases checkLiveness with
  | true => exact ⟨_, _, rfl, rfl, rfl, follows_ofProcesses _⟩
  | false => exact ⟨_, _, rfl, rfl, rfl, follows_unavailable _⟩

end Checker

end SerialLock
