import SerialLock.Failure
import SerialLock.Machine

/-!
# Attempts on a machine

An attempt yields a result or a failure and leaves a machine behind, also where it fails.  An
attempt made of several goes on from the machine that the ones before left, up to the first failure
(`attempt_bind`).
-/

set_option autoImplicit false

namespace SerialLock.Machine

variable {α β : Type}

/-- What an attempt on the machine yields, with the machine after it. -/
def attempt (machine : Machine) (x : Attempt Simulation α) : Except Failure α × Machine :=
  x.run.run machine

/-- One more log record leaves the files as they are. -/
@[simp] theorem told_files (machine : Machine) (record : Log.Record) :
    (machine.told record).files = machine.files := rfl

/-- An attempt that only yields a result leaves the machine as it is. -/
@[simp] theorem attempt_pure (machine : Machine) (a : α) :
    machine.attempt (pure a) = (.ok a, machine) := rfl

/-- An attempt that only fails leaves the machine as it is. -/
@[simp] theorem attempt_throw (machine : Machine) (failure : Failure) :
    machine.attempt (throw failure : Attempt Simulation α) = (.error failure, machine) := rfl

/-- A step is an attempt that does not fail. -/
@[simp] theorem attempt_lift (machine : Machine) (x : Simulation α) :
    machine.attempt (liftM x) = (.ok (x.run machine).1, (x.run machine).2) := rfl

/-- Telling a record adds it to the log of the machine. -/
@[simp] theorem run_tell (machine : Machine) (record : Log.Record) :
    (Host.tell record : Simulation Unit).run machine = ((), machine.told record) := rfl

/-- The step that takes an entry away does to the machine what `Machine.remove` does. -/
@[simp] theorem run_remove (machine : Machine) (path : Path) :
    (Host.remove path : Simulation (Except Fault Unit)).run machine = machine.remove path := rfl

/-- The first of two attempts decides from which machine the second goes on, if at all. -/
theorem attempt_bind (machine : Machine) (x : Attempt Simulation α)
    (f : α → Attempt Simulation β) :
    machine.attempt (x >>= f) =
      match machine.attempt x with
      | (.ok a, after) => after.attempt (f a)
      | (.error failure, after) => (.error failure, after) := by
  unfold attempt
  rw [ExceptT.run_bind, StateT.run_bind]
  rcases x.run.run machine with ⟨result, after⟩
  cases result <;> rfl

end SerialLock.Machine
