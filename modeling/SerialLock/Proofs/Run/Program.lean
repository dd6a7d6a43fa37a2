import SerialLock.Proofs.Settings.Found
import SerialLock.Proofs.Status.Inspect
import SerialLock.Run

/-!
# The program on a machine

What each request comes down to: the owner of one lock file, or the inspection of devices, with the
report made of it.  A run is the request on a machine that has seen no process and told nothing.
-/

set_option autoImplicit false

namespace SerialLock

namespace Program

/-- Telling an owner reads its lock file. -/
theorem attempt_tellOwner (machine : Machine) (path : Path) :
    ∃ log, machine.attempt (tellOwner path) =
      ((LockFile.ownerIn machine.files path).map fun pid => ⟨ExitCode.success, s!"{pid}\n"⟩,
        { machine with files := LockFile.treeAfter machine.files path, log }) := by
  unfold tellOwner
  rw [Machine.attempt_bind, LockFile.attempt_owner]
  cases LockFile.ownerIn machine.files path with
  | error failure => exact ⟨_, rfl⟩
  | ok pid => exact ⟨_, rfl⟩

/-- Telling the states of devices inspects them, and then changes no file. -/
theorem attempt_tellStatus (machine : Machine) (settings : Settings) (devices : List String)
    (json : Bool) :
    ∃ (checker : Checker Simulation) (start : Machine),
      start.files = machine.files ∧ start.processes = machine.processes ∧
      checker.Follows start.processes
        (Checker.ruleOf settings.checkLiveness machine.processes) ∧
      (machine.attempt (tellStatus settings devices json)).1 =
        (start.attempt (DeviceStatus.inspectAll settings checker devices)).1.bind
          (statusReport json) ∧
      (machine.attempt (tellStatus settings devices json)).2 =
        (start.attempt (DeviceStatus.inspectAll settings checker devices)).2 := by
  obtain ⟨checker, start, hchosen, hfiles, hprocesses, hfollows⟩ :=
    Checker.run_chosen machine settings.checkLiveness
  refine ⟨checker, start, hfiles, hprocesses, hprocesses ▸ hfollows, ?_⟩
  unfold tellStatus
  rw [Machine.attempt_bind, Machine.attempt_lift, hchosen]
  simp only
  rw [Machine.attempt_bind]
  cases start.attempt (DeviceStatus.inspectAll settings checker devices) with
  | mk result after =>
      cases result with
      | error failure => exact ⟨rfl, rfl⟩
      | ok statuses => exact ⟨rfl, rfl⟩

/-- The outcome that a result amounts to. -/
def ended : Except Failure Report → Outcome
  | .ok report => .done report
  | .error failure => .failed failure

/-- The outcome of a request is what the attempt to perform it yields. -/
theorem run_outcome (machine : Machine) (request : Request) (setting : Option Bytes) :
    (outcome request setting : Simulation Outcome).run machine =
      (ended (machine.attempt (perform request setting)).1,
        (machine.attempt (perform request setting)).2) := by
  unfold outcome Machine.attempt
  rw [StateT.run_bind]
  cases (ExceptT.run (perform request setting : Attempt Simulation Report)).run machine with
  | mk result after => cases result <;> rfl

end Program

namespace Machine

/-- The machine that a request starts on. -/
def fresh (machine : Machine) : Machine :=
  { machine with view := [], log := [] }

/-- What a run prints besides its result. -/
def errorsOf (patterns : Log.Patterns) (environment : Environment) (verbosity : Nat)
    (log : List Log.Record) (outcome : Outcome) : String :=
  let (filter, notes) := Log.Filter.chosen patterns environment.logRules verbosity
  let lines := (log.filter filter.shows).map Log.Record.line
  String.join notes ++ String.join lines ++ outcome.complaint

/-- A run for a request shows what performing it yields and what it told. -/
theorem runRequest_eq {machine after : Machine} {environment : Environment} {request : Request}
    {result : Except Failure Report}
    (hrun : machine.fresh.attempt (Program.perform request environment.lockDirectory) =
      (result, after)) :
    machine.runRequest environment request =
      (⟨Program.ended result,
          errorsOf machine.patterns environment request.verbosity after.log
            (Program.ended result)⟩,
        { after with view := machine.view, log := machine.log }) := by
  have houtcome := Program.run_outcome machine.fresh request environment.lockDirectory
  rw [hrun] at houtcome
  unfold fresh at houtcome
  unfold runRequest errorsOf
  rw [houtcome]

/-- The outcome of a run for a request is what performing the request yields. -/
theorem runRequest_outcome (machine : Machine) (environment : Environment) (request : Request) :
    (machine.runRequest environment request).1.outcome = Program.ended
      (machine.fresh.attempt (Program.perform request environment.lockDirectory)).1 := by
  cases hrun : machine.fresh.attempt (Program.perform request environment.lockDirectory) with
  | mk result after => rw [runRequest_eq hrun]

/-- The files after a run for a request are those that performing the request leaves. -/
theorem runRequest_files (machine : Machine) (environment : Environment) (request : Request) :
    (machine.runRequest environment request).2.files =
      (machine.fresh.attempt (Program.perform request environment.lockDirectory)).2.files := by
  cases hrun : machine.fresh.attempt (Program.perform request environment.lockDirectory) with
  | mk result after => rw [runRequest_eq hrun]

end Machine

end SerialLock
