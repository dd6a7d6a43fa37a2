import SerialLock.Proofs.Status.Inspect

/-!
# Devices inspected in sequence

A run over devices inspects them one after the other, each on the machine that the one before it
left (`InSequence`), and stops at the first that fails, whatever devices come behind
(`InSequence.stops`).  A checker may answer as it likes, and keep a state of its own.  If it leaves
files alone (`Checker.SparesFiles`), then the files change by looking at lock files only
(`InSequence.files_eq`).  It is asked about the owner of each device that has one, once and in their
order (`InSequence.asked_eq`), so what it would answer about anybody else does not matter
(`InSequence.congr`).
-/

set_option autoImplicit false

namespace SerialLock

namespace Checker

/-- Asking the checker leaves the files alone. -/
def SparesFiles (checker : Checker Simulation) : Prop :=
  ∀ (machine : Machine) (pid : Int), ((checker pid).run machine).2.files = machine.files

/-- Looking processes up leaves the files alone. -/
theorem sparesFiles_ofProcesses : SparesFiles ofProcesses := by
  intro machine pid
  unfold ofProcesses
  cases processNumber? pid with
  | none => rfl
  | some number => rfl

/-- Taking note of what is asked leaves the files alone, too. -/
theorem SparesFiles.noted {checker : Checker Simulation} (hspares : checker.SparesFiles) :
    checker.noted.SparesFiles :=
  hspares

end Checker

namespace DeviceStatus

variable {settings : Settings} {checker checker' : Checker Simulation}

/-- The owners found, without those devices that have none. -/
def owners (statuses : List DeviceStatus) : List Int :=
  (statuses.map pid).filter fun pid => pid != Pid.noOwner

/-- From the first machine to the last, the devices are inspected one after the other with these
results, and none fails. -/
inductive InSequence (settings : Settings) (checker : Checker Simulation) :
    Machine → List String → List DeviceStatus → Machine → Prop where
  | nil {machine : Machine} : InSequence settings checker machine [] [] machine
  | cons {machine middle last : Machine} {device : String} {devices : List String}
      {status : DeviceStatus} {statuses : List DeviceStatus}
      (hfirst : machine.attempt (inspect settings checker device) = (.ok status, middle))
      (hrest : InSequence settings checker middle devices statuses last) :
      InSequence settings checker machine (device :: devices) (status :: statuses) last

variable {machine middle last : Machine} {device : String} {devices front : List String}
  {status : DeviceStatus} {statuses : List DeviceStatus} {failure : Failure}

/-! ## One device -/

/-- An inspection succeeds where the lock file and its owner are found, and ends by asking. -/
theorem attempt_inspect_ok_iff :
    machine.attempt (inspect settings checker device) = (.ok status, last) ↔
      status.device = device ∧ Device.lockPath? settings device = some status.lockPath ∧
        LockFile.ownerIn machine.files status.lockPath = .ok status.pid ∧
        (ask checker device status.pid).run (looked machine device status.lockPath) =
          (status.liveness, last) := by
  rw [attempt_inspect]
  constructor
  · intro hrun
    cases hpath : Device.lockPath? settings device with
    | none => simp [hpath] at hrun
    | some lockPath =>
        simp only [hpath] at hrun
        cases howner : LockFile.ownerIn machine.files lockPath with
        | error failure => simp [howner] at hrun
        | ok pid =>
            simp only [howner, Prod.mk.injEq, Except.ok.injEq] at hrun
            obtain ⟨rfl, rfl⟩ := hrun
            exact ⟨rfl, rfl, howner, rfl⟩
  · rintro ⟨rfl, hpath, howner, hask⟩
    rw [hpath]
    simp only
    rw [howner]
    simp only
    rw [hask]

/-- An inspection fails where the lock file or its owner is not found, and asks nobody. -/
theorem attempt_inspect_error_iff :
    machine.attempt (inspect settings checker device) = (.error failure, last) ↔
      (Device.lockPath? settings device = none ∧ failure = .invalidDevice device ∧
        last = machine) ∨
      ∃ lockPath, Device.lockPath? settings device = some lockPath ∧
        LockFile.ownerIn machine.files lockPath = .error failure ∧
        last = looked machine device lockPath := by
  rw [attempt_inspect]
  cases Device.lockPath? settings device with
  | none => simp [eq_comm]
  | some lockPath =>
      simp only
      cases howner : LockFile.ownerIn machine.files lockPath with
      | error failure' => simp [howner, eq_comm]
      | ok pid => simp [howner]

/-- An inspection that fails has asked nobody. -/
theorem asked_of_attempt_inspect_error
    (hrun : machine.attempt (inspect settings checker device) = (.error failure, last)) :
    last.asked = machine.asked := by
  rcases attempt_inspect_error_iff.mp hrun with ⟨-, -, rfl⟩ | ⟨lockPath, -, -, rfl⟩
  · rfl
  · rfl

/-- Asking depends on nothing but what the checker answers about the owner, if there is one. -/
theorem ask_congr {pid : Int} (hsame : pid ≠ Pid.noOwner → checker' pid = checker pid) :
    ask checker' device pid = ask checker device pid := by
  unfold ask
  by_cases hnobody : pid = Pid.noOwner
  · rw [if_pos (by simpa using hnobody), if_pos (by simpa using hnobody)]
  · rw [hsame hnobody]

/-- Where there is no owner, nobody is asked. -/
theorem run_ask_nobody (checker : Checker Simulation) (machine : Machine) (device : String) :
    (ask checker device Pid.noOwner).run machine = (none, machine) :=
  rfl

/-- Where there is an owner, asking does what the checker does, and adds no more than a record. -/
theorem exists_run_ask (checker : Checker Simulation) (machine : Machine) (device : String)
    {pid : Int} (howner : pid ≠ Pid.noOwner) :
    ∃ log, (ask checker device pid).run machine =
      (some ((checker pid).run machine).1, { ((checker pid).run machine).2 with log }) := by
  unfold ask
  rw [if_neg (by simpa using howner), StateT.run_bind]
  cases hanswer : (checker pid).run machine with
  | mk answer after =>
      cases answer with
      | unknown => exact ⟨_, rfl⟩
      | alive => exact ⟨after.log, rfl⟩
      | dead => exact ⟨after.log, rfl⟩

/-- Asking leaves the files alone if the checker does. -/
theorem files_run_ask (hspares : checker.SparesFiles) (machine : Machine) (device : String)
    (pid : Int) : ((ask checker device pid).run machine).2.files = machine.files := by
  by_cases howner : pid = Pid.noOwner
  · rw [howner, run_ask_nobody]
  · obtain ⟨log, hask⟩ := exists_run_ask checker machine device howner
    rw [hask]
    exact hspares machine pid

/-- An inspection that succeeds changes the files by looking at the lock file of the device. -/
theorem files_of_attempt_inspect_ok (hspares : checker.SparesFiles)
    (hrun : machine.attempt (inspect settings checker device) = (.ok status, last)) :
    last.files = LockFile.treeAfter machine.files status.lockPath := by
  obtain ⟨-, -, -, hask⟩ := attempt_inspect_ok_iff.mp hrun
  have hfiles := files_run_ask hspares (looked machine device status.lockPath) device status.pid
  rw [hask] at hfiles
  exact hfiles

/-- The owner is noted once, if there is one, whatever the checker does. -/
theorem asked_run_ask_noted (checker : Checker Simulation) (machine : Machine)
    (device : String) (pid : Int) :
    ((ask checker.noted device pid).run machine).2.asked =
      machine.asked ++ [pid].filter fun pid => pid != Pid.noOwner := by
  by_cases howner : pid = Pid.noOwner
  · rw [howner, run_ask_nobody]
    simp
  · obtain ⟨log, hask⟩ := exists_run_ask checker.noted machine device howner
    have hfilter : [pid].filter (fun pid => pid != Pid.noOwner) = [pid] := by simp [howner]
    rw [hask, hfilter]
    rfl

/-! ## Several devices -/

/-- The owners found are those of the first device, if it has one, and those of the others. -/
theorem owners_cons (status : DeviceStatus) (statuses : List DeviceStatus) :
    owners (status :: statuses) = owners [status] ++ owners statuses := by
  unfold owners
  rw [← List.filter_append, ← List.map_append, List.singleton_append]

/-- The first of several devices is inspected first, and the others only if it does not fail. -/
theorem attempt_inspectAll_cons (machine : Machine) (settings : Settings)
    (checker : Checker Simulation) (device : String) (devices : List String) :
    machine.attempt (inspectAll settings checker (device :: devices)) =
      match machine.attempt (inspect settings checker device) with
      | (.error failure, middle) => (.error failure, middle)
      | (.ok status, middle) =>
        match middle.attempt (inspectAll settings checker devices) with
        | (.error failure, last) => (.error failure, last)
        | (.ok statuses, last) => (.ok (status :: statuses), last) := by
  rw [inspectAll, Machine.attempt_bind]
  cases machine.attempt (inspect settings checker device) with
  | mk result middle =>
      cases result with
      | error failure => rfl
      | ok status =>
          simp only
          rw [Machine.attempt_bind]
          cases middle.attempt (inspectAll settings checker devices) with
          | mk rest last =>
              cases rest with
              | error failure => rfl
              | ok statuses => rfl

namespace InSequence

/-- A run over more devices goes on where the sequence ended. -/
theorem attempt_append (hfront : InSequence settings checker machine front statuses middle)
    (devices : List String) :
    machine.attempt (inspectAll settings checker (front ++ devices)) =
      match middle.attempt (inspectAll settings checker devices) with
      | (.ok more, last) => (.ok (statuses ++ more), last)
      | (.error failure, last) => (.error failure, last) := by
  induction hfront with
  | @nil machine =>
      rw [List.nil_append]
      cases machine.attempt (inspectAll settings checker devices) with
      | mk result last =>
          cases result with
          | error failure => rfl
          | ok more => rfl
  | @cons machine middle last device front status statuses hfirst hrest ih =>
      rw [List.cons_append, attempt_inspectAll_cons, hfirst]
      simp only
      rw [ih]
      cases last.attempt (inspectAll settings checker devices) with
      | mk result after =>
          cases result with
          | error failure => rfl
          | ok more => rfl

/-- Devices inspected in sequence are what a run over them yields. -/
theorem attempt_inspectAll (hall : InSequence settings checker machine devices statuses last) :
    machine.attempt (inspectAll settings checker devices) = (.ok statuses, last) := by
  have hrun := hall.attempt_append []
  rw [List.append_nil] at hrun
  rw [hrun]
  simp [inspectAll]

/-- The first device that fails ends the run, whatever devices come behind it. -/
theorem stops (hfront : InSequence settings checker machine front statuses middle)
    (hdevice : middle.attempt (inspect settings checker device) = (.error failure, last))
    (back : List String) :
    machine.attempt (inspectAll settings checker (front ++ device :: back)) =
      (.error failure, last) := by
  rw [hfront.attempt_append, attempt_inspectAll_cons, hdevice]

/-- Each device inspected has one status, in their order. -/
theorem map_device (hall : InSequence settings checker machine devices statuses last) :
    statuses.map DeviceStatus.device = devices := by
  induction hall with
  | nil => rfl
  | cons hfirst _ ih => rw [List.map_cons, (attempt_inspect_ok_iff.mp hfirst).1, ih]

/-- The files change by looking at the lock files of the devices, and in no other way. -/
theorem files_eq (hspares : checker.SparesFiles)
    (hall : InSequence settings checker machine devices statuses last) :
    last.files =
      (devices.filterMap (Device.lockPath? settings)).foldl LockFile.treeAfter machine.files := by
  induction hall with
  | nil => rfl
  | @cons machine middle last device devices status statuses hfirst _ ih =>
      obtain ⟨-, hpath, -, -⟩ := attempt_inspect_ok_iff.mp hfirst
      rw [List.filterMap_cons_some hpath, List.foldl_cons,
        ← files_of_attempt_inspect_ok hspares hfirst]
      exact ih

/-- The checker is asked about each owner once, in the order of the devices. -/
theorem asked_eq (hall : InSequence settings checker.noted machine devices statuses last) :
    last.asked = machine.asked ++ owners statuses := by
  induction hall with
  | nil => simp [owners]
  | @cons machine middle last device devices status statuses hfirst _ ih =>
      obtain ⟨-, -, -, hask⟩ := attempt_inspect_ok_iff.mp hfirst
      have hmiddle : middle.asked = machine.asked ++ owners [status] := by
        have hasked := asked_run_ask_noted checker
          (looked machine device status.lockPath) device status.pid
        rw [hask] at hasked
        exact hasked
      rw [ih, hmiddle, owners_cons status statuses, List.append_assoc]

/-- Where the next device fails, the files are those after a look at each lock file in front. -/
theorem files_of_stop (hspares : checker.SparesFiles)
    (hfront : InSequence settings checker machine front statuses middle)
    (hdevice : middle.attempt (inspect settings checker device) = (.error failure, last)) :
    last.files =
      (front.filterMap (Device.lockPath? settings)).foldl LockFile.treeAfter machine.files :=
  (files_of_attempt_inspect_error hdevice).trans (hfront.files_eq hspares)

/-- Where the next device fails, the checker is asked about the owners in front of it alone. -/
theorem asked_of_stop (hfront : InSequence settings checker.noted machine front statuses middle)
    (hdevice : middle.attempt (inspect settings checker.noted device) = (.error failure, last)) :
    last.asked = machine.asked ++ owners statuses :=
  (asked_of_attempt_inspect_error hdevice).trans hfront.asked_eq

/-- What the checker would answer about anybody but the owners does not matter. -/
theorem congr (hall : InSequence settings checker machine devices statuses last)
    (hsame : ∀ pid ∈ owners statuses, checker' pid = checker pid) :
    InSequence settings checker' machine devices statuses last := by
  induction hall with
  | nil => exact .nil
  | @cons machine middle last device devices status statuses hfirst _ ih =>
      rw [owners_cons] at hsame
      refine .cons ?_ (ih fun pid hmem => hsame pid (List.mem_append_right _ hmem))
      rw [attempt_inspect_ok_iff] at hfirst ⊢
      rw [ask_congr]
      · exact hfirst
      · intro howner
        apply hsame
        apply List.mem_append_left
        simp [owners, howner]

end InSequence

/-- A run over devices inspects all of them in sequence, or stops at one. -/
theorem inSequence_or_stops (settings : Settings) (checker : Checker Simulation)
    (machine : Machine) (devices : List String) :
    (∃ statuses last, InSequence settings checker machine devices statuses last) ∨
      ∃ front device back statuses middle failure last, devices = front ++ device :: back ∧
        InSequence settings checker machine front statuses middle ∧
        middle.attempt (inspect settings checker device) = (.error failure, last) := by
  induction devices generalizing machine with
  | nil => exact .inl ⟨[], machine, .nil⟩
  | cons device devices ih =>
      cases hfirst : machine.attempt (inspect settings checker device) with
      | mk result middle =>
          cases result with
          | error failure =>
              exact .inr ⟨[], device, devices, [], machine, failure, middle, rfl, .nil, hfirst⟩
          | ok status =>
              rcases ih middle with ⟨statuses, last, hall⟩ |
                ⟨front, failing, back, statuses, reached, failure, last, rfl, hfront, hfails⟩
              · exact .inl ⟨status :: statuses, last, .cons hfirst hall⟩
              · exact .inr ⟨device :: front, failing, back, status :: statuses, reached, failure,
                  last, rfl, .cons hfirst hfront, hfails⟩

end DeviceStatus

end SerialLock
