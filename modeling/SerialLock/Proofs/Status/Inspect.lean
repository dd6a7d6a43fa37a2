import SerialLock.Proofs.Liveness
import SerialLock.Proofs.LockFile.Owner
import SerialLock.Status

/-!
# Inspecting devices on a machine

With a checker that follows a rule, the status of a device is a function of the tree of files
(`statusIn`).  Inspecting a device computes it, and changes files only by reading the lock file
(`attempt_inspect`).

The checker is asked last, after all that can fail, so an inspection that fails leaves the files as
they are whatever the checker (`files_of_attempt_inspect_error`).
-/

set_option autoImplicit false

namespace SerialLock.DeviceStatus

variable {settings : Settings} {checker : Checker Simulation} {rule : Int → Liveness}

/-- What is known of an owner by a rule. -/
def livenessOf (rule : Int → Liveness) (pid : Int) : Option Liveness :=
  if pid == Pid.noOwner then none else some (rule pid)

/-- The status of a device, where owners are judged by a rule. -/
def statusIn (tree : FileTree) (settings : Settings) (rule : Int → Liveness) (device : String) :
    Except Failure DeviceStatus :=
  match Device.lockPath? settings device with
  | none => .error (.invalidDevice device)
  | some lockPath =>
    match LockFile.ownerIn tree lockPath with
    | .error failure => .error failure
    | .ok pid => .ok { device, lockPath, pid, liveness := livenessOf rule pid }

/-- The tree after a device was inspected. -/
def treeAfter (tree : FileTree) (settings : Settings) (device : String) : FileTree :=
  match Device.lockPath? settings device with
  | none => tree
  | some lockPath => LockFile.treeAfter tree lockPath

/-- The machine after the lock file of a device was named and read. -/
def looked (machine : Machine) (device : String) (lockPath : Path) : Machine :=
  { machine with
      files := LockFile.treeAfter machine.files lockPath
      log := machine.log ++
        [⟨.debug, .naming, s!"device '{device}' -> lock file '{Utf8.display lockPath}'"⟩] ++
        LockFile.notice machine.files lockPath }

/-! ## One device -/

/-- The lock file of a device is the one that the settings name, and naming it is only told. -/
theorem attempt_lockPath (machine : Machine) (settings : Settings) (device : String) :
    machine.attempt (Device.lockPath settings device) =
      match Device.lockPath? settings device with
      | none => (.error (.invalidDevice device), machine)
      | some path => (.ok path, machine.told ⟨.debug, .naming,
          s!"device '{device}' -> lock file '{Utf8.display path}'"⟩) := by
  unfold Device.lockPath
  cases hpath : Device.lockPath? settings device with
  | none => rfl
  | some path => rfl

/-- Asking about an owner yields what the rule says, and changes neither files nor processes. -/
theorem run_ask {machine : Machine} (hfollows : checker.Follows machine.processes rule)
    (device : String) (pid : Int) :
    ∃ after, (ask checker device pid).run machine = (livenessOf rule pid, after) ∧
      after.files = machine.files ∧ after.processes = machine.processes := by
  unfold ask livenessOf
  cases hnobody : pid == Pid.noOwner with
  | true => exact ⟨machine, rfl, rfl, rfl⟩
  | false =>
      obtain ⟨after, hrun, hfiles, hprocesses⟩ := hfollows machine pid rfl
      simp only [Bool.false_eq_true, if_false]
      rw [StateT.run_bind, hrun]
      cases hanswer : rule pid with
      | unknown =>
          exact ⟨after.told ⟨.warn, .status,
            s!"cannot verify whether pid {pid} holding '{device}' is running"⟩, rfl, hfiles,
            hprocesses⟩
      | alive => exact ⟨after, rfl, hfiles, hprocesses⟩
      | dead => exact ⟨after, rfl, hfiles, hprocesses⟩

/-- Inspecting a device whose lock file can be told yields its status, or the failure to read or
discard the lock file, before the checker is asked. -/
theorem attempt_inspect (machine : Machine) (settings : Settings) (checker : Checker Simulation)
    (device : String) :
    machine.attempt (inspect settings checker device) =
      match Device.lockPath? settings device with
      | none => (.error (.invalidDevice device), machine)
      | some lockPath =>
        match LockFile.ownerIn machine.files lockPath with
        | .error failure => (.error failure, looked machine device lockPath)
        | .ok pid =>
          let asked := (ask checker device pid).run (looked machine device lockPath)
          (.ok { device, lockPath, pid, liveness := asked.1 }, asked.2) := by
  unfold inspect
  rw [Machine.attempt_bind, attempt_lockPath]
  cases hpath : Device.lockPath? settings device with
  | none => rfl
  | some lockPath =>
      simp only
      rw [Machine.attempt_bind, LockFile.attempt_owner]
      simp only [Machine.told_files]
      cases howner : LockFile.ownerIn machine.files lockPath with
      | error failure => rfl
      | ok pid => rfl

/-- An inspection that fails leaves the files as they are, whatever the checker. -/
theorem files_of_attempt_inspect_error {machine after : Machine} {checker : Checker Simulation}
    {device : String} {failure : Failure}
    (hrun : machine.attempt (inspect settings checker device) = (.error failure, after)) :
    after.files = machine.files := by
  rw [attempt_inspect] at hrun
  cases hpath : Device.lockPath? settings device with
  | none =>
      simp only [hpath, Prod.mk.injEq] at hrun
      rw [hrun.2]
  | some lockPath =>
      simp only [hpath] at hrun
      cases howner : LockFile.ownerIn machine.files lockPath with
      | error failure' =>
          simp only [howner, Prod.mk.injEq] at hrun
          rw [← hrun.2]
          exact LockFile.treeAfter_of_error howner
      | ok pid => simp [howner] at hrun

/-- With a checker that follows a rule, inspecting a device yields its status in the tree, changes
files only by reading the lock file, and changes no process. -/
theorem attempt_inspect_of_follows {machine : Machine}
    (hfollows : checker.Follows machine.processes rule) (settings : Settings) (device : String) :
    ∃ after, machine.attempt (inspect settings checker device) =
        (statusIn machine.files settings rule device, after) ∧
      after.files = treeAfter machine.files settings device ∧
      after.processes = machine.processes := by
  rw [attempt_inspect]
  unfold statusIn treeAfter
  cases hpath : Device.lockPath? settings device with
  | none => exact ⟨machine, rfl, rfl, rfl⟩
  | some lockPath =>
      simp only
      cases howner : LockFile.ownerIn machine.files lockPath with
      | error failure => exact ⟨_, rfl, rfl, rfl⟩
      | ok pid =>
          have hlooked : (looked machine device lockPath).processes = machine.processes := rfl
          rw [← hlooked] at hfollows
          obtain ⟨after, hask, hfiles, hprocesses⟩ := run_ask hfollows device pid
          exact ⟨after, by simp only [hask], hfiles, hprocesses⟩

end SerialLock.DeviceStatus
