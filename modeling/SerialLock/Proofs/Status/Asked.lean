import SerialLock.Proofs.LockFile.Spared
import SerialLock.Proofs.Status.Sequence

/-!
# What a checker is asked

With a checker that leaves files alone, a run over devices inspects them from tree to tree up to the
first failure (`Inspects`, `exists_inspects`), and asks about the owner of each of them that has one,
once and in their order.  The lock files with these owners are spared (`Inspects.spared`).
-/

set_option autoImplicit false

namespace SerialLock

namespace DeviceStatus

variable {settings : Settings} {checker : Checker Simulation}

/-- The status of a device is found in a tree: the owner is the one that its lock file names there,
and something is known of it if there is one. -/
structure FoundIn (settings : Settings) (tree : FileTree) (device : String)
    (status : DeviceStatus) : Prop where
  named : status.device = device
  located : Device.lockPath? settings device = some status.lockPath
  owned : LockFile.ownerIn tree status.lockPath = .ok status.pid
  known : status.liveness = none ↔ status.pid = Pid.noOwner

/-- From the first tree to the last, the devices were inspected one after the other with these
results. -/
inductive Inspects (settings : Settings) :
    FileTree → List String → List DeviceStatus → FileTree → Prop where
  | nil {tree : FileTree} : Inspects settings tree [] [] tree
  | cons {tree last : FileTree} {device : String} {devices : List String} {status : DeviceStatus}
      {statuses : List DeviceStatus} (hfound : FoundIn settings tree device status)
      (hrest : Inspects settings (LockFile.treeAfter tree status.lockPath) devices statuses last) :
      Inspects settings tree (device :: devices) (status :: statuses) last

/-! ## Sequences -/

/-- Nothing is known where there is no owner, and something where there is one. -/
theorem liveness_run_ask (checker : Checker Simulation) (machine : Machine) (device : String)
    (pid : Int) : ((ask checker device pid).run machine).1 = none ↔ pid = Pid.noOwner := by
  by_cases howner : pid = Pid.noOwner
  · rw [howner, run_ask_nobody]
    simp
  · obtain ⟨log, hask⟩ := exists_run_ask checker machine device howner
    rw [hask]
    simp [howner]

/-- Devices inspected in sequence were inspected from tree to tree. -/
theorem InSequence.inspects {machine last : Machine} {devices : List String}
    {statuses : List DeviceStatus} (hspares : checker.SparesFiles)
    (hall : InSequence settings checker machine devices statuses last) :
    Inspects settings machine.files devices statuses last.files := by
  induction hall with
  | nil => exact .nil
  | @cons machine middle last device devices status statuses hfirst _ ih =>
      have hmiddle := files_of_attempt_inspect_ok hspares hfirst
      obtain ⟨hdevice, hpath, howner, hask⟩ := attempt_inspect_ok_iff.mp hfirst
      have hknown := liveness_run_ask checker (looked machine device status.lockPath) device
        status.pid
      rw [hask] at hknown
      rw [hmiddle] at ih
      exact .cons ⟨hdevice, hpath, howner, hknown⟩ ih

/-- A run over devices inspects the first of them, up to the device that fails if one does, and asks
about the owners of those. -/
theorem exists_inspects (hspares : checker.SparesFiles) (machine : Machine) (settings : Settings)
    (devices : List String) :
    ∃ (front back : List String) (statuses : List DeviceStatus) (last : Machine),
      devices = front ++ back ∧ Inspects settings machine.files front statuses last.files ∧
      last.asked = machine.asked ++ owners statuses ∧
      ((back = [] ∧
          machine.attempt (inspectAll settings checker.noted devices) = (.ok statuses, last)) ∨
        (back ≠ [] ∧ ∃ failure,
          machine.attempt (inspectAll settings checker.noted devices) =
            (.error failure, last))) := by
  rcases inSequence_or_stops settings checker.noted machine devices with
    ⟨statuses, last, hall⟩ |
    ⟨front, device, back, statuses, middle, failure, last, rfl, hfront, hdevice⟩
  · exact ⟨devices, [], statuses, last, (List.append_nil devices).symm,
      hall.inspects hspares.noted, hall.asked_eq, .inl ⟨rfl, hall.attempt_inspectAll⟩⟩
  · have hinspects := hfront.inspects hspares.noted
    rw [← files_of_attempt_inspect_error hdevice] at hinspects
    exact ⟨front, device :: back, statuses, last, rfl, hinspects, hfront.asked_of_stop hdevice,
      .inr ⟨List.cons_ne_nil device back, failure, hfront.stops hdevice back⟩⟩

namespace Inspects

variable {tree last : FileTree} {devices : List String} {statuses : List DeviceStatus}

/-- Each device that was inspected has one status, in their order. -/
theorem map_device (hinspects : Inspects settings tree devices statuses last) :
    statuses.map device = devices := by
  induction hinspects with
  | nil => rfl
  | cons hfound _ ih => rw [List.map_cons, hfound.named, ih]

/-- Something is known of the owners found, and of nobody else. -/
theorem liveness_iff (hinspects : Inspects settings tree devices statuses last)
    {status : DeviceStatus} (hstatus : status ∈ statuses) :
    status.liveness = none ↔ status.pid = Pid.noOwner := by
  induction hinspects with
  | nil => cases hstatus
  | cons hfound _ ih =>
      rcases List.mem_cons.mp hstatus with rfl | hmem
      · exact hfound.known
      · exact ih hmem

/-- Inspecting devices spares the lock files that name an owner. -/
theorem spared_of_holds {path : Path} {contents : Bytes} {pid : Int}
    (hinspects : Inspects settings tree devices statuses last) (hholds : tree.Holds path contents)
    (hpid : Pid.ofBytes? contents = some pid) : tree.Spared last path contents := by
  have hall {before : FileTree} (hspared : before.Spared tree path contents) :
      before.Spared last path contents := by
    induction hinspects with
    | nil => exact hspared
    | @cons tree last _ _ status _ _ _ ih =>
        have hstep := LockFile.spared_treeAfter hspared hpid status.lockPath
        exact ih hstep.holds hstep
  exact hall hholds.spared

/-- The lock file of each inspected device with an owner names that owner, and is spared by the
whole run. -/
theorem spared (hinspects : Inspects settings tree devices statuses last) {status : DeviceStatus}
    (hstatus : status ∈ statuses) (howner : status.pid ≠ Pid.noOwner) :
    ∃ contents, tree.Spared last status.lockPath contents ∧
      Pid.ofBytes? contents = some status.pid := by
  induction hinspects with
  | nil => cases hstatus
  | @cons tree last _ _ first _ hfound hrest ih =>
      rcases List.mem_cons.mp hstatus with rfl | hmem
      · obtain ⟨contents, hspared, hpid⟩ := LockFile.exists_spared hfound.owned howner
        exact ⟨contents, spared_of_holds (.cons hfound hrest) hspared.held hpid, hpid⟩
      · obtain ⟨contents, hspared, hpid⟩ := ih hmem
        have hheld := LockFile.holds_of_treeAfter hspared.held
        exact ⟨contents, spared_of_holds (.cons hfound hrest) hheld hpid, hpid⟩

end Inspects

end DeviceStatus

end SerialLock
