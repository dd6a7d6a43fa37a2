import SerialLock.Proofs.Results
import SerialLock.Proofs.Status.Inspect

/-!
# Several devices in one run

Inspecting a device may take away an invalid lock file, which other devices may lead to over links.
It changes the status of none of them.  So a run over several devices yields for each what
inspecting it alone on the first machine yields, and the order of the devices does not matter.
-/

set_option autoImplicit false

namespace SerialLock

instance : Inhabited DeviceStatus := ⟨⟨"", [], Pid.noOwner, none⟩⟩

namespace DeviceStatus

variable {settings : Settings} {checker : Checker Simulation} {rule : Int → Liveness}

/-! ## A run over several devices -/

/-- Inspecting a device changes the status of no device. -/
theorem statusIn_treeAfter (tree : FileTree) (settings : Settings) (rule : Int → Liveness)
    (inspected device : String) :
    statusIn (treeAfter tree settings inspected) settings rule device =
      statusIn tree settings rule device := by
  unfold treeAfter
  cases hpath : Device.lockPath? settings inspected with
  | none => rfl
  | some lockPath =>
      unfold statusIn
      cases hpath' : Device.lockPath? settings device with
      | none => rfl
      | some lockPath' => simp only [LockFile.ownerIn_treeAfter]

/-- A run over several devices yields what each has in the tree before the run. -/
theorem attempt_inspectAll {machine : Machine}
    (hfollows : checker.Follows machine.processes rule) (settings : Settings)
    (devices : List String) :
    (machine.attempt (inspectAll settings checker devices)).1 =
      devices.mapM (statusIn machine.files settings rule) := by
  induction devices generalizing machine with
  | nil => rfl
  | cons device rest ih =>
      obtain ⟨after, hinspect, hfiles, hprocesses⟩ :=
        attempt_inspect_of_follows hfollows settings device
      unfold inspectAll
      rw [Machine.attempt_bind, hinspect, List.mapM_cons]
      cases hstatus : statusIn machine.files settings rule device with
      | error failure => rfl
      | ok status =>
          have hsame : statusIn after.files settings rule = statusIn machine.files settings rule :=
            funext fun device' => by rw [hfiles, statusIn_treeAfter]
          have hrest := @ih after (hprocesses ▸ hfollows)
          rw [hsame] at hrest
          simp only
          rw [Machine.attempt_bind, ← hrest]
          cases after.attempt (inspectAll settings checker rest) with
          | mk result last => cases result <;> rfl

/-- A run over several devices that succeeds yields for each device what inspecting it alone on the
first machine yields, and a run over the same devices in any other order yields the same. -/
theorem inspectAll_independent {machine after : Machine} {devices : List String}
    {statuses : List DeviceStatus} (hfollows : checker.Follows machine.processes rule)
    (hrun : machine.attempt (inspectAll settings checker devices) = (.ok statuses, after)) :
    ∃ status : String → DeviceStatus,
      statuses = devices.map status ∧
      (∀ device ∈ devices,
        (machine.attempt (inspect settings checker device)).1 = .ok (status device)) ∧
      ∀ devices' : List String, devices'.Perm devices →
        (machine.attempt (inspectAll settings checker devices')).1 = .ok (devices'.map status) ∧
          exitCode (devices'.map status) = exitCode statuses := by
  have hall := attempt_inspectAll hfollows settings devices
  rw [hrun] at hall
  let status := resultOr (statusIn machine.files settings rule)
  -- every device has a status in the tree before the run
  have hstatus : ∀ device ∈ devices,
      statusIn machine.files settings rule device = .ok (status device) := by
    intro device hdevice
    obtain ⟨found, hfound⟩ := exists_of_mapM_eq_ok hall.symm hdevice
    rw [hfound, ← resultOr_eq hfound]
  have hstatuses : statuses = devices.map status := by
    have hmap := mapM_eq_ok_map hstatus
    rw [← hall] at hmap
    exact Except.ok.inj hmap
  refine ⟨status, hstatuses, ?_, ?_⟩
  · intro device hdevice
    obtain ⟨_, hinspect, _, _⟩ := attempt_inspect_of_follows hfollows settings device
    rw [hinspect]
    exact hstatus device hdevice
  · intro devices' hperm
    constructor
    · rw [attempt_inspectAll hfollows settings devices']
      exact mapM_eq_ok_map fun device hdevice => hstatus device (hperm.mem_iff.mp hdevice)
    · rw [hstatuses]
      unfold exitCode
      rw [(hperm.map status).any_eq]

/-- The lock file of one device is invalid, that of the second is a link to it, and the third is
owned. -/
def linkedLocks : Machine where
  processes := []
  files :=
    { entries := [
        ([Utf8.ofString "l"], .directory),
        ([Utf8.ofString "l", Utf8.ofString "LCK..a"], .file 0),
        ([Utf8.ofString "l", Utf8.ofString "LCK..b"], .link (Utf8.ofString "LCK..a")),
        ([Utf8.ofString "l", Utf8.ofString "LCK..c"], .file 1)]
      contents := [(0, Utf8.ofString "nobody"), (1, Utf8.ofString "12\n")]
      workingDirectory := [] }

/-- A link that was left dangling by the device before it is free, as it is alone. -/
theorem inspectAll_independent_linked :
    ∃ status : String → DeviceStatus,
      [⟨"a", Utf8.ofString "/l/LCK..a", 0, none⟩, ⟨"b", Utf8.ofString "/l/LCK..b", 0, none⟩,
        ⟨"c", Utf8.ofString "/l/LCK..c", 12, some .alive⟩] = ["a", "b", "c"].map status ∧
      (∀ device ∈ ["a", "b", "c"],
        (linkedLocks.attempt (inspect { lockDirectory := "/l" } (.fixed fun _ => .alive)
          device)).1 = .ok (status device)) ∧
      ∀ devices' : List String, devices'.Perm ["a", "b", "c"] →
        (linkedLocks.attempt (inspectAll { lockDirectory := "/l" } (.fixed fun _ => .alive)
          devices')).1 = .ok (devices'.map status) ∧
          exitCode (devices'.map status) = exitCode
            [⟨"a", Utf8.ofString "/l/LCK..a", 0, none⟩, ⟨"b", Utf8.ofString "/l/LCK..b", 0, none⟩,
              ⟨"c", Utf8.ofString "/l/LCK..c", 12, some .alive⟩] :=
  inspectAll_independent (Checker.follows_fixed _ _) rfl

end DeviceStatus

end SerialLock
