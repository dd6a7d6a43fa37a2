import SerialLock.Proofs.Status.Decision
import SerialLock.Proofs.Status.Together

/-!
# Devices that can be inspected, and devices in use

A device has a status if it has a name and its lock file makes no trouble (`exists_status_iff`), and
otherwise the failure tells which of the two is the case (`statusIn_cases`).  Of devices that all
have a status, one is reported as locked if it is in use and owners are looked up
(`exists_locked_iff`).
-/

set_option autoImplicit false

namespace SerialLock

/-- The lock file is there but cannot be read, or it is invalid and cannot be removed. -/
def FileTree.Troubled (tree : FileTree) (path : Path) : Prop :=
  (tree.isFile path = true ∧ ∃ fault, tree.read path = .error fault ∧ fault.isMissing = false) ∨
    (tree.Invalid path ∧ ∃ fault, tree.remove path = .error fault ∧ fault.isMissing = false)

namespace Device

/-- The device has a name, and its lock file makes no trouble. -/
def Inspectable (tree : FileTree) (settings : Settings) (device : String) : Prop :=
  ∃ lockPath, lockPath? settings device = some lockPath ∧ ¬tree.Troubled lockPath

/-- A process is running whose number stands in the device's lock file. -/
def InUse (machine : Machine) (settings : Settings) (device : String) : Prop :=
  ∃ lockPath n, lockPath? settings device = some lockPath ∧
    machine.files.number? lockPath = some n ∧ 0 < n ∧ n < 0x100000000 ∧ machine.processes.Runs n

end Device

namespace LockFile

variable {tree : FileTree} {path : Path}

/-- An owner that cannot be told is the fault of a lock file that makes trouble. -/
theorem exitCode_of_ownerIn {failure : Failure} (howner : ownerIn tree path = .error failure) :
    tree.Troubled path ∧ failure.exitCode = ExitCode.lockFileFailure := by
  unfold ownerIn at howner
  cases hfinding : findingIn tree path with
  | owner pid => simp [hfinding] at howner
  | unreadable fault =>
      obtain ⟨hfile, hread, hmissing⟩ := findingIn_eq_unreadable_iff.mp hfinding
      obtain rfl : Failure.lockFileUnread path fault = failure := by simpa [hfinding] using howner
      exact ⟨.inl ⟨hfile, fault, hread, hmissing⟩, rfl⟩
  | invalid =>
      have hinvalid := findingIn_eq_invalid_iff.mp hfinding
      simp only [hfinding] at howner
      rcases discardIn_cases tree path with ⟨_, _, hdiscard⟩ | ⟨_, _, _, hdiscard⟩ |
        ⟨fault, hremove, hmissing, hdiscard⟩
      · simp [hdiscard] at howner
      · simp [hdiscard] at howner
      · obtain rfl : Failure.lockFileKept path fault = failure := by simpa [hdiscard] using howner
        exact ⟨.inr ⟨hinvalid, fault, hremove, hmissing⟩, rfl⟩

/-- Every lock file that makes trouble has an owner that cannot be told. -/
theorem exists_failure_of_troubled (htroubled : tree.Troubled path) :
    ∃ failure, ownerIn tree path = .error failure := by
  rcases htroubled with ⟨hfile, fault, hread, hmissing⟩ | ⟨hinvalid, fault, hremove, hmissing⟩
  · have hfinding := findingIn_eq_unreadable_iff.mpr ⟨hfile, hread, hmissing⟩
    exact ⟨.lockFileUnread path fault, by unfold ownerIn; rw [hfinding]⟩
  · have hfinding := findingIn_eq_invalid_iff.mpr hinvalid
    refine ⟨.lockFileKept path fault, ?_⟩
    unfold ownerIn discardIn
    simp [hfinding, hremove, hmissing]

end LockFile

namespace DeviceStatus

variable {tree : FileTree} {settings : Settings} {rule : Int → Liveness} {device : String}

/-- A device has no lock file exactly if it has no name. -/
theorem lockPath?_eq_none_iff :
    Device.lockPath? settings device = none ↔ Path.fileName? device.toList = none := by
  unfold Device.lockPath?
  exact Option.map_eq_none_iff

/-- A device has a status if it can be inspected.  Otherwise it has no name, or its lock file makes
trouble, and the exit code says which. -/
theorem statusIn_cases (tree : FileTree) (settings : Settings) (rule : Int → Liveness)
    (device : String) :
    (Device.Inspectable tree settings device ∧
      ∃ status, statusIn tree settings rule device = .ok status) ∨
    (Path.fileName? device.toList = none ∧
      statusIn tree settings rule device = .error (.invalidDevice device)) ∨
    ∃ lockPath failure, Device.lockPath? settings device = some lockPath ∧
      tree.Troubled lockPath ∧ statusIn tree settings rule device = .error failure ∧
      failure.exitCode = ExitCode.lockFileFailure := by
  unfold statusIn
  cases hpath : Device.lockPath? settings device with
  | none => exact .inr (.inl ⟨lockPath?_eq_none_iff.mp hpath, rfl⟩)
  | some lockPath =>
      cases howner : LockFile.ownerIn tree lockPath with
      | error failure =>
          obtain ⟨htroubled, hcode⟩ := LockFile.exitCode_of_ownerIn howner
          exact .inr (.inr ⟨lockPath, failure, rfl, htroubled, by simp [howner], hcode⟩)
      | ok pid =>
          refine .inl ⟨⟨lockPath, hpath, fun htroubled => ?_⟩, _, by simp only [howner]; rfl⟩
          obtain ⟨failure, herror⟩ := LockFile.exists_failure_of_troubled htroubled
          rw [howner] at herror
          cases herror

/-- A device has a status exactly if its lock file can be told and makes no trouble. -/
theorem exists_status_iff :
    (∃ status, statusIn tree settings rule device = .ok status) ↔
      Device.Inspectable tree settings device := by
  rcases statusIn_cases tree settings rule device with ⟨hinspectable, hstatus⟩ |
    ⟨hname, herror⟩ | ⟨lockPath, failure, hpath, htroubled, herror, -⟩
  · exact ⟨fun _ => hinspectable, fun _ => hstatus⟩
  · constructor
    · rintro ⟨status, hstatus⟩
      rw [herror] at hstatus
      cases hstatus
    · rintro ⟨lockPath, hpath, -⟩
      rw [lockPath?_eq_none_iff.mpr hname] at hpath
      cases hpath
  · constructor
    · rintro ⟨status, hstatus⟩
      rw [herror] at hstatus
      cases hstatus
    · rintro ⟨lockPath', hpath', hclear⟩
      rw [hpath] at hpath'
      cases hpath'
      exact absurd htroubled hclear

/-- A device that has a status is reported as locked if it is in use and owners are looked up. -/
theorem state_eq_locked_iff {machine : Machine} {status : DeviceStatus}
    (hstatus : statusIn machine.files settings
      (Checker.ruleOf settings.checkLiveness machine.processes) device = .ok status) :
    status.state = .locked ↔
      settings.checkLiveness = true ∧ Device.InUse machine settings device := by
  obtain ⟨_, hpath, howner, hliveness⟩ := of_statusIn hstatus
  have hpid := LockFile.number?_of_ownerIn howner
  have huse : Device.InUse machine settings device ↔
      Checker.truth machine.processes status.pid = .alive := by
    rw [Checker.truth_eq_alive_iff, ← hpid]
    constructor
    · rintro ⟨lockPath, n, hpath', hn, hbounds⟩
      rw [hpath] at hpath'
      cases hpath'
      rw [hn]
      exact hbounds
    · intro hbounds
      cases hn : machine.files.number? status.lockPath with
      | none => simp [hn, Pid.noOwner] at hbounds
      | some n => exact ⟨status.lockPath, n, hpath, hn, by simpa [hn] using hbounds⟩
  rw [huse]
  unfold state
  rw [hliveness]
  unfold livenessOf
  cases hnobody : status.pid == Pid.noOwner with
  | true =>
      have hzero : status.pid = 0 := by simpa [Pid.noOwner] using hnobody
      have hdead : Checker.truth machine.processes 0 = .dead := rfl
      simp [hzero, hdead]
  | false =>
      unfold Checker.ruleOf
      cases hlooks : settings.checkLiveness with
      | false => simp
      | true => cases htruth : Checker.truth machine.processes status.pid <;> simp [htruth]

/-- Statuses that were found tell of a locked device if one is in use and owners are looked up. -/
theorem exists_locked_iff {machine : Machine} {devices : List String}
    {statuses : List DeviceStatus}
    (hstatuses : devices.mapM (statusIn machine.files settings
      (Checker.ruleOf settings.checkLiveness machine.processes)) = .ok statuses) :
    (∃ status ∈ statuses, status.state = .locked) ↔
      settings.checkLiveness = true ∧ ∃ device ∈ devices, Device.InUse machine settings device := by
  obtain ⟨hok, rfl⟩ := mapM_eq_ok_iff.mp hstatuses
  constructor
  · rintro ⟨status, hmem, hlocked⟩
    obtain ⟨device, hdevice, rfl⟩ := List.mem_map.mp hmem
    obtain ⟨hlooks, huse⟩ := (state_eq_locked_iff (hok device hdevice)).mp hlocked
    exact ⟨hlooks, device, hdevice, huse⟩
  · rintro ⟨hlooks, device, hdevice, huse⟩
    exact ⟨_, List.mem_map_of_mem hdevice,
      (state_eq_locked_iff (hok device hdevice)).mpr ⟨hlooks, huse⟩⟩

/-- The exit code of statuses. -/
theorem exitCode_cases (statuses : List DeviceStatus) :
    ((∃ status ∈ statuses, status.state = .locked) ∧ exitCode statuses = ExitCode.deviceLocked) ∨
      (¬∃ status ∈ statuses, status.state = .locked) ∧ exitCode statuses = ExitCode.success := by
  unfold exitCode
  by_cases hlocked : ∃ status ∈ statuses, status.state = .locked
  · exact .inl ⟨hlocked, if_pos (by simpa using hlocked)⟩
  · exact .inr ⟨hlocked, if_neg (by simpa using hlocked)⟩

end DeviceStatus

end SerialLock
