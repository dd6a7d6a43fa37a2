import SerialLock.Proofs.Status.Asked

/-!
# The state that is reported is the truth

Whether a device is free, locked, stale or unverified follows from the number that its lock file
names and from the process table alone (`status_tells_truth`): no number stands for a process that
has another, and a number that no process can have is never running.
-/

set_option autoImplicit false

namespace SerialLock

/-- The number that the file named by a path holds, if it is a regular file that holds one. -/
def FileTree.number? (tree : FileTree) (path : Path) : Option Int :=
  if tree.isFile path then
    match tree.read path with
    | .ok contents => Pid.ofBytes? contents
    | .error _ => none
  else none

/-- A process with this number is running. -/
def ProcessTable.Runs (table : ProcessTable) (n : Int) : Prop :=
  ∃ number : Nat, table.lookup number = some .running ∧ n = number

/-- The numbers of the processes are among those that the system gives. -/
def ProcessTable.InRange (table : ProcessTable) : Prop :=
  ∀ process ∈ table, 1 ≤ process.1 ∧ process.1 ≤ 4194304

namespace LockFile

/-- The owner that is read from a lock file is the number in it, and nobody where it holds none. -/
theorem number?_of_ownerIn {tree : FileTree} {path : Path} {pid : Int}
    (howner : ownerIn tree path = .ok pid) : (tree.number? path).getD Pid.noOwner = pid := by
  unfold FileTree.number?
  cases hfile : tree.isFile path with
  | false =>
      rw [ownerIn_of_not_isFile hfile] at howner
      simpa using howner
  | true =>
      have hfinding : findingIn tree path = .ofContents (tree.read path) := by
        unfold findingIn
        rw [if_pos hfile]
      have hnobody (howner : discardIn tree path = .ok pid) : Pid.noOwner = pid := by
        rcases discardIn_cases tree path with
          ⟨_, _, hdiscard⟩ | ⟨_, _, _, hdiscard⟩ | ⟨_, _, _, hdiscard⟩
        · simpa [hdiscard] using howner
        · simpa [hdiscard] using howner
        · simp [hdiscard] at howner
      unfold ownerIn at howner
      rw [hfinding] at howner
      cases hread : tree.read path with
      | error fault =>
          cases hmissing : fault.isMissing with
          | true => simpa [hread, Finding.ofContents, hmissing] using howner
          | false => simp [hread, Finding.ofContents, hmissing] at howner
      | ok contents =>
          cases hpid : Pid.ofBytes? contents with
          | none =>
              simp only [hread, Finding.ofContents, hpid] at howner
              simpa [hpid] using hnobody howner
          | some n => simpa [hread, Finding.ofContents, hpid] using howner

end LockFile

namespace Checker

variable {processes : ProcessTable} {n : Int}

/-- Numbers of running processes are within the system's range. -/
theorem runs_bounds (hrange : processes.InRange) (hruns : processes.Runs n) :
    1 ≤ n ∧ n ≤ 4194304 := by
  obtain ⟨number, hlookup, rfl⟩ := hruns
  obtain ⟨front, back, rfl, _⟩ := List.lookup_eq_some_iff.mp hlookup
  obtain ⟨hlow, hhigh⟩ := hrange (number, .running) (by simp)
  simp only at hlow hhigh
  omega

/-- An owner is found alive if a process with its very number is running, and the number is one that
a process can have. -/
theorem truth_eq_alive_iff :
    truth processes n = .alive ↔ 0 < n ∧ n < 0x100000000 ∧ processes.Runs n := by
  unfold truth processNumber?
  constructor
  · intro halive
    by_cases hn : 0 < n ∧ n < 0x100000000
    · rw [if_pos hn] at halive
      simp only at halive
      split at halive
      · rename_i hshows
        have hlookup : processes.lookup n.toNat = some .running := by
          simpa [ProcessTable.shows] using hshows
        exact ⟨hn.1, hn.2, n.toNat, hlookup, by omega⟩
      · cases halive
    · rw [if_neg hn] at halive
      cases halive
  · rintro ⟨hlow, hhigh, number, hlookup, rfl⟩
    rw [if_pos ⟨hlow, hhigh⟩]
    simp [ProcessTable.shows, hlookup]

/-- Where owners are looked up, it is known whether they run. -/
theorem truth_ne_unknown (processes : ProcessTable) (n : Int) : truth processes n ≠ .unknown := by
  unfold truth
  split
  · simp
  · split <;> simp

end Checker

namespace DeviceStatus

open Checker (ruleOf)

/-- Inspects a device with the checker that the settings ask for. -/
def inspectChosen (settings : Settings) (device : String) : Attempt Simulation DeviceStatus := do
  let checker ← (Checker.chosen settings.checkLiveness : Simulation (Checker Simulation))
  inspect settings checker device

/-- The inspection yields the status by the rule of the chosen checker. -/
theorem attempt_inspectChosen (machine : Machine) (settings : Settings) (device : String) :
    (machine.attempt (inspectChosen settings device)).1 =
      statusIn machine.files settings (ruleOf settings.checkLiveness machine.processes) device := by
  obtain ⟨checker, start, hchosen, hfiles, hprocesses, hfollows⟩ :=
    Checker.run_chosen machine settings.checkLiveness
  rw [← hprocesses] at hfollows
  obtain ⟨after, hinspect, _, _⟩ := attempt_inspect_of_follows hfollows settings device
  unfold inspectChosen
  rw [Machine.attempt_bind, Machine.attempt_lift, hchosen]
  simp only
  rw [hinspect, hfiles, hprocesses]

/-- The parts of a status that a device has in a tree. -/
theorem of_statusIn {tree : FileTree} {settings : Settings} {rule : Int → Liveness}
    {device : String} {status : DeviceStatus}
    (hstatus : statusIn tree settings rule device = .ok status) :
    status.device = device ∧ Device.lockPath? settings device = some status.lockPath ∧
      LockFile.ownerIn tree status.lockPath = .ok status.pid ∧
      status.liveness = livenessOf rule status.pid := by
  unfold statusIn at hstatus
  cases hpath : Device.lockPath? settings device with
  | none => simp [hpath] at hstatus
  | some lockPath =>
      simp only [hpath] at hstatus
      cases howner : LockFile.ownerIn tree lockPath with
      | error failure => simp [howner] at hstatus
      | ok pid =>
          simp only [howner, Except.ok.injEq] at hstatus
          subst hstatus
          exact ⟨rfl, rfl, howner, rfl⟩

/-- A device is free exactly if there is no owner to know anything of. -/
theorem state_eq_free_iff {status : DeviceStatus} :
    status.state = .free ↔ status.liveness = none := by
  unfold state
  cases status.liveness with
  | none => simp
  | some liveness => cases liveness <;> simp

/-- With what the rule of the chosen checker says of an owner, the state is decided by its number,
whether owners are looked up, and whether a process with that number is running. -/
theorem state_of_livenessOf {machine : Machine} {settings : Settings} {status : DeviceStatus}
    (hrange : machine.processes.InRange)
    (hliveness : status.liveness =
      livenessOf (ruleOf settings.checkLiveness machine.processes) status.pid) :
    (status.state = .free ↔ status.pid = 0) ∧
      (status.state = .unverified ↔ status.pid ≠ 0 ∧ settings.checkLiveness = false) ∧
      (status.state = .locked ↔
        status.pid ≠ 0 ∧ settings.checkLiveness = true ∧ machine.processes.Runs status.pid) ∧
      (status.state = .stale ↔
        status.pid ≠ 0 ∧ settings.checkLiveness = true ∧ ¬machine.processes.Runs status.pid) := by
  have halive : Checker.truth machine.processes status.pid = .alive ↔
      machine.processes.Runs status.pid := by
    rw [Checker.truth_eq_alive_iff]
    constructor
    · rintro ⟨_, _, hruns⟩
      exact hruns
    · intro hruns
      obtain ⟨hlow, hhigh⟩ := Checker.runs_bounds hrange hruns
      exact ⟨by omega, by omega, hruns⟩
  have hknown := Checker.truth_ne_unknown machine.processes status.pid
  unfold state livenessOf ruleOf at *
  by_cases hnobody : status.pid = 0
  · simp [hliveness, hnobody, Pid.noOwner]
  · have hbeq : (status.pid == Pid.noOwner) = false := by simpa [Pid.noOwner] using hnobody
    cases hcheck : settings.checkLiveness with
    | false => simp [hliveness, hbeq, hcheck, hnobody]
    | true =>
        rw [hliveness, hbeq, hcheck]
        cases htruth : Checker.truth machine.processes status.pid with
        | alive => simp [htruth, hnobody, halive.mp htruth]
        | dead =>
            have hruns : ¬machine.processes.Runs status.pid := fun hruns => by
              simp [halive.mpr hruns] at htruth
            simp [htruth, hnobody, hruns]
        | unknown => exact absurd htruth hknown

/-- What an inspection with the chosen checker reports follows from the number in the lock file and
from the processes: nobody or 0 is free, another number is unverified if owners are not looked up,
locked if a process with that very number is running, and stale else.  Over several devices, up to
the one that fails if one does, each lock file is looked at in the tree that the ones before it left.
Every checker that leaves files alone is asked exactly about the owners that are found there, once
for each device and in their order, and the lock files that are not free still stand where they
stood, with their contents. -/
theorem status_tells_truth :
    (∀ (machine after : Machine) (settings : Settings) (device : String) (status : DeviceStatus),
      machine.processes.InRange →
      machine.attempt (inspectChosen settings device) = (.ok status, after) →
      let number := machine.files.number? status.lockPath
      status.device = device ∧ Device.lockPath? settings device = some status.lockPath ∧
        (status.state = .free ↔ number = none ∨ number = some 0) ∧
        (status.state = .free → status.pid = 0 ∧ status.liveness = none) ∧
        (status.state ≠ .free → number = some status.pid) ∧
        (status.state = .unverified ↔
          ∃ n, number = some n ∧ n ≠ 0 ∧ settings.checkLiveness = false) ∧
        (status.state = .locked ↔ ∃ n, number = some n ∧ n ≠ 0 ∧
          settings.checkLiveness = true ∧ machine.processes.Runs n) ∧
        (status.state = .stale ↔ ∃ n, number = some n ∧ n ≠ 0 ∧
          settings.checkLiveness = true ∧ ¬machine.processes.Runs n)) ∧
    (∀ (machine : Machine) (settings : Settings) (checker : Checker Simulation)
      (devices : List String), checker.SparesFiles →
      ∃ (front back : List String) (statuses : List DeviceStatus) (last : Machine),
        devices = front ++ back ∧
        ((back = [] ∧
            machine.attempt (inspectAll settings checker.noted devices) = (.ok statuses, last)) ∨
          (back ≠ [] ∧ ∃ failure,
            machine.attempt (inspectAll settings checker.noted devices) =
              (.error failure, last))) ∧
        Inspects settings machine.files front statuses last.files ∧
        statuses.map device = front ∧
        last.asked = machine.asked ++ (statuses.map pid).filter (fun pid => pid != 0) ∧
        ∀ status ∈ statuses, status.state ≠ .free →
          ∃ contents, Pid.ofBytes? contents = some status.pid ∧
            machine.files.Spared last.files status.lockPath contents) := by
  refine ⟨?_, ?_⟩
  · intro machine after settings device status hrange hrun number
    have hstatus := attempt_inspectChosen machine settings device
    rw [hrun] at hstatus
    obtain ⟨hdevice, hlocated, howner, hliveness⟩ := of_statusIn hstatus.symm
    obtain ⟨hfree, hunverified, hlocked, hstale⟩ := state_of_livenessOf hrange hliveness
    have hpid : number.getD 0 = status.pid := LockFile.number?_of_ownerIn howner
    have hnamed (holds : Int → Prop) :
        (∃ n, number = some n ∧ n ≠ 0 ∧ holds n) ↔ status.pid ≠ 0 ∧ holds status.pid := by
      rw [← hpid]
      cases number with
      | none => simp
      | some n => simp
    refine ⟨hdevice, hlocated, ?_, ?_, ?_, ?_, ?_, ?_⟩
    · rw [hfree, ← hpid]
      cases number with
      | none => simp
      | some n => simp
    · intro hstate
      exact ⟨hfree.mp hstate, state_eq_free_iff.mp hstate⟩
    · intro hstate
      have hne : status.pid ≠ 0 := fun hpid => hstate (hfree.mpr hpid)
      obtain ⟨n, hn, _, rfl⟩ := (hnamed (· = status.pid)).mpr ⟨hne, rfl⟩
      exact hn
    · rw [hunverified, hnamed fun _ => settings.checkLiveness = false]
    · rw [hlocked, hnamed fun n => settings.checkLiveness = true ∧ machine.processes.Runs n]
    · rw [hstale, hnamed fun n => settings.checkLiveness = true ∧ ¬machine.processes.Runs n]
  · intro machine settings checker devices hspares
    obtain ⟨front, back, statuses, last, hdevices, hinspects, hasked, hend⟩ :=
      exists_inspects hspares machine settings devices
    refine ⟨front, back, statuses, last, hdevices, hend, hinspects, hinspects.map_device, hasked,
      ?_⟩
    intro status hmem hstate
    have howner : status.pid ≠ Pid.noOwner := fun hpid =>
      hstate (state_eq_free_iff.mpr (hinspects.liveness_iff hmem |>.mpr hpid))
    obtain ⟨contents, hspared, hpid⟩ := hinspects.spared hmem howner
    exact ⟨contents, hpid, hspared⟩

/-- One lock file names a process that is running, one names a zombie, and one is invalid. -/
def busyLocks : Machine where
  processes := [(12, .running), (7, .zombie)]
  files :=
    { entries := [
        ([Utf8.ofString "l"], .directory),
        ([Utf8.ofString "l", Utf8.ofString "LCK..a"], .file 0),
        ([Utf8.ofString "l", Utf8.ofString "LCK..b"], .file 1),
        ([Utf8.ofString "l", Utf8.ofString "LCK..c"], .file 2)]
      contents :=
        [(0, Utf8.ofString "nobody"), (1, Utf8.ofString "7\n"), (2, Utf8.ofString "12\n")]
      workingDirectory := [] }

/-- With a running owner, a zombie and an invalid file, the hypotheses hold, and the device with the
running owner is locked. -/
theorem status_tells_truth_busyLocks :
    let settings : Settings := { lockDirectory := "/l" }
    let lockPath := Utf8.ofString "/l/LCK..c"
    busyLocks.processes.InRange ∧
      (busyLocks.attempt (inspectChosen settings "c")).1 = .ok ⟨"c", lockPath, 12, some .alive⟩ ∧
      (∃ n, busyLocks.files.number? lockPath = some n ∧ n ≠ 0 ∧
        settings.checkLiveness = true ∧ busyLocks.processes.Runs n) ∧
      Checker.SparesFiles Checker.ofProcesses ∧
      ∃ (front back : List String) (statuses : List DeviceStatus) (last : Machine),
        ["a", "b", "c"] = front ++ back ∧
        ((back = [] ∧ busyLocks.attempt
            (inspectAll settings Checker.ofProcesses.noted ["a", "b", "c"]) =
              (.ok statuses, last)) ∨
          (back ≠ [] ∧ ∃ failure, busyLocks.attempt
            (inspectAll settings Checker.ofProcesses.noted ["a", "b", "c"]) =
              (.error failure, last))) ∧
        Inspects settings busyLocks.files front statuses last.files ∧
        statuses.map device = front ∧
        last.asked = busyLocks.asked ++ (statuses.map pid).filter (fun pid => pid != 0) ∧
        ∀ status ∈ statuses, status.state ≠ .free →
          ∃ contents, Pid.ofBytes? contents = some status.pid ∧
            busyLocks.files.Spared last.files status.lockPath contents := by
  intro settings lockPath
  have hrange : busyLocks.processes.InRange := by
    unfold ProcessTable.InRange
    decide
  have hrun : busyLocks.attempt (inspectChosen settings "c") =
      (.ok ⟨"c", lockPath, 12, some .alive⟩,
        (busyLocks.attempt (inspectChosen settings "c")).2) := by
    have hstatus := attempt_inspectChosen busyLocks { lockDirectory := "/l" } "c"
    have hanswer : statusIn busyLocks.files { lockDirectory := "/l" }
        (ruleOf true busyLocks.processes) "c" =
          .ok ⟨"c", Utf8.ofString "/l/LCK..c", 12, some .alive⟩ := rfl
    exact Prod.ext (hstatus.trans hanswer) rfl
  obtain ⟨_, _, _, _, _, _, hlocked, _⟩ := status_tells_truth.1 _ _ _ _ _ hrange hrun
  have hspares := Checker.sparesFiles_ofProcesses
  exact ⟨hrange, by rw [hrun], hlocked.mp rfl, hspares,
    status_tells_truth.2 busyLocks settings Checker.ofProcesses ["a", "b", "c"] hspares⟩

end DeviceStatus

end SerialLock
