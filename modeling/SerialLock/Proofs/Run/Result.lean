import SerialLock.Proofs.Run.Program
import SerialLock.Proofs.Status.Decision
import SerialLock.Proofs.Status.Together
import SerialLock.Proofs.Text.Ascii

/-!
# What a request yields

The result of a request is a function of the files and the processes (`resultIn`), which performing
it computes (`attempt_perform`).  A report on statuses that were found is always there, also as
JSON, since the paths of lock files are texts.
-/

set_option autoImplicit false

namespace SerialLock

/-- Every status that is found can be written as JSON: its path is made of texts. -/
theorem Device.exists_encode_of_lockPath? {settings : Settings} {device : String} {path : Path}
    (hpath : lockPath? settings device = some path) : ∃ text, path = Utf8.encode text := by
  unfold lockPath? at hpath
  obtain ⟨base, _, rfl⟩ := Option.map_eq_some_iff.mp hpath
  have hname : Utf8.ofString settings.lockPrefix ++ Utf8.encode base =
      Utf8.encode (settings.lockPrefix.toList ++ base) := (Utf8.encode_append _ _).symm
  rw [hname]
  unfold Path.join
  split
  · exact ⟨_, rfl⟩
  · split
    · exact ⟨_, (Utf8.encode_append settings.lockDirectory.toList _).symm⟩
    · exact ⟨_, (Utf8.encode_append settings.lockDirectory.toList
        ('/' :: (settings.lockPrefix.toList ++ base))).symm⟩

/-- Statuses whose paths are texts can be written as JSON. -/
theorem DeviceStatus.exists_jsonReport {statuses : List DeviceStatus}
    (htext : ∀ status ∈ statuses, ∃ text, status.lockPath = Utf8.encode text) :
    ∃ output, jsonReport? statuses = some output := by
  suffices ∃ items, statuses.mapM json? = some items by
    obtain ⟨items, hitems⟩ := this
    exact ⟨_, by unfold jsonReport?; rw [hitems]; rfl⟩
  induction statuses with
  | nil => exact ⟨[], rfl⟩
  | cons status rest ih =>
      obtain ⟨text, htext'⟩ := htext status (by simp)
      obtain ⟨items, hitems⟩ := ih fun status' hmem => htext status' (by simp [hmem])
      have hdecode : Utf8.decode? status.lockPath = some text := Utf8.decode?_eq_some_iff.mpr htext'
      obtain ⟨item, hitem⟩ : ∃ item, status.json? = some item :=
        ⟨_, by unfold json?; rw [hdecode]; rfl⟩
      exact ⟨item :: items, by rw [List.mapM_cons, hitem, hitems]; rfl⟩

namespace Program

/-- What a request yields on a machine. -/
def resultIn (machine : Machine) (request : Request) (setting : Option Bytes) :
    Except Failure Report :=
  match request.command with
  | .owner path =>
    (LockFile.ownerIn machine.files path).map fun pid => ⟨ExitCode.success, s!"{pid}\n"⟩
  | .status devices json =>
    match Settings.found machine.files request.settingsFile setting request.lockDirectory with
    | .error failure => .error failure
    | .ok settings =>
      (devices.mapM (DeviceStatus.statusIn machine.files settings
        (Checker.ruleOf settings.checkLiveness machine.processes))).bind (statusReport json)
  | .lock device => .error (.unsupported s!"acquiring the lock for '{device}'")
  | .unlock device => .error (.unsupported s!"releasing the lock for '{device}'")

/-- Performing a request computes it. -/
theorem attempt_perform (machine : Machine) (request : Request) (setting : Option Bytes) :
    (machine.attempt (perform request setting)).1 = resultIn machine request setting := by
  unfold perform resultIn
  cases hcommand : request.command with
  | owner path =>
      obtain ⟨log, htold⟩ := attempt_tellOwner machine path
      simp only [htold]
  | lock device => rfl
  | unlock device => rfl
  | status devices json =>
      obtain ⟨log, hresolve⟩ := Settings.attempt_resolve machine request.settingsFile setting
        request.lockDirectory
      simp only
      rw [Machine.attempt_bind, hresolve]
      cases Settings.found machine.files request.settingsFile setting request.lockDirectory with
      | error failure => rfl
      | ok settings =>
          obtain ⟨checker, start, hfiles, hprocesses, hfollows, htold, -⟩ :=
            attempt_tellStatus { machine with log } settings devices json
          simp only at hfiles hprocesses hfollows ⊢
          rw [htold, DeviceStatus.attempt_inspectAll hfollows settings devices, hfiles]

/-- The exit code of a report on statuses that were found, also where it is made as JSON. -/
theorem statusReport_eq {tree : FileTree} {settings : Settings} {rule : Int → Liveness}
    {devices : List String} {statuses : List DeviceStatus} (json : Bool)
    (hstatuses : devices.mapM (DeviceStatus.statusIn tree settings rule) = .ok statuses) :
    ∃ output, statusReport json statuses = .ok ⟨DeviceStatus.exitCode statuses, output⟩ := by
  have htext : ∀ status ∈ statuses, ∃ text, status.lockPath = Utf8.encode text := by
    obtain ⟨hok, rfl⟩ := mapM_eq_ok_iff.mp hstatuses
    intro status hmem
    obtain ⟨device, hdevice, rfl⟩ := List.mem_map.mp hmem
    obtain ⟨_, hpath, _⟩ := DeviceStatus.of_statusIn (hok device hdevice)
    exact Device.exists_encode_of_lockPath? hpath
  obtain ⟨output, houtput⟩ := DeviceStatus.exists_jsonReport htext
  unfold statusReport
  cases json with
  | true => exact ⟨output, by simp [houtput]⟩
  | false => exact ⟨_, rfl⟩

end Program

end SerialLock
