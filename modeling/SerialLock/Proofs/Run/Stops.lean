import SerialLock.Proofs.Run.Views

/-!
# Runs that stop at a device

A request for the states of devices inspects them in sequence.  It stops at the first that fails:
the ones behind it are not looked at, the files are those that the ones before it left, and the
checker was asked about the owners of those and about nobody else.  Nothing is printed as a result
then.  Where none fails, the result is one line or one JSON object for each device, in their order
(`status_stops_or_tells_all`).
-/

set_option autoImplicit false

namespace SerialLock

namespace Checker

/-- The checker that settings ask for. -/
def askedFor (settings : Settings) : Checker Simulation :=
  if settings.checkLiveness then ofProcesses else unavailable

/-- The checker that settings ask for leaves files alone. -/
theorem sparesFiles_askedFor (settings : Settings) : (askedFor settings).SparesFiles := by
  intro machine pid
  unfold askedFor
  cases settings.checkLiveness with
  | false => rfl
  | true => exact sparesFiles_ofProcesses machine pid

/-- Choosing a checker yields the one that the settings ask for, and adds no more than a record. -/
theorem exists_run_chosen (machine : Machine) (settings : Settings) :
    ∃ log, (chosen settings.checkLiveness : Simulation (Checker Simulation)).run machine =
      (askedFor settings, { machine with log }) := by
  unfold askedFor chosen
  cases settings.checkLiveness with
  | false => exact ⟨_, rfl⟩
  | true => exact ⟨machine.log, rfl⟩

end Checker

namespace Program

open DeviceStatus (InSequence inspect owners told)

variable {settings : Settings} {checker : Checker Simulation} {machine middle last : Machine}
  {device : String} {devices front : List String} {statuses : List DeviceStatus}
  {failure : Failure}

/-- What is printed tells this of devices, one after the other: by a line for each, or by what is
read from it as JSON. -/
def Tells (json : Bool) (output : String) (all : List Told) : Prop :=
  match json with
  | false => output = Told.lines all
  | true => Told.read? output = some all

/-- Statuses whose paths are texts are told, in words or as JSON. -/
theorem exists_statusReport (json : Bool) (htext : ∀ status ∈ statuses, status.HasText) :
    ∃ output, statusReport json statuses = .ok ⟨DeviceStatus.exitCode statuses, output⟩ ∧
      Tells json output (statuses.map told) := by
  cases json with
  | false => exact ⟨_, rfl, (DeviceStatus.lines_told statuses).symm⟩
  | true =>
      obtain ⟨output, hjson⟩ := DeviceStatus.exists_jsonReport htext
      refine ⟨output, ?_, DeviceStatus.read?_jsonReport hjson⟩
      simp [statusReport, hjson]

/-- The failure of a device is that of the request, whether it asks for words or for JSON. -/
theorem attempt_tellStatusBy_of_stop
    (hfront : InSequence settings checker machine front statuses middle)
    (hdevice : middle.attempt (inspect settings checker device) = (.error failure, last))
    (back : List String) (json : Bool) :
    machine.attempt (tellStatusBy settings checker (front ++ device :: back) json) =
      (.error failure, last) := by
  unfold tellStatusBy
  rw [Machine.attempt_bind, hfront.stops hdevice]

/-- Where no device fails, each is told once, in their order. -/
theorem attempt_tellStatusBy_of_all
    (hall : InSequence settings checker machine devices statuses last) (json : Bool) :
    ∃ output, machine.attempt (tellStatusBy settings checker devices json) =
        (.ok ⟨DeviceStatus.exitCode statuses, output⟩, last) ∧
      Tells json output (statuses.map told) := by
  have hrun := hall.attempt_inspectAll
  have htext : ∀ status ∈ statuses, status.HasText := by
    rcases DeviceStatus.hasText_of_attempt_inspectAll hrun with ⟨_, hok, htext⟩ | ⟨_, herror, -⟩
    · rw [Except.ok.inj hok]
      exact htext
    · exact nomatch herror
  obtain ⟨output, hreport, htells⟩ := exists_statusReport json htext
  refine ⟨output, ?_, htells⟩
  unfold tellStatusBy
  rw [Machine.attempt_bind, hrun, ← hreport]
  rfl

/-- With settings at hand, a request for the states of devices tells them. -/
theorem exists_attempt_perform {machine : Machine} {request : Request} {setting : Option Bytes}
    (hfound : Settings.found machine.files request.settingsFile setting request.lockDirectory =
      .ok settings) :
    ∃ start : Machine, start.files = machine.files ∧ start.processes = machine.processes ∧
      ∀ devices json,
        machine.attempt (perform { request with command := .status devices json } setting) =
          start.attempt (tellStatusBy settings (Checker.askedFor settings) devices json) := by
  obtain ⟨log, hresolve⟩ := Settings.attempt_resolve machine request.settingsFile setting
    request.lockDirectory
  obtain ⟨log', hchosen⟩ := Checker.exists_run_chosen { machine with log } settings
  refine ⟨{ machine with log := log' }, rfl, rfl, fun devices json => ?_⟩
  unfold perform
  simp only
  rw [Machine.attempt_bind, hresolve, hfound]
  simp only [tellStatus_eq]
  rw [Machine.attempt_bind, Machine.attempt_lift, hchosen]

/-- A request for the states of devices that fails at a device is stopped there.  Suppose that the
devices in front are inspected in sequence and that the next one then fails.  Then nothing is
printed as a result, in words or as JSON, the failure is that of the device, and the files are those
that the devices in front left, whatever devices come behind.  With a checker that leaves files
alone, these are the files after a look at each lock file of the devices in front.  The checker is
asked about the owners of the devices in front alone, in their order, so that its other answers do
not matter.  Where no device fails, each is told once, in their order.  One of the two is the case.
All this holds of whole runs as well. -/
theorem status_stops_or_tells_all (settings : Settings) (checker : Checker Simulation)
    (machine : Machine) :
    (∀ front device back json statuses middle failure last,
      InSequence settings checker machine front statuses middle →
      middle.attempt (inspect settings checker device) = (.error failure, last) →
      machine.attempt (tellStatusBy settings checker (front ++ device :: back) json) =
          (.error failure, last) ∧
        (ended (machine.attempt
          (tellStatusBy settings checker (front ++ device :: back) json)).1).output = "" ∧
        last.files = middle.files ∧
        (checker.SparesFiles → last.files =
          (front.filterMap (Device.lockPath? settings)).foldl LockFile.treeAfter machine.files) ∧
        ∀ checker', (∀ pid ∈ statuses.map DeviceStatus.pid, pid ≠ 0 →
            checker' pid = checker pid) →
          machine.attempt (tellStatusBy settings checker' (front ++ device :: back) json) =
            (.error failure, last)) ∧
    (∀ front device back json statuses middle failure last,
      InSequence settings checker.noted machine front statuses middle →
      middle.attempt (inspect settings checker.noted device) = (.error failure, last) →
      (machine.attempt
          (tellStatusBy settings checker.noted (front ++ device :: back) json)).2.asked =
        machine.asked ++ (statuses.map DeviceStatus.pid).filter fun pid => pid != 0) ∧
    (∀ devices json statuses last,
      InSequence settings checker machine devices statuses last →
      statuses.map DeviceStatus.device = devices ∧
        ∃ output, machine.attempt (tellStatusBy settings checker devices json) =
            (.ok ⟨DeviceStatus.exitCode statuses, output⟩, last) ∧
          Tells json output (statuses.map told)) ∧
    (∀ devices,
      (∃ statuses last, InSequence settings checker machine devices statuses last) ∨
        ∃ front device back statuses middle failure last, devices = front ++ device :: back ∧
          InSequence settings checker machine front statuses middle ∧
          middle.attempt (inspect settings checker device) = (.error failure, last)) ∧
    ∀ (environment : Environment) (request : Request),
      Settings.found machine.files request.settingsFile environment.lockDirectory
        request.lockDirectory = .ok settings →
      ∃ start : Machine, start.files = machine.files ∧ start.processes = machine.processes ∧
        (∀ front device back json statuses middle failure last,
          InSequence settings (Checker.askedFor settings) start front statuses middle →
          middle.attempt (inspect settings (Checker.askedFor settings) device) =
            (.error failure, last) →
          let run := machine.runRequest environment
            { request with command := .status (front ++ device :: back) json }
          run.1.outcome = .failed failure ∧ run.1.outcome.output = "" ∧
            run.2.files = (front.filterMap (Device.lockPath? settings)).foldl
              LockFile.treeAfter machine.files) ∧
        ∀ devices json statuses last,
          InSequence settings (Checker.askedFor settings) start devices statuses last →
          let run := machine.runRequest environment
            { request with command := .status devices json }
          statuses.map DeviceStatus.device = devices ∧
            Tells json run.1.outcome.output (statuses.map told) ∧
            run.2.files = (devices.filterMap (Device.lockPath? settings)).foldl
              LockFile.treeAfter machine.files := by
  refine ⟨?stopped, ?asked, ?all, ?either, ?runs⟩
  case stopped =>
    intro front device back json statuses middle failure last hfront hdevice
    have hrun := attempt_tellStatusBy_of_stop hfront hdevice back json
    refine ⟨hrun, by rw [hrun]; rfl, DeviceStatus.files_of_attempt_inspect_error hdevice,
      fun hspares => hfront.files_of_stop hspares hdevice, ?_⟩
    -- the device that fails asks nobody, so only the owners in front count
    intro checker' hsame
    apply attempt_tellStatusBy_of_stop
    · apply hfront.congr
      intro pid hmem
      obtain ⟨hpid, howner⟩ := List.mem_filter.mp hmem
      exact hsame pid hpid (bne_iff_ne.mp howner)
    · rw [DeviceStatus.attempt_inspect_error_iff] at hdevice ⊢
      exact hdevice
  case asked =>
    intro front device back json statuses middle failure last hfront hdevice
    rw [attempt_tellStatusBy_of_stop hfront hdevice]
    exact hfront.asked_of_stop hdevice
  case all =>
    intro devices json statuses last hall
    exact ⟨hall.map_device, attempt_tellStatusBy_of_all hall json⟩
  case either =>
    exact DeviceStatus.inSequence_or_stops settings checker machine
  case runs =>
    intro environment request hfound
    have hfound' : Settings.found machine.fresh.files request.settingsFile
        environment.lockDirectory request.lockDirectory = .ok settings := hfound
    -- a run first resolves the settings and chooses the checker, which changes no more than the log
    obtain ⟨start, hfiles, hprocesses, hperform⟩ := exists_attempt_perform hfound'
    have hspares := Checker.sparesFiles_askedFor settings
    have hfiles' : start.files = machine.files := hfiles
    refine ⟨start, hfiles, hprocesses, ?_, ?_⟩
    · intro front device back json statuses middle failure last hfront hdevice run
      have hrun := (hperform (front ++ device :: back) json).trans
        (attempt_tellStatusBy_of_stop hfront hdevice back json)
      have houtcome : run.1.outcome = .failed failure := by
        rw [Machine.runRequest_outcome, hrun]
        rfl
      refine ⟨houtcome, by rw [houtcome]; rfl, ?_⟩
      rw [Machine.runRequest_files, hrun, ← hfiles']
      exact hfront.files_of_stop hspares hdevice
    · intro devices json statuses last hall run
      obtain ⟨output, htold, htells⟩ := attempt_tellStatusBy_of_all hall json
      have hrun := (hperform devices json).trans htold
      refine ⟨hall.map_device, ?_, ?_⟩
      · rw [Machine.runRequest_outcome, hrun]
        exact htells
      · rw [Machine.runRequest_files, hrun, ← hfiles']
        exact hall.files_eq hspares

/-- Two lock files are invalid, and one names a process that is running. -/
def strayLocks : Machine where
  processes := [(7, .running)]
  files :=
    { entries := [
        ([Utf8.ofString "l"], .directory),
        ([Utf8.ofString "l", Utf8.ofString "LCK..a"], .file 0),
        ([Utf8.ofString "l", Utf8.ofString "LCK..b"], .file 1),
        ([Utf8.ofString "l", Utf8.ofString "LCK..c"], .file 2)]
      contents :=
        [(0, Utf8.ofString "nobody"), (1, Utf8.ofString "7\n"), (2, Utf8.ofString "nobody")]
      workingDirectory := [] }

/-- The invalid lock file in front of a device without a name is discarded, the one behind it is
not, and the owner in front is the only one asked about. -/
theorem status_stops_or_tells_all_nameless :
    let settings : Settings := { lockDirectory := "/l" }
    let checker := Checker.noted (Checker.fixed fun _ => .alive)
    let after := strayLocks.attempt (tellStatusBy settings checker ["a", "b", "/", "c"] true)
    after.1 = .error (.invalidDevice "/") ∧ after.2.asked = [7] ∧
      after.2.files.isFile (Utf8.ofString "/l/LCK..a") = false ∧
      after.2.files.isFile (Utf8.ofString "/l/LCK..c") = true := by
  intro settings checker after
  let first := DeviceStatus.looked strayLocks "a" (Utf8.ofString "/l/LCK..a")
  let second : Machine :=
    { DeviceStatus.looked first "b" (Utf8.ofString "/l/LCK..b") with asked := [7] }
  have hfront : InSequence settings checker strayLocks ["a", "b"]
      [⟨"a", Utf8.ofString "/l/LCK..a", 0, none⟩,
        ⟨"b", Utf8.ofString "/l/LCK..b", 7, some .alive⟩] second := by
    refine @InSequence.cons _ _ _ first _ _ _ _ _ ?_ ?_
    · exact DeviceStatus.attempt_inspect_ok_iff.mpr ⟨rfl, by decide, by rfl, rfl⟩
    · refine @InSequence.cons _ _ _ second _ _ _ _ _ ?_ ?_
      · exact DeviceStatus.attempt_inspect_ok_iff.mpr ⟨rfl, by decide, by rfl, rfl⟩
      · exact .nil
  have hnameless : second.attempt (inspect settings checker "/") =
      (.error (.invalidDevice "/"), second) := by
    rw [DeviceStatus.attempt_inspect]
    rfl
  obtain ⟨hstopped, -, -, -, -⟩ := status_stops_or_tells_all settings checker strayLocks
  obtain ⟨-, hasked, -, -, -⟩ :=
    status_stops_or_tells_all settings (Checker.fixed fun _ => .alive) strayLocks
  obtain ⟨hafter, -⟩ := hstopped ["a", "b"] "/" ["c"] true _ _ _ _ hfront hnameless
  have hmachine : after.2 = second := congrArg Prod.snd hafter
  refine ⟨congrArg Prod.fst hafter,
    hasked ["a", "b"] "/" ["c"] true _ _ _ _ hfront hnameless, ?_, ?_⟩
  · rw [hmachine]
    decide
  · rw [hmachine]
    decide

end Program

end SerialLock
