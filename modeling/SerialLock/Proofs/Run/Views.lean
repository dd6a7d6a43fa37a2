import SerialLock.Proofs.Run.ExitCode
import SerialLock.Proofs.Status.Told

/-!
# Two views of one run

Whether the states of devices are told in words or as JSON makes no difference to what a run does.
The devices are inspected first, in the same way and with the same checker, and the report is made
of the statuses alone.  So both runs leave the same machine behind and fail alike, and where they
are done each line of the words says what one object of the JSON tells (`status_views_agree`).
-/

set_option autoImplicit false

namespace SerialLock

namespace Told

/-- The line for what is told of a device. -/
def line (told : Told) : String :=
  if told.state = .free then s!"{told.device}: free"
  else s!"{told.device}: {told.state.word} (pid {told.pid}, {told.lockPath})"

/-- The lines for what is told of several devices, in their order. -/
def lines (all : List Told) : String :=
  String.ofList (all.flatMap fun told => told.line.toList ++ ['\n'])

end Told

namespace DeviceStatus

/-- The line for what the JSON tells of a device is the status in words. -/
theorem line_told (status : DeviceStatus) : status.told.line = status.text := by
  unfold Told.line text told
  cases hstate : status.state <;> simp

/-- The words are the lines for what the JSON tells. -/
theorem lines_told (statuses : List DeviceStatus) :
    Told.lines (statuses.map told) = report statuses := by
  unfold Told.lines report
  simp [List.flatMap_map, line_told]

/-- An inspection finds a lock file whose path is a text, or fails for the device or its lock
file, whatever the checker. -/
theorem hasText_of_attempt_inspect {machine after : Machine} {settings : Settings}
    {checker : Checker Simulation} {device : String} {result : Except Failure DeviceStatus}
    (hrun : machine.attempt (inspect settings checker device) = (result, after)) :
    (∃ status, result = .ok status ∧ status.HasText) ∨
      ∃ failure, result = .error failure ∧ ∀ text, failure ≠ .mistake text := by
  rw [attempt_inspect] at hrun
  cases hpath : Device.lockPath? settings device with
  | none =>
      simp only [hpath, Prod.mk.injEq] at hrun
      exact .inr ⟨_, hrun.1.symm, by simp⟩
  | some lockPath =>
      simp only [hpath] at hrun
      cases howner : LockFile.ownerIn machine.files lockPath with
      | error failure =>
          obtain ⟨-, hcode⟩ := LockFile.exitCode_of_ownerIn howner
          simp only [howner, Prod.mk.injEq] at hrun
          refine .inr ⟨failure, hrun.1.symm, ?_⟩
          rintro text rfl
          cases hcode
      | ok pid =>
          simp only [howner, Prod.mk.injEq] at hrun
          exact .inl ⟨_, hrun.1.symm, Device.exists_encode_of_lockPath? hpath⟩

/-- A run over devices finds lock files whose paths are texts, or fails for a device or its lock
file. -/
theorem hasText_of_attempt_inspectAll {machine after : Machine} {settings : Settings}
    {checker : Checker Simulation} {devices : List String}
    {result : Except Failure (List DeviceStatus)}
    (hrun : machine.attempt (inspectAll settings checker devices) = (result, after)) :
    (∃ statuses, result = .ok statuses ∧ ∀ status ∈ statuses, status.HasText) ∨
      ∃ failure, result = .error failure ∧ ∀ text, failure ≠ .mistake text := by
  induction devices generalizing machine after result with
  | nil =>
      cases hrun
      exact .inl ⟨[], rfl, by simp⟩
  | cons device devices ih =>
      unfold inspectAll at hrun
      rw [Machine.attempt_bind] at hrun
      cases hfirst : machine.attempt (inspect settings checker device) with
      | mk first middle =>
          rw [hfirst] at hrun
          rcases hasText_of_attempt_inspect hfirst with ⟨status, rfl, htext⟩ | ⟨failure, rfl, hne⟩
          · simp only at hrun
            rw [Machine.attempt_bind] at hrun
            cases hrest : middle.attempt (inspectAll settings checker devices) with
            | mk rest last =>
                rw [hrest] at hrun
                rcases ih hrest with ⟨statuses, rfl, htexts⟩ | ⟨failure, rfl, hne⟩
                · cases hrun
                  refine .inl ⟨_, rfl, ?_⟩
                  simpa [htext] using htexts
                · cases hrun
                  exact .inr ⟨failure, rfl, hne⟩
          · cases hrun
            exact .inr ⟨failure, rfl, hne⟩

end DeviceStatus

namespace Program

/-- Tells the states of devices, where the checker is given. -/
def tellStatusBy (settings : Settings) (checker : Checker Simulation) (devices : List String)
    (json : Bool) : Attempt Simulation Report := do
  let statuses ← DeviceStatus.inspectAll settings checker devices
  ExceptT.mk (pure (statusReport json statuses))

/-- The checker that is given is the one that the settings ask for. -/
theorem tellStatus_eq (settings : Settings) (devices : List String) (json : Bool) :
    (tellStatus settings devices json : Attempt Simulation Report) = (do
      let checker ← (Checker.chosen settings.checkLiveness : Simulation (Checker Simulation))
      tellStatusBy settings checker devices json) := rfl

/-- What a run yields that tells in words, and what the same run yields that tells as JSON: the same
failure, which is not one of writing JSON, or the same exit code, and for each element of the array
its line. -/
inductive Views : Except Failure Report → Except Failure Report → Prop where
  | failed {failure : Failure} (hwritten : ∀ text, failure ≠ .mistake text) :
      Views (.error failure) (.error failure)
  | done {exitCode : ExitCode} {json : String} {elements : List Told}
      (hread : Told.read? json = some elements) :
      Views (.ok ⟨exitCode, Told.lines elements⟩) (.ok ⟨exitCode, json⟩)

/-- Two attempts are views of one run: they leave the same machine, and what they yield agrees. -/
def AreViews (words json : Except Failure Report × Machine) : Prop :=
  words.2 = json.2 ∧ Views words.1 json.1

/-- The reports in words and as JSON of one list of statuses are views of one run. -/
theorem views_statusReport {statuses : List DeviceStatus}
    (htext : ∀ status ∈ statuses, status.HasText) :
    Views (statusReport false statuses) (statusReport true statuses) := by
  obtain ⟨json, hjson⟩ := DeviceStatus.exists_jsonReport htext
  have hviews : Views
      (.ok ⟨DeviceStatus.exitCode statuses, Told.lines (statuses.map DeviceStatus.told)⟩)
      (.ok ⟨DeviceStatus.exitCode statuses, json⟩) := .done (DeviceStatus.read?_jsonReport hjson)
  rw [DeviceStatus.lines_told] at hviews
  simpa [statusReport, hjson] using hviews

/-- With any checker the devices are inspected alike, and the reports are made of one list. -/
theorem areViews_tellStatusBy (machine : Machine) (settings : Settings)
    (checker : Checker Simulation) (devices : List String) :
    AreViews (machine.attempt (tellStatusBy settings checker devices false))
      (machine.attempt (tellStatusBy settings checker devices true)) := by
  unfold tellStatusBy
  simp only [Machine.attempt_bind]
  cases hrun : machine.attempt (DeviceStatus.inspectAll settings checker devices) with
  | mk result after =>
      rcases DeviceStatus.hasText_of_attempt_inspectAll hrun with
        ⟨statuses, rfl, htext⟩ | ⟨failure, rfl, hwritten⟩
      · exact ⟨rfl, views_statusReport htext⟩
      · exact ⟨rfl, .failed hwritten⟩

/-- The settings and the checker are chosen before anything depends on the form of the report. -/
theorem areViews_perform (machine : Machine) (request : Request) (setting : Option Bytes)
    (devices : List String) :
    AreViews
      (machine.attempt (perform { request with command := .status devices false } setting))
      (machine.attempt (perform { request with command := .status devices true } setting)) := by
  obtain ⟨log, hresolve⟩ := Settings.attempt_resolve machine request.settingsFile setting
    request.lockDirectory
  unfold perform
  simp only [Machine.attempt_bind, hresolve]
  cases hfound : Settings.found machine.files request.settingsFile setting
      request.lockDirectory with
  | error failure =>
      refine ⟨rfl, .failed ?_⟩
      rintro text rfl
      cases Settings.isFailure_of_found hfound
  | ok settings =>
      simp only [tellStatus_eq, Machine.attempt_bind, Machine.attempt_lift]
      exact areViews_tellStatusBy _ settings _ devices

/-- Views of one run end with the same exit code and the same complaint. -/
theorem Views.ended_eq {words json : Except Failure Report} (hviews : Views words json) :
    (ended words).exitCode = (ended json).exitCode ∧
      (ended words).complaint = (ended json).complaint := by
  cases hviews with
  | failed _ => exact ⟨rfl, rfl⟩
  | done _ => exact ⟨rfl, rfl⟩

/-- Telling the states of devices in words and telling them as JSON are two views of one run.  From
the same machine, with the same settings and any checker, also one that takes note of the owners
that it is asked about, both leave the same machine: its files, its log and the owners asked about.
They fail alike, never because JSON cannot be written, or have the same exit code, and the words
are, for each element of the JSON array in order, the line with its values.  The same holds where
the settings are looked up from a file, the environment and the command line, and of whole runs,
which also print the same besides the result. -/
theorem status_views_agree :
    (∀ (machine : Machine) (settings : Settings) (checker : Checker Simulation)
        (devices : List String),
      AreViews (machine.attempt (tellStatusBy settings checker devices false))
        (machine.attempt (tellStatusBy settings checker devices true))) ∧
    (∀ (machine : Machine) (request : Request) (setting : Option Bytes) (devices : List String),
      AreViews
        (machine.attempt (perform { request with command := .status devices false } setting))
        (machine.attempt (perform { request with command := .status devices true } setting))) ∧
    (∀ (machine : Machine) (environment : Environment) (request : Request)
        (devices : List String),
      let words := machine.runRequest environment
        { request with command := .status devices false }
      let json := machine.runRequest environment
        { request with command := .status devices true }
      words.2 = json.2 ∧ words.1.errors = json.1.errors ∧
      words.1.outcome.exitCode = json.1.outcome.exitCode ∧
      ∃ wordsResult jsonResult, words.1.outcome = ended wordsResult ∧
        json.1.outcome = ended jsonResult ∧ Views wordsResult jsonResult) ∧
    (∀ (settings : Settings) (device : String) (path : Path),
      Device.lockPath? settings device = some path → (Utf8.decode? path).isSome) := by
  refine ⟨areViews_tellStatusBy, areViews_perform, ?_, ?_⟩
  · intro machine environment request devices
    have hperform := areViews_perform machine.fresh request environment.lockDirectory devices
    cases hwords : machine.fresh.attempt (perform
        { request with command := .status devices false } environment.lockDirectory) with
    | mk wordsResult after =>
        cases hjson : machine.fresh.attempt (perform
            { request with command := .status devices true } environment.lockDirectory) with
        | mk jsonResult other =>
            rw [hwords, hjson] at hperform
            obtain ⟨rfl, hviews⟩ := hperform
            obtain ⟨hcode, hcomplaint⟩ := hviews.ended_eq
            simp only [Machine.runRequest_eq hwords, Machine.runRequest_eq hjson]
            refine ⟨trivial, ?_, hcode, wordsResult, jsonResult, rfl, rfl, hviews⟩
            unfold Machine.errorsOf
            rw [hcomplaint]
  · intro settings device path hpath
    obtain ⟨text, rfl⟩ := Device.exists_encode_of_lockPath? hpath
    rw [Utf8.decode?_eq_some_iff.mpr rfl]
    rfl

end Program

end SerialLock
