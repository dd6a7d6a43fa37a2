import SerialLock.Proofs.Run.Result
import SerialLock.Proofs.Status.Trouble

/-!
# What the exit code tells

The exit code of a run follows from the arguments, the settings, the lock files and the processes
(`exitCode_iff`): 1 stands for a mistake of the user, 2 for a lock file that could not be read, or
that is invalid and could not be removed, and 3 for a device that is in use.  Arguments that make no
request end with 2 as well, so that this code alone has two causes.

Of several devices the first that cannot be inspected decides.
-/

set_option autoImplicit false

namespace SerialLock

/-! ## The causes -/

/-- The arguments make no request, and ask neither for help nor for the version. -/
def CommandLine.Refuses (arguments : List Bytes) : Prop :=
  ∃ usage, CommandLine.read arguments = .error usage ∧ usage ≠ .help ∧
    ∀ command, usage ≠ .version command

namespace CommandLine

variable {arguments : List Bytes} {usage : Usage} {request : Request}

/-- Arguments that make no request are refused exactly if their exit code is 2. -/
theorem refuses_iff (hread : read arguments = .error usage) :
    Refuses arguments ↔ usage.exitCode = 2 := by
  unfold Refuses
  rw [hread]
  cases usage <;> simp [Usage.exitCode]

/-- Arguments that make a request are not refused. -/
theorem not_refuses_of_ok (hread : read arguments = .ok request) : ¬Refuses arguments := by
  rintro ⟨usage, hrefused, -⟩
  rw [hread] at hrefused
  cases hrefused

end CommandLine

/-- Without a request the exit code is 0 or 2. -/
theorem Usage.exitCode_cases (usage : Usage) : usage.exitCode = 0 ∨ usage.exitCode = 2 := by
  cases usage <;> simp [exitCode]

namespace Request

/-- The request is a mistake: it is not supported, or the settings or the first device that cannot
be inspected are of no use. -/
inductive Mistaken (machine : Machine) (setting : Option Bytes) (request : Request) : Prop where
  | lock (device : String) (hcommand : request.command = .lock device)
  | unlock (device : String) (hcommand : request.command = .unlock device)
  | settings (devices : List String) (json : Bool) (failure : Failure)
      (hcommand : request.command = .status devices json)
      (hfound : Settings.found machine.files request.settingsFile setting request.lockDirectory =
        .error failure)
  | device (front back : List String) (nameless : String) (json : Bool) (settings : Settings)
      (hcommand : request.command = .status (front ++ nameless :: back) json)
      (hfound : Settings.found machine.files request.settingsFile setting request.lockDirectory =
        .ok settings)
      (hfront : ∀ device ∈ front, Device.Inspectable machine.files settings device)
      (hnameless : Path.fileName? nameless.toList = none)

/-- The request meets a lock file that makes trouble, before any device without a name. -/
inductive Hindered (machine : Machine) (setting : Option Bytes) (request : Request) : Prop where
  | owner (path : Path) (hcommand : request.command = .owner path)
      (htroubled : machine.files.Troubled path)
  | device (front back : List String) (hindered : String) (json : Bool) (settings : Settings)
      (lockPath : Path)
      (hcommand : request.command = .status (front ++ hindered :: back) json)
      (hfound : Settings.found machine.files request.settingsFile setting request.lockDirectory =
        .ok settings)
      (hfront : ∀ device ∈ front, Device.Inspectable machine.files settings device)
      (hpath : Device.lockPath? settings hindered = some lockPath)
      (htroubled : machine.files.Troubled lockPath)

/-- The request asks for the states of devices, all of which can be told and one of which is in use,
where owners are looked up. -/
inductive FindsUse (machine : Machine) (setting : Option Bytes) (request : Request) : Prop where
  | device (devices : List String) (used : String) (json : Bool) (settings : Settings)
      (hcommand : request.command = .status devices json)
      (hfound : Settings.found machine.files request.settingsFile setting request.lockDirectory =
        .ok settings)
      (hdevices : ∀ device ∈ devices, Device.Inspectable machine.files settings device)
      (hlooks : settings.checkLiveness = true) (hmem : used ∈ devices)
      (huse : Device.InUse machine settings used)

end Request

/-! ## Failures about settings -/

namespace Settings

variable {failure : Failure}

/-- A check of settings fails for the settings. -/
theorem isFailure_of_checked {settings : Settings} (herror : settings.checked = .error failure) :
    isFailure failure = true := by
  unfold checked at herror
  cases hflaw : settings.flaw? with
  | none => simp [hflaw] at herror
  | some flaw =>
      obtain rfl : Failure.settingsFlaw flaw = failure := by simpa [hflaw] using herror
      rfl

/-- Reading settings from a file fails for the settings. -/
theorem isFailure_of_ofContents {path : Path} {contents : Except Fault Bytes}
    (herror : ofContents path contents = .error failure) : isFailure failure = true := by
  unfold ofContents at herror
  cases contents with
  | error fault =>
      obtain rfl : Failure.settingsFile path fault = failure := by simpa using herror
      rfl
  | ok bytes =>
      cases hdecode : Utf8.decode? bytes with
      | none =>
          obtain rfl : Failure.settingsFile path .notText = failure := by
            simpa [hdecode] using herror
          rfl
      | some text =>
          simp only [hdecode] at herror
          unfold ofText at herror
          cases hread : ofText? text with
          | error reason =>
              obtain rfl : Failure.settingsText reason = failure := by simpa [hread] using herror
              rfl
          | ok settings =>
              simp only [hread] at herror
              exact isFailure_of_checked herror

/-- Finding the settings of a run fails for the settings. -/
theorem isFailure_of_found {tree : FileTree} {file : Option Path} {setting : Option Bytes}
    {flag : Option Path} (herror : found tree file setting flag = .error failure) :
    isFailure failure = true := by
  unfold found base at herror
  cases file with
  | none => exact isFailure_of_checked herror
  | some path =>
      cases hcontents : ofContents path (tree.read path) with
      | error failure' =>
          obtain rfl : failure' = failure := by simpa [hcontents] using herror
          exact isFailure_of_ofContents hcontents
      | ok settings =>
          simp only [hcontents] at herror
          exact isFailure_of_checked herror

/-- A failure of the settings is a mistake of the user. -/
theorem exitCode_of_isFailure (h : isFailure failure = true) :
    failure.exitCode = ExitCode.userMistake := by
  unfold isFailure at h
  cases failure <;> simp_all [Failure.exitCode]

end Settings

namespace Program

/-! ## The exit code of a request -/

/-- The exit code of what a request yields. -/
def codeIn (machine : Machine) (request : Request) (setting : Option Bytes) : ExitCode :=
  (ended (resultIn machine request setting)).exitCode

variable {machine : Machine} {request : Request} {setting : Option Bytes}

/-- Of several devices the first that cannot be inspected decides. -/
theorem codeIn_of_first {front back : List String} {device : String} {json : Bool}
    {settings : Settings} {failure : Failure}
    (hcommand : request.command = .status (front ++ device :: back) json)
    (hfound : Settings.found machine.files request.settingsFile setting request.lockDirectory =
      .ok settings)
    (hfront : ∀ device ∈ front, Device.Inspectable machine.files settings device)
    (herror : DeviceStatus.statusIn machine.files settings
      (Checker.ruleOf settings.checkLiveness machine.processes) device = .error failure) :
    codeIn machine request setting = failure.exitCode := by
  have hfirst : (front ++ device :: back).mapM (DeviceStatus.statusIn machine.files settings
      (Checker.ruleOf settings.checkLiveness machine.processes)) = .error failure := by
    refine mapM_eq_error_iff.mpr ⟨front, device, back, rfl, ?_, herror⟩
    intro device hmem
    exact DeviceStatus.exists_status_iff.mpr (hfront device hmem)
  unfold codeIn resultIn
  rw [hcommand, hfound]
  simp only
  rw [hfirst]
  rfl

/-- Where all devices have a status, the exit code is that of the statuses. -/
theorem codeIn_of_statuses {devices : List String} {json : Bool} {settings : Settings}
    {statuses : List DeviceStatus} (hcommand : request.command = .status devices json)
    (hfound : Settings.found machine.files request.settingsFile setting request.lockDirectory =
      .ok settings)
    (hstatuses : devices.mapM (DeviceStatus.statusIn machine.files settings
      (Checker.ruleOf settings.checkLiveness machine.processes)) = .ok statuses) :
    codeIn machine request setting = DeviceStatus.exitCode statuses := by
  obtain ⟨output, hreport⟩ := statusReport_eq json hstatuses
  unfold codeIn resultIn
  rw [hcommand, hfound]
  simp only
  rw [hstatuses, Except.bind, hreport]
  rfl

/-- A mistake has the exit code 1. -/
theorem codeIn_of_mistaken (h : request.Mistaken machine setting) :
    codeIn machine request setting = ExitCode.userMistake := by
  cases h with
  | lock device hcommand =>
      unfold codeIn resultIn
      rw [hcommand]
      rfl
  | unlock device hcommand =>
      unfold codeIn resultIn
      rw [hcommand]
      rfl
  | settings devices json failure hcommand hfound =>
      unfold codeIn resultIn
      rw [hcommand, hfound]
      exact Settings.exitCode_of_isFailure (Settings.isFailure_of_found hfound)
  | device front back nameless json settings hcommand hfound hfront hnameless =>
      rcases DeviceStatus.statusIn_cases machine.files settings
        (Checker.ruleOf settings.checkLiveness machine.processes) nameless with
        ⟨⟨lockPath, hpath, -⟩, -⟩ | ⟨-, herror⟩ | ⟨lockPath, _, hpath, -⟩
      · rw [DeviceStatus.lockPath?_eq_none_iff.mpr hnameless] at hpath
        cases hpath
      · exact codeIn_of_first hcommand hfound hfront herror
      · rw [DeviceStatus.lockPath?_eq_none_iff.mpr hnameless] at hpath
        cases hpath

/-- A lock file that makes trouble has the exit code 2. -/
theorem codeIn_of_hindered (h : request.Hindered machine setting) :
    codeIn machine request setting = ExitCode.lockFileFailure := by
  cases h with
  | owner path hcommand htroubled =>
      obtain ⟨failure, howner⟩ := LockFile.exists_failure_of_troubled htroubled
      unfold codeIn resultIn
      rw [hcommand]
      simp only
      rw [howner]
      exact (LockFile.exitCode_of_ownerIn howner).2
  | device front back hindered json settings lockPath hcommand hfound hfront hpath htroubled =>
      obtain ⟨failure, howner⟩ := LockFile.exists_failure_of_troubled htroubled
      have herror : DeviceStatus.statusIn machine.files settings
          (Checker.ruleOf settings.checkLiveness machine.processes) hindered = .error failure := by
        unfold DeviceStatus.statusIn
        rw [hpath]
        simp only
        rw [howner]
      rw [codeIn_of_first hcommand hfound hfront herror]
      exact (LockFile.exitCode_of_ownerIn howner).2

/-- A device in use has the exit code 3. -/
theorem codeIn_of_findsUse (h : request.FindsUse machine setting) :
    codeIn machine request setting = ExitCode.deviceLocked := by
  cases h with
  | device devices used json settings hcommand hfound hdevices hlooks hmem huse =>
      let rule := Checker.ruleOf settings.checkLiveness machine.processes
      have hok : ∀ device ∈ devices, DeviceStatus.statusIn machine.files settings rule device =
          .ok (resultOr (DeviceStatus.statusIn machine.files settings rule) device) := by
        intro device hmem
        obtain ⟨status, hstatus⟩ := DeviceStatus.exists_status_iff.mpr (hdevices device hmem)
        rw [hstatus, resultOr_eq hstatus]
      have hstatuses := mapM_eq_ok_map hok
      rw [codeIn_of_statuses hcommand hfound hstatuses]
      rcases DeviceStatus.exitCode_cases _ with ⟨-, hcode⟩ | ⟨hfree, -⟩
      · exact hcode
      · exact absurd ((DeviceStatus.exists_locked_iff hstatuses).mpr ⟨hlooks, used, hmem, huse⟩)
          hfree

/-- A request that is no mistake, is not hindered and finds no use ends well. -/
theorem codeIn_cases (machine : Machine) (request : Request) (setting : Option Bytes) :
    request.Mistaken machine setting ∨ request.Hindered machine setting ∨
      request.FindsUse machine setting ∨ codeIn machine request setting = ExitCode.success := by
  cases hcommand : request.command with
  | lock device => exact .inl (.lock device hcommand)
  | unlock device => exact .inl (.unlock device hcommand)
  | owner path =>
      cases howner : LockFile.ownerIn machine.files path with
      | error failure =>
          exact .inr (.inl (.owner path hcommand (LockFile.exitCode_of_ownerIn howner).1))
      | ok pid =>
          refine .inr (.inr (.inr ?_))
          unfold codeIn resultIn
          rw [hcommand]
          simp only
          rw [howner]
          rfl
  | status devices json =>
      cases hfound : Settings.found machine.files request.settingsFile setting
          request.lockDirectory with
      | error failure => exact .inl (.settings devices json failure hcommand hfound)
      | ok settings =>
          cases hall : devices.mapM (DeviceStatus.statusIn machine.files settings
              (Checker.ruleOf settings.checkLiveness machine.processes)) with
          -- the first device without a status decides: it has no name, or its lock file is trouble
          | error failure =>
              obtain ⟨front, device, back, rfl, hfront, herror⟩ := mapM_eq_error_iff.mp hall
              have hfront' : ∀ device ∈ front, Device.Inspectable machine.files settings device :=
                fun device hmem => DeviceStatus.exists_status_iff.mp (hfront device hmem)
              rcases DeviceStatus.statusIn_cases machine.files settings
                (Checker.ruleOf settings.checkLiveness machine.processes) device with
                ⟨-, status, hstatus⟩ | ⟨hnameless, -⟩ | ⟨lockPath, _, hpath, htroubled, -⟩
              · rw [herror] at hstatus
                cases hstatus
              · exact .inl (.device front back device json settings hcommand hfound hfront'
                  hnameless)
              · exact .inr (.inl (.device front back device json settings lockPath hcommand hfound
                  hfront' hpath htroubled))
          | ok statuses =>
              rcases DeviceStatus.exitCode_cases statuses with ⟨hlocked, -⟩ | ⟨-, hcode⟩
              · obtain ⟨hlooks, used, hmem, huse⟩ :=
                  (DeviceStatus.exists_locked_iff hall).mp hlocked
                have hdevices : ∀ device ∈ devices,
                    Device.Inspectable machine.files settings device := fun device hmem =>
                  DeviceStatus.exists_status_iff.mp (exists_of_mapM_eq_ok hall hmem)
                exact .inr (.inr (.inl (.device devices used json settings hcommand hfound hdevices
                  hlooks hmem huse)))
              · exact .inr (.inr (.inr ((codeIn_of_statuses hcommand hfound hall).trans hcode)))

end Program

namespace Machine

variable {environment : Environment} {arguments : List Bytes}

/-- The exit code of a run that makes no request. -/
theorem exitCode_of_usage (machine : Machine) {usage : Usage}
    (hread : CommandLine.read arguments = .error usage) :
    (machine.run environment arguments).1.outcome.exitCode = usage.exitCode := by
  unfold run
  rw [hread]
  rfl

/-- The exit code of a run that makes a request. -/
theorem exitCode_of_request (machine : Machine) {request : Request}
    (hread : CommandLine.read arguments = .ok request) :
    (machine.run environment arguments).1.outcome.exitCode =
      Program.codeIn machine request environment.lockDirectory := by
  unfold run
  rw [hread]
  simp only
  rw [runRequest_outcome, Program.attempt_perform]
  rfl

/-- The exit code of a run is 1 if the request is a mistake, 2 if a lock file makes trouble or if
the arguments make no request at all, 3 if a device is found in use, and 0 in every other case. -/
theorem exitCode_iff (machine : Machine) (environment : Environment) (arguments : List Bytes) :
    let code := (machine.run environment arguments).1.outcome.exitCode
    let makes (cause : Machine → Option Bytes → Request → Prop) := ∃ request,
      CommandLine.read arguments = .ok request ∧ cause machine environment.lockDirectory request
    (code = 1 ↔ makes Request.Mistaken) ∧
      (code = 2 ↔ CommandLine.Refuses arguments ∨ makes Request.Hindered) ∧
      (code = 3 ↔ makes Request.FindsUse) ∧
      (code = 0 ↔ ¬CommandLine.Refuses arguments ∧ ¬makes Request.Mistaken ∧
        ¬makes Request.Hindered ∧ ¬makes Request.FindsUse) := by
  intro code makes
  cases hread : CommandLine.read arguments with
  | error usage =>
      have hmakes (cause : Machine → Option Bytes → Request → Prop) : ¬makes cause := by
        rintro ⟨request, hrequest, -⟩
        rw [hread] at hrequest
        cases hrequest
      have hcode : code = usage.exitCode := exitCode_of_usage machine hread
      have hrefuses := CommandLine.refuses_iff hread
      rw [← hcode] at hrefuses
      simp only [hmakes, hrefuses, or_false, iff_false, not_false_eq_true, and_true]
      rcases usage.exitCode_cases with hwell | hrefused
      · simp [hcode, hwell]
      · simp [hcode, hrefused]
  | ok request =>
      have hmakes (cause : Machine → Option Bytes → Request → Prop) :
          makes cause ↔ cause machine environment.lockDirectory request := by
        unfold makes
        rw [hread]
        constructor
        · rintro ⟨request', hrequest, hcause⟩
          cases hrequest
          exact hcause
        · intro hcause
          exact ⟨request, rfl, hcause⟩
      have hrefuses := CommandLine.not_refuses_of_ok hread
      have hcode : code = Program.codeIn machine request environment.lockDirectory :=
        exitCode_of_request machine hread
      -- each cause has its code, and where there is none the code is 0
      have hcauses := Program.codeIn_cases machine request environment.lockDirectory
      have hmistaken := @Program.codeIn_of_mistaken machine request environment.lockDirectory
      have hhindered := @Program.codeIn_of_hindered machine request environment.lockDirectory
      have huse := @Program.codeIn_of_findsUse machine request environment.lockDirectory
      rw [← hcode] at hcauses hmistaken hhindered huse
      simp only [hmakes, hrefuses, false_or, not_false_eq_true, true_and]
      grind [ExitCode.userMistake, ExitCode.lockFileFailure, ExitCode.deviceLocked,
        ExitCode.success]

/-- A command without its operand is no request, and does not end with the code for mistakes. -/
example (machine : Machine) :
    (machine.run {} [Utf8.ofString "status"]).1.outcome.exitCode = 2 := by
  rfl

end Machine

end SerialLock
