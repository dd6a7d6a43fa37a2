import SerialLock.Proofs.Run.Program
import SerialLock.Proofs.Status.Together

/-!
# What runs do to files

The only thing that a run does to files is to discard invalid lock files, one after the other, each
by the path that the run looks it up by (`DiscardsAll`).  A sequence of runs does so run by run
(`RunsDiscard`), and leaves the first tree without some of its entries.
-/

set_option autoImplicit false

namespace SerialLock

namespace FileTree

/-- The tree without the entries at some places. -/
def without (tree : FileTree) (places : List Place) : FileTree :=
  { tree with entries := tree.entries.filter fun e => !places.contains e.1 }

/-- From the first tree to the last, invalid lock files were discarded one after the other by some
of the paths, each by the entry that its path named at that moment. -/
inductive DiscardsAll (paths : List Path) : FileTree → List Place → FileTree → Prop where
  | nil {tree : FileTree} : DiscardsAll paths tree [] tree
  | cons {tree after : FileTree} {path : Path} {place : Place} {places : List Place}
      (hpath : path ∈ paths) (hdiscards : tree.Discards path place)
      (hrest : DiscardsAll paths (tree.erase place) places after) :
      DiscardsAll paths tree (place :: places) after

variable {tree middle after : FileTree} {paths : List Path} {places more : List Place}

/-- A tree without the entries at no place is the tree itself. -/
@[simp] theorem without_nil (tree : FileTree) : tree.without [] = tree := by
  unfold without
  rw [List.filter_eq_self.mpr (by simp)]

/-- A tree without one entry and then without others is the tree without all of them. -/
theorem without_erase (tree : FileTree) (place : Place) (places : List Place) :
    (tree.erase place).without places = tree.without (place :: places) := by
  unfold without erase
  simp only [List.filter_filter]
  congr 1
  apply List.filter_congr
  intro e _
  by_cases hplace : e.1 = place <;> simp [hplace]

/-- A tree without some entries and then without others is the tree without all of them. -/
theorem without_append (tree : FileTree) (places more : List Place) :
    (tree.without places).without more = tree.without (places ++ more) := by
  unfold without
  simp only [List.filter_filter]
  congr 1
  apply List.filter_congr
  intro e _
  by_cases hplace : e.1 ∈ places <;> simp [hplace]

/-- Discarding one lock file is discarding. -/
theorem DiscardsAll.single {path : Path} {place : Place} (hpath : path ∈ paths)
    (hdiscards : tree.Discards path place) :
    tree.DiscardsAll paths [place] (tree.erase place) :=
  .cons hpath hdiscards .nil

/-- Discarding goes on where it stopped. -/
theorem DiscardsAll.append (hfirst : tree.DiscardsAll paths places middle)
    (hrest : middle.DiscardsAll paths more after) :
    tree.DiscardsAll paths (places ++ more) after := by
  induction hfirst with
  | nil => exact hrest
  | cons hpath hdiscards _ ih => exact .cons hpath hdiscards (ih hrest)

/-- What is discarded by some paths is discarded by more paths. -/
theorem DiscardsAll.mono {paths' : List Path} (hpaths : ∀ path ∈ paths, path ∈ paths')
    (hfirst : tree.DiscardsAll paths places after) : tree.DiscardsAll paths' places after := by
  induction hfirst with
  | nil => exact .nil
  | cons hpath hdiscards _ ih => exact .cons (hpaths _ hpath) hdiscards ih

/-- Discarding leaves the tree without the discarded entries, and changes nothing else. -/
theorem DiscardsAll.eq_without (hall : tree.DiscardsAll paths places after) :
    after = tree.without places := by
  induction hall with
  | nil => simp
  | cons _ _ _ ih => rw [ih, without_erase]

end FileTree

open FileTree (DiscardsAll)

/-! ## One request -/

namespace LockFile

/-- Reading a lock file discards that file or none. -/
theorem discardsAll_treeAfter (tree : FileTree) (path : Path) :
    ∃ places, tree.DiscardsAll [path] places (treeAfter tree path) := by
  rcases treeAfter_cases tree path with hsame | ⟨place, hdiscards, herased, _⟩
  · exact ⟨[], by rw [hsame]; exact .nil⟩
  · exact ⟨[place], by rw [herased]; exact .single (by simp) hdiscards⟩

end LockFile

namespace DeviceStatus

variable {checker : Checker Simulation} {rule : Int → Liveness}

/-- Inspecting a device discards the lock file of that device or none. -/
theorem discardsAll_treeAfter (tree : FileTree) (settings : Settings) (device : String) :
    ∃ places, tree.DiscardsAll (Device.lockPath? settings device).toList places
      (treeAfter tree settings device) := by
  unfold treeAfter
  cases Device.lockPath? settings device with
  | none => exact ⟨[], .nil⟩
  | some lockPath => exact LockFile.discardsAll_treeAfter tree lockPath

/-- Inspecting devices discards none but their lock files, also where it stops at a failure. -/
theorem discardsAll_inspectAll {machine : Machine}
    (hfollows : checker.Follows machine.processes rule) (settings : Settings)
    (devices : List String) :
    ∃ places, machine.files.DiscardsAll (devices.filterMap (Device.lockPath? settings)) places
      (machine.attempt (inspectAll settings checker devices)).2.files := by
  induction devices generalizing machine with
  | nil => exact ⟨[], .nil⟩
  | cons device rest ih =>
      obtain ⟨after, hinspect, hfiles, hprocesses⟩ :=
        attempt_inspect_of_follows hfollows settings device
      obtain ⟨places, hfirst⟩ := discardsAll_treeAfter machine.files settings device
      have hfirst' : machine.files.DiscardsAll
          ((device :: rest).filterMap (Device.lockPath? settings)) places after.files := by
        rw [hfiles]
        refine hfirst.mono fun path hpath => ?_
        rw [List.mem_filterMap]
        exact ⟨device, by simp, by simpa using hpath⟩
      unfold inspectAll
      rw [Machine.attempt_bind, hinspect]
      cases statusIn machine.files settings rule device with
      | error failure => exact ⟨places, hfirst'⟩
      | ok status =>
          obtain ⟨more, hmore⟩ := @ih after (hprocesses ▸ hfollows)
          have hmore' := hfirst'.append (hmore.mono fun path hpath =>
            by
              obtain ⟨device', hmem, hsome⟩ := List.mem_filterMap.mp hpath
              exact List.mem_filterMap.mpr ⟨device', List.mem_cons_of_mem _ hmem, hsome⟩)
          simp only
          rw [Machine.attempt_bind]
          cases hrun : after.attempt (inspectAll settings checker rest) with
          | mk result last =>
              rw [hrun] at hmore'
              cases result with
              | error failure => exact ⟨places ++ more, hmore'⟩
              | ok statuses => exact ⟨places ++ more, hmore'⟩

end DeviceStatus

/-- The lock files that a request names: the operand of `owner`, or the lock files of the devices of
`status` by the settings that the run finds. -/
def Request.lockPaths (request : Request) (setting : Option Bytes) (tree : FileTree) : List Path :=
  match request.command with
  | .owner path => [path]
  | .status devices _ =>
    match Settings.found tree request.settingsFile setting request.lockDirectory with
    | .ok settings => devices.filterMap (Device.lockPath? settings)
    | .error _ => []
  | .lock _ => []
  | .unlock _ => []

namespace Program

/-- A request discards none but the lock files that it names. -/
theorem discardsAll_perform (machine : Machine) (request : Request) (setting : Option Bytes) :
    ∃ places, machine.files.DiscardsAll (request.lockPaths setting machine.files) places
      (machine.attempt (perform request setting)).2.files := by
  unfold perform Request.lockPaths
  cases request.command with
  | owner path =>
      obtain ⟨log, hrun⟩ := attempt_tellOwner machine path
      simp only [hrun]
      exact LockFile.discardsAll_treeAfter machine.files path
  | lock device => exact ⟨[], .nil⟩
  | unlock device => exact ⟨[], .nil⟩
  | status devices json =>
      obtain ⟨log, hresolve⟩ := Settings.attempt_resolve machine request.settingsFile setting
        request.lockDirectory
      simp only
      rw [Machine.attempt_bind, hresolve]
      cases Settings.found machine.files request.settingsFile setting request.lockDirectory with
      | error failure => exact ⟨[], .nil⟩
      | ok settings =>
          obtain ⟨checker, start, hfiles, _, hfollows, _, hafter⟩ :=
            attempt_tellStatus { machine with log } settings devices json
          simp only [hafter]
          have hfiles' : start.files = machine.files := hfiles
          rw [← hfiles']
          exact DeviceStatus.discardsAll_inspectAll hfollows settings devices

end Program

/-! ## Failures that change nothing -/

/-- A lock file that makes trouble is no failure of the settings. -/
theorem LockFile.not_isFailure_of_ownerIn {tree : FileTree} {path : Path} {failure : Failure}
    (herror : ownerIn tree path = .error failure) : Settings.isFailure failure = false := by
  unfold ownerIn at herror
  cases hfinding : findingIn tree path with
  | owner pid => simp [hfinding] at herror
  | unreadable fault =>
      simp only [hfinding, Except.error.injEq] at herror
      subst herror
      rfl
  | invalid =>
      simp only [hfinding] at herror
      rcases discardIn_cases tree path with
        ⟨_, _, hdiscard⟩ | ⟨_, _, _, hdiscard⟩ | ⟨fault, _, _, hdiscard⟩
      · rw [hdiscard] at herror
        cases herror
      · rw [hdiscard] at herror
        cases herror
      · rw [hdiscard] at herror
        cases herror
        rfl

/-- A device that has no status is no failure of the settings. -/
theorem DeviceStatus.not_isFailure_of_statusIn {tree : FileTree} {settings : Settings}
    {rule : Int → Liveness} {device : String} {failure : Failure}
    (herror : statusIn tree settings rule device = .error failure) :
    Settings.isFailure failure = false := by
  unfold statusIn at herror
  cases hpath : Device.lockPath? settings device with
  | none =>
      simp only [hpath, Except.error.injEq] at herror
      subst herror
      rfl
  | some lockPath =>
      simp only [hpath] at herror
      cases howner : LockFile.ownerIn tree lockPath with
      | ok pid => simp [howner] at herror
      | error failure' =>
          simp only [howner, Except.error.injEq] at herror
          subst herror
          exact LockFile.not_isFailure_of_ownerIn howner

namespace Program

/-- A report that cannot be written is no failure of the settings. -/
theorem not_isFailure_of_statusReport {json : Bool} {statuses : List DeviceStatus}
    {failure : Failure} (herror : statusReport json statuses = .error failure) :
    Settings.isFailure failure = false := by
  unfold statusReport at herror
  cases json with
  | false => simp at herror
  | true =>
      cases hreport : DeviceStatus.jsonReport? statuses with
      | some output => simp [hreport] at herror
      | none =>
          simp only [hreport, if_true, Except.error.injEq] at herror
          subst herror
          rfl

/-- With settings at hand, telling the states of devices does not fail for the settings. -/
theorem not_isFailure_of_tellStatus {machine : Machine} {settings : Settings}
    {devices : List String} {json : Bool} {failure : Failure}
    (herror : (machine.attempt (tellStatus settings devices json)).1 = .error failure) :
    Settings.isFailure failure = false := by
  obtain ⟨checker, start, _, _, hfollows, hresult, _⟩ :=
    attempt_tellStatus machine settings devices json
  rw [hresult, DeviceStatus.attempt_inspectAll hfollows] at herror
  cases hall : devices.mapM (DeviceStatus.statusIn start.files settings
      (Checker.ruleOf settings.checkLiveness machine.processes)) with
  | ok statuses =>
      rw [hall] at herror
      exact not_isFailure_of_statusReport herror
  | error failure' =>
      rw [hall] at herror
      cases herror
      obtain ⟨_, device, _, _, _, hdevice⟩ := mapM_eq_error_iff.mp hall
      exact DeviceStatus.not_isFailure_of_statusIn hdevice

/-- A request that fails for the settings leaves the files as they are. -/
theorem files_of_settingsFailure {machine : Machine} {request : Request} {setting : Option Bytes}
    {failure : Failure} (herror : (machine.attempt (perform request setting)).1 = .error failure)
    (hsettings : Settings.isFailure failure = true) :
    (machine.attempt (perform request setting)).2.files = machine.files := by
  unfold perform at herror ⊢
  cases hcommand : request.command with
  | lock device => rfl
  | unlock device => rfl
  | owner path =>
      simp only [hcommand] at herror ⊢
      obtain ⟨log, hrun⟩ := attempt_tellOwner machine path
      rw [hrun] at herror ⊢
      cases howner : LockFile.ownerIn machine.files path with
      | ok pid => rw [howner] at herror; cases herror
      | error failure' => exact LockFile.treeAfter_of_error howner
  | status devices json =>
      simp only [hcommand] at herror ⊢
      obtain ⟨log, hresolve⟩ := Settings.attempt_resolve machine request.settingsFile setting
        request.lockDirectory
      rw [Machine.attempt_bind, hresolve] at herror ⊢
      cases hfound : Settings.found machine.files request.settingsFile setting
          request.lockDirectory with
      | error failure' => rfl
      | ok settings =>
          rw [hfound] at herror
          rw [not_isFailure_of_tellStatus herror] at hsettings
          cases hsettings

end Program

/-! ## Runs -/

/-- A call of the program at a moment when these processes exist. -/
structure Invocation where
  processes : ProcessTable
  environment : Environment
  arguments : List Bytes

/-- The lock files that a call names, where the tree is the one it starts with. -/
def Invocation.lockPaths (invocation : Invocation) (tree : FileTree) : List Path :=
  match CommandLine.read invocation.arguments with
  | .ok request => request.lockPaths invocation.environment.lockDirectory tree
  | .error _ => []

/-- From the first tree to the last, each of the calls discarded some of the lock files that it
names. -/
inductive RunsDiscard : FileTree → List Invocation → List Place → FileTree → Prop where
  | nil {tree : FileTree} : RunsDiscard tree [] [] tree
  | cons {tree middle after : FileTree} {invocation : Invocation} {rest : List Invocation}
      {places more : List Place}
      (hfirst : tree.DiscardsAll (invocation.lockPaths tree) places middle)
      (hrest : RunsDiscard middle rest more after) :
      RunsDiscard tree (invocation :: rest) (places ++ more) after

/-- Runs leave the first tree without the discarded entries, and change nothing else. -/
theorem RunsDiscard.eq_without {tree after : FileTree} {invocations : List Invocation}
    {places : List Place} (hruns : RunsDiscard tree invocations places after) :
    after = tree.without places := by
  induction hruns with
  | nil => simp
  | cons hfirst _ ih => rw [ih, hfirst.eq_without, FileTree.without_append]

namespace Machine

/-- The machine after a call. -/
def called (machine : Machine) (invocation : Invocation) : Machine :=
  ({ machine with processes := invocation.processes }.run invocation.environment
    invocation.arguments).2

/-- The machine after several calls, one after the other. -/
def calledAll (machine : Machine) (invocations : List Invocation) : Machine :=
  invocations.foldl called machine

/-- A call discards none but the lock files that it names. -/
theorem discardsAll_called (machine : Machine) (invocation : Invocation) :
    ∃ places, machine.files.DiscardsAll (invocation.lockPaths machine.files) places
      (machine.called invocation).files := by
  unfold called run Invocation.lockPaths
  cases CommandLine.read invocation.arguments with
  | error usage => exact ⟨[], .nil⟩
  | ok request =>
      simp only [runRequest_files]
      exact Program.discardsAll_perform (fresh { machine with processes := invocation.processes })
        request invocation.environment.lockDirectory

/-- Calls discard none but the lock files that they name. -/
theorem runsDiscard_calledAll (machine : Machine) (invocations : List Invocation) :
    ∃ places, RunsDiscard machine.files invocations places
      (machine.calledAll invocations).files := by
  induction invocations generalizing machine with
  | nil => exact ⟨[], .nil⟩
  | cons invocation rest ih =>
      obtain ⟨places, hfirst⟩ := discardsAll_called machine invocation
      obtain ⟨more, hrest⟩ := ih (machine.called invocation)
      exact ⟨places ++ more, .cons hfirst hrest⟩

/-- A call whose arguments make no request leaves the files as they are. -/
theorem files_run_of_refused {machine : Machine} {environment : Environment}
    {arguments : List Bytes} {usage : Usage}
    (houtcome : (machine.run environment arguments).1.outcome = .refused usage) :
    (machine.run environment arguments).2.files = machine.files := by
  unfold run at houtcome ⊢
  cases hread : CommandLine.read arguments with
  | error usage' => rfl
  | ok request =>
      rw [hread] at houtcome
      simp only [runRequest_outcome] at houtcome
      unfold Program.ended at houtcome
      split at houtcome <;> cases houtcome

/-- A call that fails for the settings leaves the files as they are. -/
theorem files_run_of_settingsFailure {machine : Machine} {environment : Environment}
    {arguments : List Bytes} {failure : Failure}
    (houtcome : (machine.run environment arguments).1.outcome = .failed failure)
    (hsettings : Settings.isFailure failure = true) :
    (machine.run environment arguments).2.files = machine.files := by
  unfold run at houtcome ⊢
  cases hread : CommandLine.read arguments with
  | error usage => rfl
  | ok request =>
      rw [hread] at houtcome
      simp only [runRequest_outcome, runRequest_files] at houtcome ⊢
      cases hresult : (machine.fresh.attempt
          (Program.perform request environment.lockDirectory)).1 with
      | ok report => rw [hresult] at houtcome; cases houtcome
      | error failure' =>
          rw [hresult] at houtcome
          cases houtcome
          exact Program.files_of_settingsFailure hresult hsettings

/-- A call that asks for a lock, or to give one back, leaves the files as they are. -/
theorem files_run_of_unsupported {machine : Machine} {environment : Environment}
    {arguments : List Bytes} {request : Request} {device : String}
    (hread : CommandLine.read arguments = .ok request)
    (hcommand : request.command = .lock device ∨ request.command = .unlock device) :
    (machine.run environment arguments).2.files = machine.files := by
  unfold run
  rw [hread]
  simp only [runRequest_files]
  unfold Program.perform
  rcases hcommand with hcommand | hcommand
  · rw [hcommand]
    rfl
  · rw [hcommand]
    rfl

/-- Calls of the program only discard invalid lock files.  In whatever order they come, the last
tree is the first without some entries, each of which was named by a path that its call looks up and
led to an invalid file at that moment; where it was a link, its target stayed.  Calls that make no
request, that fail for the settings or that ask for what is not supported change no file, and
neither does a single lock file or device that could not be read. -/
theorem calls_only_discard (machine : Machine) :
    (∀ invocations : List Invocation, ∃ places,
      RunsDiscard machine.files invocations places (machine.calledAll invocations).files ∧
        (machine.calledAll invocations).files = machine.files.without places) ∧
    (∀ (tree : FileTree) (path target : Path) (place goal : Place) (file : Entry),
      tree.Discards path place → tree.find false path = .ok (place, .link target) →
      tree.find true path = .ok (goal, file) →
      FileTree.entry? (tree.erase place) goal = some file) ∧
    (∀ (environment : Environment) (arguments : List Bytes),
      ((∃ usage, (machine.run environment arguments).1.outcome = .refused usage) ∨
        (∃ failure, (machine.run environment arguments).1.outcome = .failed failure ∧
          Settings.isFailure failure = true) ∨
        (∃ request device, CommandLine.read arguments = .ok request ∧
          (request.command = .lock device ∨ request.command = .unlock device))) →
      (machine.run environment arguments).2.files = machine.files) ∧
    (∀ (path : Path) (failure : Failure),
      (machine.attempt (LockFile.owner path)).1 = .error failure →
      (machine.attempt (LockFile.owner path)).2.files = machine.files) ∧
    (∀ (settings : Settings) (checker : Checker Simulation) (device : String) (failure : Failure),
      (machine.attempt (DeviceStatus.inspect settings checker device)).1 = .error failure →
      (machine.attempt (DeviceStatus.inspect settings checker device)).2.files =
        machine.files) := by
  refine ⟨?_, ?_, ?_, ?_, ?_⟩
  · intro invocations
    obtain ⟨places, hruns⟩ := runsDiscard_calledAll machine invocations
    exact ⟨places, hruns, hruns.eq_without⟩
  · intro tree path target place goal file hdiscards hliteral hfollowed
    obtain ⟨entry, goal', file', hnames, _, _⟩ := hdiscards.exists_names
    -- the entry taken away is the link, and what a link leads to is no link
    obtain ⟨rfl, rfl⟩ : goal' = goal ∧ file' = file := by
      simpa [hfollowed, eq_comm] using hnames.followed
    have hplace := (FileTree.find_eq_ok_iff.mp hliteral).2
    have hgoal := (FileTree.find_eq_ok_iff.mp hfollowed).2
    rw [FileTree.entry_erase, if_neg]
    · exact hgoal
    · rintro ⟨rfl, -⟩
      exact hnames.file_ne_link target (Option.some.inj (hgoal.symm.trans hplace))
  · rintro environment arguments (⟨usage, hrefused⟩ | ⟨failure, hfailed, hsettings⟩ |
      ⟨request, device, hread, hcommand⟩)
    · exact files_run_of_refused hrefused
    · exact files_run_of_settingsFailure hfailed hsettings
    · exact files_run_of_unsupported hread hcommand
  · intro path failure herror
    rw [LockFile.attempt_owner] at herror ⊢
    exact LockFile.treeAfter_of_error herror
  · intro settings checker device failure herror
    exact DeviceStatus.files_of_attempt_inspect_error (Prod.ext herror rfl)

/-- A link to an invalid lock file is discarded, and the file that it leads to stays. -/
theorem calls_only_discard_link :
    let tree := DeviceStatus.linkedLocks.files
    let link := [Utf8.ofString "l", Utf8.ofString "LCK..b"]
    tree.Discards (Utf8.ofString "/l/LCK..b") link ∧
      FileTree.entry? (tree.erase link) [Utf8.ofString "l", Utf8.ofString "LCK..a"] =
        some (.file 0) := by
  have hdiscards : DeviceStatus.linkedLocks.files.Discards (Utf8.ofString "/l/LCK..b")
      [Utf8.ofString "l", Utf8.ofString "LCK..b"] :=
    ⟨⟨_, .file 0, Utf8.ofString "nobody", rfl, rfl, rfl, by decide⟩, ⟨_, rfl⟩, rfl⟩
  exact ⟨hdiscards, (calls_only_discard DeviceStatus.linkedLocks).2.1 _ _ _ _ _ _ hdiscards rfl rfl⟩

end Machine

end SerialLock
