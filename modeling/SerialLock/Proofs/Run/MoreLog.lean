import Mathlib.Data.List.Basic
import Mathlib.Logic.Relation
import SerialLock.Proofs.Run.Unread

/-!
# Asking for more log

Requests for more log in front of the command's name raise the count that a run finds
(`read_asksMore`), and the count only chooses among filters each of which shows what the one before
it shows (`Log.Filter.shows_ofVerbosity_mono`).  The run itself does not look at the count, so it
does the same and ends alike, and prints its former records and possibly others between them
(`log_only_adds_records`).
-/

set_option autoImplicit false

namespace SerialLock

/-! ## Filters -/

namespace Log.Filter

/-- A single rule for all topics shows the levels up to its rank. -/
theorem shows_ofRules_singleton (rank : Nat) (record : Record) :
    (ofRules [⟨none, rank⟩]).shows record = decide (record.level.rank ≤ rank) := by
  simp [ofRules, withRule, shows, ranks, appliesTo]

/-- With a count of requests the levels are shown up to the one that it stands for. -/
theorem shows_ofVerbosity_iff {verbosity : Nat} {record : Record} :
    (ofVerbosity verbosity).shows record = true ↔ record.level.rank ≤ min (verbosity + 2) 4 := by
  unfold ofVerbosity
  rw [shows_ofRules_singleton, decide_eq_true_iff]
  rcases verbosity with _ | _ | verbosity
  · rfl
  · rfl
  · have hmin : min (verbosity + 1 + 1 + 2) 4 = 4 := by omega
    rw [hmin]
    rfl

/-- With a greater count no record is shown less. -/
theorem shows_ofVerbosity_mono {verbosity more : Nat} (hmore : verbosity ≤ more) {record : Record}
    (hshows : (ofVerbosity verbosity).shows record = true) :
    (ofVerbosity more).shows record = true := by
  rw [shows_ofVerbosity_iff] at hshows ⊢
  omega

end Log.Filter

/-- The text that the environment holds about log records, if it holds one. -/
def Environment.logText? (environment : Environment) : Option (List Char) :=
  environment.logRules.bind Utf8.decode?

namespace Log.Filter

variable {patterns : Patterns} {environment : Environment}

/-- A text in the environment chooses the filter alone. -/
theorem chosen_of_text {text : List Char} (htext : environment.logText? = some text)
    (verbosity : Nat) :
    chosen patterns environment.logRules verbosity = ofText patterns text := by
  unfold Environment.logText? at htext
  unfold chosen
  rw [htext]

/-- Without a text there, the count of requests does. -/
theorem chosen_of_no_text (hnone : environment.logText? = none) (verbosity : Nat) :
    chosen patterns environment.logRules verbosity = (ofVerbosity verbosity, []) := by
  unfold Environment.logText? at hnone
  unfold chosen
  rw [hnone]

end Log.Filter

/-! ## Arguments -/

namespace CommandLine

/-- The second arguments ask for more log any number of times more in front of the command's name,
each time where no option waits for its value. -/
def AsksMore (arguments arguments' : List Bytes) : Prop :=
  ∃ front front', ∃ name : CommandName, ∃ behind,
    InFront front ∧ Relation.ReflTransGen (Adds none .verbose) front front' ∧
      arguments = front ++ Utf8.ofString name.word :: behind ∧
      arguments' = front' ++ Utf8.ofString name.word :: behind

variable {front front' behind : List Bytes} {name : CommandName} {arguments arguments' : List Bytes}
  {request : Request}

/-- One request more in front of the command's name is counted, or makes no difference. -/
theorem read_adds_verbose (hfront : InFront front) (hadds : Adds none .verbose front front')
    (hread : read (front ++ Utf8.ofString name.word :: behind) = .ok request) :
    ∃ verbosity ≥ request.verbosity, read (front' ++ Utf8.ofString name.word :: behind) =
      .ok { request with verbosity } := by
  have hmakes := (read_parted_iff hfront).mp hread
  have hlog := verbosity_of_makes hmakes
  have hmore := (read_adds_front_iff hfront hadds).mpr
    (makes_verbose_front_iff.mpr ⟨request, hmakes, rfl⟩)
  refine ⟨_, ?_, hmore⟩
  rw [hlog]
  simp only [withLog]
  split
  · omega
  · omega

/-- Any number of requests more in front of the command's name make the same request, with a count
that is not smaller. -/
theorem read_asksMore (hasks : AsksMore arguments arguments')
    (hread : read arguments = .ok request) :
    ∃ verbosity ≥ request.verbosity, read arguments' = .ok { request with verbosity } := by
  obtain ⟨front, front', name, behind, hfront, hadds, rfl, rfl⟩ := hasks
  suffices InFront front' ∧ ∃ verbosity ≥ request.verbosity,
      read (front' ++ Utf8.ofString name.word :: behind) = .ok { request with verbosity } from
    this.2
  induction hadds with
  | refl => exact ⟨hfront, request.verbosity, Nat.le_refl _, hread⟩
  | tail _ hadds ih =>
      obtain ⟨hfront', verbosity, hverbosity, hread'⟩ := ih
      obtain ⟨verbosity', hverbosity', hread''⟩ := read_adds_verbose hfront' hadds hread'
      exact ⟨hfront'.adds hadds, verbosity', Nat.le_trans hverbosity hverbosity', hread''⟩

end CommandLine

/-! ## Runs -/

namespace Machine

/-- The records that performing a request tells. -/
def tells (machine : Machine) (setting : Option Bytes) (request : Request) : List Log.Record :=
  (machine.fresh.attempt (Program.perform request setting)).2.log

/-- The records that a run prints. -/
def prints (machine : Machine) (environment : Environment) (arguments : List Bytes) :
    List Log.Record :=
  match CommandLine.read arguments with
  | .error _ => []
  | .ok request => (machine.tells environment.lockDirectory request).filter
      (Log.Filter.chosen machine.patterns environment.logRules request.verbosity).1.shows

/-- Two runs end with the same outcome, and leave the same machine. -/
def EndAlike (run run' : Transcript × Machine) : Prop :=
  run'.1.outcome = run.1.outcome ∧ run'.2 = run.2

variable {machine : Machine} {environment environment' : Environment} {request request' : Request}
  {arguments arguments' : List Bytes} {verbosity : Nat}

/-- A run for arguments that make a request is a run for the request. -/
theorem run_of_read (hread : CommandLine.read arguments = .ok request) :
    machine.run environment arguments = machine.runRequest environment request := by
  unfold run
  rw [hread]

/-- Requests that are performed in the same steps end alike. -/
theorem endAlike_of_perform_eq (hread : CommandLine.read arguments = .ok request)
    (hread' : CommandLine.read arguments' = .ok request')
    (hperform : (Program.perform request' environment'.lockDirectory : Attempt Simulation Report) =
      Program.perform request environment.lockDirectory) :
    EndAlike (machine.run environment arguments) (machine.run environment' arguments') := by
  rw [run_of_read hread, run_of_read hread']
  cases hrun : machine.fresh.attempt (Program.perform request environment.lockDirectory) with
  | mk result after =>
      have hrun' : machine.fresh.attempt (Program.perform request' environment'.lockDirectory) =
          (result, after) := by rw [hperform, hrun]
      rw [runRequest_eq hrun, runRequest_eq hrun']
      exact ⟨rfl, rfl⟩

/-- What a run prints besides its result is the notes on the rules for log records, the records that
it prints, and its complaint. -/
theorem errors_run (machine : Machine) (environment : Environment)
    (hread : CommandLine.read arguments = .ok request) :
    (machine.run environment arguments).1.errors =
      String.join (Log.Filter.chosen machine.patterns environment.logRules request.verbosity).2 ++
        String.join ((machine.prints environment arguments).map Log.Record.line) ++
        (machine.run environment arguments).1.outcome.complaint := by
  rw [run_of_read hread]
  unfold prints tells
  simp only [hread]
  cases hrun : machine.fresh.attempt (Program.perform request environment.lockDirectory) with
  | mk result after =>
      rw [runRequest_eq hrun]
      rfl

/-- What a request tells does not depend on its count. -/
theorem tells_verbosity (setting : Option Bytes) :
    machine.tells setting { request with verbosity } = machine.tells setting request :=
  rfl

/-- Without rules for log records in the environment, a greater count prints the same records and
possibly others between them. -/
theorem prints_sublist (hnone : environment.logText? = none)
    (hread : CommandLine.read arguments = .ok request)
    (hread' : CommandLine.read arguments' = .ok { request with verbosity })
    (hverbosity : request.verbosity ≤ verbosity) :
    (machine.prints environment arguments).Sublist (machine.prints environment arguments') := by
  unfold prints
  simp only [hread, hread', tells_verbosity, Log.Filter.chosen_of_no_text hnone]
  apply List.monotone_filter_right
  intro record hshows
  exact Log.Filter.shows_ofVerbosity_mono hverbosity hshows

/-- With rules in the environment the count makes no difference to what is printed. -/
theorem prints_of_text {text : List Char} (htext : environment.logText? = some text)
    (hread : CommandLine.read arguments = .ok request)
    (hread' : CommandLine.read arguments' = .ok { request with verbosity }) :
    machine.prints environment arguments' = machine.prints environment arguments ∧
      (machine.run environment arguments').1.errors =
        (machine.run environment arguments).1.errors := by
  have hprints : machine.prints environment arguments' =
      machine.prints environment arguments := by
    unfold prints
    simp only [hread, hread', tells_verbosity, Log.Filter.chosen_of_text htext]
  have halike : EndAlike (machine.run environment arguments)
      (machine.run environment arguments') := endAlike_of_perform_eq hread hread' rfl
  refine ⟨hprints, ?_⟩
  rw [errors_run machine environment hread, errors_run machine environment hread', hprints,
    halike.1, Log.Filter.chosen_of_text htext, Log.Filter.chosen_of_text htext]

/-- The rules for log records change nothing but what is printed besides the result. -/
theorem endAlike_logRules (machine : Machine) (environment : Environment)
    (logRules : Option Bytes) (arguments : List Bytes) :
    EndAlike (machine.run environment arguments)
      (machine.run { environment with logRules } arguments) := by
  cases hread : CommandLine.read arguments with
  | ok request => exact endAlike_of_perform_eq hread hread rfl
  | error usage =>
      unfold run
      rw [hread]
      exact ⟨rfl, rfl⟩

/-- Asking for more log in front of the command's name, any number of times, changes nothing but
what is printed besides the result: the run ends alike.  Without rules for log records in the
environment the records that were printed are still printed, in their order and possibly with others
between them; with such rules the same is printed.  The rules change no more than that either.

The commands without settings end alike whatever options and environment say about settings, and on
any system they are performed in the same steps.  What the files hold makes no difference to them,
but for what their operand leads to: a file that it does not lead to, such as the settings file, may
hold anything. -/
theorem log_only_adds_records (machine : Machine) :
    (∀ (environment : Environment) (arguments arguments' : List Bytes) (request : Request),
      CommandLine.AsksMore arguments arguments' → CommandLine.read arguments = .ok request →
      EndAlike (machine.run environment arguments) (machine.run environment arguments') ∧
        (environment.logText? = none →
          (machine.prints environment arguments).Sublist (machine.prints environment arguments')) ∧
        (environment.logText? ≠ none →
          machine.prints environment arguments' = machine.prints environment arguments ∧
            (machine.run environment arguments').1.errors =
              (machine.run environment arguments).1.errors)) ∧
    (∀ (environment : Environment) (logRules : Option Bytes) (arguments : List Bytes),
      EndAlike (machine.run environment arguments)
        (machine.run { environment with logRules } arguments)) ∧
    (∀ (environment : Environment) (arguments : List Bytes) (request : Request),
      CommandLine.read arguments = .ok request →
      (machine.run environment arguments).1.errors =
        String.join (Log.Filter.chosen machine.patterns environment.logRules request.verbosity).2 ++
          String.join ((machine.prints environment arguments).map Log.Record.line) ++
          (machine.run environment arguments).1.outcome.complaint) ∧
    (∀ (environment : Environment) (lockDirectory : Option Bytes)
        (arguments arguments' : List Bytes) (request request' : Request),
      CommandLine.read arguments = .ok request → CommandLine.read arguments' = .ok request' →
      request.command.usesSettings = false →
      (request'.command = request.command ∨
        ∃ setting value, CommandLine.AddsShared (.given setting value) arguments arguments') →
      EndAlike (machine.run environment arguments)
        (machine.run { environment with lockDirectory } arguments')) ∧
    (∀ (environment : Environment) (arguments : List Bytes) (request : Request) (files : FileTree),
      CommandLine.read arguments = .ok request → request.command.usesSettings = false →
      (∀ path, request.command = .owner path → FileTree.Alike path machine.files files) →
      (run { machine with files } environment arguments).1.outcome =
        (machine.run environment arguments).1.outcome) ∧
    (∀ (path : Path) (number : Nat) (bytes : Bytes),
      (∀ place, machine.files.find true path ≠ .ok (place, .file number)) →
      FileTree.Alike path machine.files (machine.files.rewrite number bytes)) ∧
    (∀ (m : Type → Type) [Monad m] [Host m] (request request' : Request)
        (setting setting' : Option Bytes),
      request.command.usesSettings = false → request'.command = request.command →
      (Program.perform request' setting' : Attempt m Report) =
        Program.perform request setting) := by
  refine ⟨?_, endAlike_logRules machine, ?_, ?_, ?_, ?_, ?_⟩
  -- the two requests differ in their verbosity alone, which performing them does not read
  · intro environment arguments arguments' request hasks hread
    obtain ⟨verbosity, hverbosity, hread'⟩ := CommandLine.read_asksMore hasks hread
    refine ⟨endAlike_of_perform_eq hread hread' rfl, ?_, ?_⟩
    · intro hnone
      exact prints_sublist hnone hread hread' hverbosity
    · intro hsome
      obtain ⟨text, htext⟩ := Option.ne_none_iff_exists'.mp hsome
      exact prints_of_text htext hread hread'
  · intro environment arguments request hread
    exact errors_run machine environment hread
  · intro environment lockDirectory arguments arguments' request request' hread hread' hunread hmore
    have hsame : request'.command = request.command := by
      rcases hmore with hsame | ⟨setting, value, hadds⟩
      · exact hsame
      · exact hadds.command_eq hread hread'
    exact endAlike_of_perform_eq hread hread' (Program.perform_unread hunread hsame _ _)
  · intro environment arguments request files hread hunread halike
    rw [run_of_read hread, run_of_read hread]
    exact outcome_of_alike hunread rfl halike environment environment
  · intro path number bytes hother
    exact FileTree.alike_rewrite hother
  · intro m _ _ request request' setting setting' hunread hsame
    exact Program.perform_unread hunread hsame setting setting'

/-- The owner of an invalid lock file is asked for, with a settings file that is not there.  Asked
for more log in two places, the run tells that it removes the file, which it did before. -/
theorem log_only_adds_records_twice :
    let machine := DeviceStatus.linkedLocks
    let verbose := Utf8.ofString "-v"
    let options := [Utf8.ofString "--config", Utf8.ofString "c"]
    let operand := Utf8.ofString "/l/LCK..b"
    let arguments := options ++ Utf8.ofString "owner" :: [operand]
    let arguments' := (verbose :: options ++ [verbose]) ++ Utf8.ofString "owner" :: [operand]
    let request : Request := { settingsFile := some (Utf8.ofString "c"), command := .owner operand }
    let notice : Log.Record :=
      ⟨.info, .reading, "lock file '/l/LCK..b' is invalid, removing it"⟩
    CommandLine.AsksMore arguments arguments' ∧ CommandLine.read arguments = .ok request ∧
      EndAlike (machine.run {} arguments) (machine.run {} arguments') ∧
      machine.prints {} arguments = [] ∧ machine.prints {} arguments' = [notice] ∧
      (machine.prints {} arguments).Sublist (machine.prints {} arguments') ∧
      EndAlike (machine.run {} arguments) (machine.run { lockDirectory := some operand }
        [Utf8.ofString "owner", operand, Utf8.ofString "--lock-dir=x"]) := by
  intro machine verbose options operand arguments arguments' request notice
  have hread : CommandLine.read arguments = .ok request := rfl
  have hread' : CommandLine.read [Utf8.ofString "owner", operand, Utf8.ofString "--lock-dir=x"] =
      .ok { lockDirectory := some (Utf8.ofString "x"), command := .owner operand } := rfl
  have hasks : CommandLine.AsksMore arguments arguments' := by
    refine ⟨options, verbose :: options ++ [verbose], .owner, [operand], ⟨rfl, rfl⟩, ?_, rfl, rfl⟩
    have hfirst : CommandLine.Adds none .verbose options (verbose :: options) :=
      @CommandLine.Adds.short none [] options rfl
    have hlast : CommandLine.Adds none .verbose (verbose :: options)
        (verbose :: options ++ [verbose]) :=
      @CommandLine.Adds.short none (verbose :: options) [] rfl
    exact (Relation.ReflTransGen.single hfirst).tail hlast
  obtain ⟨hmore, -, -, hunread, -⟩ := log_only_adds_records machine
  obtain ⟨halike, hsublist, -⟩ := hmore {} arguments arguments' request hasks hread
  refine ⟨hasks, hread, halike, ?_, ?_, hsublist rfl, ?_⟩
  · decide +kernel
  · decide +kernel
  · exact hunread {} (some operand) arguments _ request _ hread hread' rfl (.inl rfl)

end Machine

end SerialLock
