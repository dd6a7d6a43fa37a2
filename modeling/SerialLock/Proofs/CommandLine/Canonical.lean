import SerialLock.CommandLine.Read
import SerialLock.Proofs.Text.Utf8

/-!
# Arguments for every request

Each request that can be made at all has its arguments: the options with their values attached, one
`-v` for each degree of verbosity, the name of the command, and the operands behind two hyphens,
where nothing is taken for an option.  Reading these arguments yields the request again
(`read_arguments`), whatever bytes the paths and whatever text the devices are made of.

The reader is followed along the arguments: the side in front of the command's name first, then the
side behind it, where the operands are gathered before they are settled.
-/

set_option autoImplicit false

namespace SerialLock

/-! ## The arguments -/

namespace Command

/-- The name of the command. -/
def name : Command → CommandName
  | .owner _ => .owner
  | .status .. => .status
  | .lock _ => .lock
  | .unlock _ => .unlock

/-- Is the answer to be JSON? -/
def json : Command → Bool
  | .status _ json => json
  | _ => false

/-- The operands, as bytes. -/
def operands : Command → List Bytes
  | .owner path => [path]
  | .status devices _ => devices.map Utf8.ofString
  | .lock device => [Utf8.ofString device]
  | .unlock device => [Utf8.ofString device]

/-- The command has what it works on: a path that is not empty, or a device. -/
def Complete : Command → Prop
  | .owner path => path ≠ []
  | .status devices _ => devices ≠ []
  | _ => True

end Command

namespace CommandLine

/-- The name of an option. -/
def Setting.word : Setting → Bytes
  | .settingsFile => Utf8.ofString "config"
  | .lockDirectory => Utf8.ofString "lock-dir"

/-- The option with its value attached. -/
def Setting.argument (setting : Setting) (value : Path) : Bytes :=
  hyphen :: hyphen :: (setting.word ++ equals :: value)

/-- The arguments that give an option its value, if it has one. -/
def Setting.arguments (setting : Setting) (value? : Option Path) : List Bytes :=
  (value?.map setting.argument).toList

end CommandLine

namespace Request

/-- The request can be made: its paths are not empty, more log is asked for at most 255 times, and
the command has its operands. -/
structure Expressible (request : Request) : Prop where
  settingsFile : request.settingsFile ≠ some []
  lockDirectory : request.lockDirectory ≠ some []
  verbosity : request.verbosity ≤ 255
  command : request.command.Complete

/-- The arguments that make the request. -/
def arguments (request : Request) : List Bytes :=
  CommandLine.Setting.settingsFile.arguments request.settingsFile ++
    (CommandLine.Setting.lockDirectory.arguments request.lockDirectory ++
      (List.replicate request.verbosity (Utf8.ofString "-v") ++
        Utf8.ofString request.command.name.word ::
          ((if request.command.json then [Utf8.ofString "--json"] else []) ++
            Utf8.ofString "--" :: request.command.operands)))

end Request

namespace CommandLine

/-! ## In front of the command's name -/

/-- The side with a value for one of the options. -/
def Side.holding (side : Side) (setting : Setting) (value? : Option Path) : Side :=
  match setting with
  | .settingsFile => { side with settingsFile := value? }
  | .lockDirectory => { side with lockDirectory := value? }

/-- An option that stands in one argument with its value is read as its word and that value. -/
theorem formOf_argument (setting : Setting) (value : Path) :
    formOf (setting.argument value) = .long setting.word (some value) := by
  cases setting <;> rfl

/-- The word of an option is known for every command, and without one. -/
theorem long?_word (command : Option CommandName) (setting : Setting) :
    Side.long? command setting.word = some (.setting setting) := by
  cases setting <;> rfl

/-- Where no option waits for its value, nothing is lacking. -/
theorem Side.settle_of_none {side : Side} (hpending : side.pending = none)
    (command : Option CommandName) : side.settle command = .ok side := by
  unfold settle
  rw [hpending]

/-- A value that is not empty is taken by an option that has none yet. -/
theorem Side.give_of_none {side : Side} {setting : Setting} {value : Path}
    (hnone : side.value? setting = none) (hvalue : value ≠ []) :
    side.give setting value = .ok (side.holding setting (some value)) := by
  unfold give holding
  rw [hnone]
  simp only [Option.isSome_none, Bool.false_eq_true, if_false, List.isEmpty_iff, hvalue]
  cases setting <;> rfl

/-- An option that was not given before takes its value. -/
theorem readFrom_arguments {front : Side} {setting : Setting} {value? : Option Path}
    (hpending : front.pending = none) (hnone : front.value? setting = none)
    (hvalue : value? ≠ some []) (rest : List Bytes) :
    readFrom front (setting.arguments value? ++ rest) =
      readFrom (front.holding setting value?) rest := by
  cases value? with
  | none =>
      have hsame : front.holding setting none = front := by
        cases setting with
        | settingsFile => rw [Side.holding, ← (show front.settingsFile = none from hnone)]
        | lockDirectory => rw [Side.holding, ← (show front.lockDirectory = none from hnone)]
      rw [hsame]
      rfl
  | some value =>
      have hsome : value ≠ [] := fun hnil => hvalue (by rw [hnil])
      show readFrom front (setting.argument value :: rest) = _
      have htake : front.takeLong none setting.word (some value) =
          .ok (front.holding setting (some value)) := by
        simp only [Side.takeLong, long?_word, Side.settle_of_none hpending]
        exact Side.give_of_none hnone hsome
      rw [readFrom.eq_def]
      simp only [formOf_argument]
      rw [htake]
      rfl

/-- One `-v` asks for more log once. -/
theorem readFrom_verbose {front : Side} (hpending : front.pending = none) (rest : List Bytes) :
    readFrom front (Utf8.ofString "-v" :: rest) = readFrom front.more rest := by
  have hform : formOf (Utf8.ofString "-v") = .short [0x76] := rfl
  have htake : front.takeLetters none [0x76] = .ok front.more := by
    simp only [Side.takeLetters, Side.takeLetter, Side.settle_of_none hpending]
    rfl
  rw [readFrom.eq_def]
  simp only [hform]
  rw [htake]
  rfl

/-- Requests for more log in front of the command's name are counted up to 255. -/
theorem readFrom_replicate {front : Side} (count : Nat) (hpending : front.pending = none)
    (hbound : front.verbosity + count ≤ 255) (rest : List Bytes) :
    readFrom front (List.replicate count (Utf8.ofString "-v") ++ rest) =
      readFrom { front with verbosity := front.verbosity + count } rest := by
  induction count generalizing front with
  | zero => rfl
  | succ count ih =>
      have hmore : front.more = { front with verbosity := front.verbosity + 1 } := by
        unfold Side.more
        rw [Nat.min_eq_right (by omega)]
      have hrest := @ih { front with verbosity := front.verbosity + 1 } hpending (by
        show front.verbosity + 1 + count ≤ 255
        omega)
      rw [List.replicate_succ, List.cons_append, readFrom_verbose hpending, hmore, hrest]
      simp only [Nat.add_assoc, Nat.add_comm 1 count]

/-- The name of a command hands over to the side behind it. -/
theorem readFrom_word {front behind : Side} {command : Command} {name : CommandName}
    (hpending : front.pending = none) {rest : List Bytes}
    (hbehind : readBehind name rest = .ok (behind, command)) :
    readFrom front (Utf8.ofString name.word :: rest) = .ok (requestOf front behind command) := by
  have hform : formOf (Utf8.ofString name.word) = .word := by cases name <;> rfl
  have hnamed : commandNamed? (Utf8.ofString name.word) = some name := by cases name <;> rfl
  have hhelp : (Utf8.ofString name.word == helpWord) = false := by cases name <;> rfl
  have hwaiting : front.isWaiting = false := by
    unfold Side.isWaiting
    rw [hpending]
  rw [readFrom.eq_def]
  simp only [hform, hwaiting, hhelp, hnamed, Bool.false_eq_true, if_false]
  rw [hbehind, Side.settle_of_none hpending]
  rfl

/-! ## Behind the command's name -/

/-- All operands are gathered, where the command takes several. -/
theorem takeOperands_gathered {side : Side} {earlier : List Bytes} (values : List Bytes)
    (hpending : side.pending = some (.operands earlier)) (hearlier : earlier ≠ []) :
    side.takeOperands .status values =
      .ok { side with pending := some (.operands (earlier ++ values)) } := by
  induction values generalizing side earlier with
  | nil => simp [Side.takeOperands, ← hpending]
  | cons value values ih =>
      have htake : side.takeOperand .status value =
          .ok { side with pending := some (.operands (earlier ++ [value])) } := by
        simp [Side.takeOperand, hpending, hearlier]
      rw [Side.takeOperands, htake]
      show Side.takeOperands _ _ _ = _
      rw [ih rfl (by simp)]
      simp

/-- The first operand is waited for to be settled with the others, and stays alone unless the
command takes several. -/
theorem takeOperands_eq {side : Side} {name : CommandName} {values : List Bytes}
    (hpending : side.pending = none) (hoperands : side.operands = [])
    (hvalues : values.length = 1 ∨ name = .status ∧ values ≠ []) :
    side.takeOperands name values = .ok { side with pending := some (.operands values) } := by
  cases values with
  | nil => simp at hvalues
  | cons value values =>
      have htake : side.takeOperand name value =
          .ok { side with pending := some (.operands [value]) } := by
        have hfree : (side.operands ++ ([] : List Bytes)).isEmpty = true := by rw [hoperands]; rfl
        simp only [Side.takeOperand, hpending, hfree, Side.settle_of_none hpending, Bool.not_true,
          Bool.and_false, Bool.false_eq_true, if_false, List.isEmpty_nil, if_true]
        rfl
      rw [Side.takeOperands, htake]
      show Side.takeOperands _ _ _ = _
      cases hvalues with
      | inl hone =>
          obtain rfl : values = [] := by simpa using hone
          rfl
      | inr hstatus =>
          obtain ⟨rfl, -⟩ := hstatus
          rw [takeOperands_gathered values rfl (by simp)]
          rfl

/-- The operands of a complete command are accepted. -/
theorem operandFault?_operands {command : Command} (hcomplete : command.Complete) :
    command.operands.findSome? (Side.operandFault? (some command.name)) = none := by
  rw [List.findSome?_eq_none_iff]
  intro value hvalue
  cases command with
  | owner path =>
      obtain rfl : value = path := by simpa [Command.operands] using hvalue
      have hsome : value ≠ [] := hcomplete
      simp [Side.operandFault?, Command.name, hsome]
  | status devices json =>
      obtain ⟨device, -, rfl⟩ : ∃ device ∈ devices, Utf8.ofString device = value := by
        simpa [Command.operands] using hvalue
      simp [Side.operandFault?, Command.name, Utf8.decode?_ofString]
  | lock device =>
      obtain rfl : value = Utf8.ofString device := by simpa [Command.operands] using hvalue
      simp [Side.operandFault?, Command.name, Utf8.decode?_ofString]
  | unlock device =>
      obtain rfl : value = Utf8.ofString device := by simpa [Command.operands] using hvalue
      simp [Side.operandFault?, Command.name, Utf8.decode?_ofString]

/-- The operands of a complete command make that command. -/
theorem commandOf_operands {command : Command} (hcomplete : command.Complete) {side : Side}
    (hoperands : side.operands = command.operands) (hjson : side.json = command.json) :
    commandOf command.name side = .ok command := by
  unfold commandOf
  rw [hoperands, hjson]
  cases command with
  | owner path => rfl
  | lock device => simp [Command.operands, Command.name, Utf8.display_ofString]
  | unlock device => simp [Command.operands, Command.name, Utf8.display_ofString]
  | status devices json =>
      cases devices with
      | nil => exact absurd rfl hcomplete
      | cons device devices =>
          have hdisplay : (Utf8.display ∘ Utf8.ofString) = id := by
            funext text
            exact Utf8.display_ofString text
          simp [Command.operands, Command.name, Command.json, Utf8.display_ofString, hdisplay]

/-- Behind its name a command is read back from its own option and its operands. -/
theorem readBehind_operands {command : Command} (hcomplete : command.Complete) :
    readBehind command.name
        ((if command.json then [Utf8.ofString "--json"] else []) ++
          Utf8.ofString "--" :: command.operands) =
      .ok ({ json := command.json, operands := command.operands }, command) := by
  have hvalues : command.operands.length = 1 ∨ command.name = .status ∧ command.operands ≠ [] := by
    cases command with
    | status devices json =>
        have hsome : devices ≠ [] := hcomplete
        exact .inr ⟨rfl, by simpa [Command.operands] using hsome⟩
    | _ => exact .inl rfl
  have hall : Side.takeAll command.name {}
      ((if command.json then [Utf8.ofString "--json"] else []) ++
        Utf8.ofString "--" :: command.operands) =
      Side.takeOperands command.name { json := command.json } command.operands := by
    cases command with
    | status devices json => cases json <;> rfl
    | _ => rfl
  have hsettle : Side.settle (some command.name)
      { json := command.json, pending := some (.operands command.operands) } =
      .ok { json := command.json, operands := command.operands } := by
    simp [Side.settle, operandFault?_operands hcomplete]
  have hcommand : commandOf command.name { json := command.json, operands := command.operands } =
      .ok command := commandOf_operands hcomplete rfl rfl
  unfold readBehind
  rw [hall, takeOperands_eq rfl rfl hvalues]
  show (Side.settle (some command.name)
    { json := command.json, pending := some (.operands command.operands) }).bind _ = _
  rw [hsettle]
  show (commandOf command.name
    { json := command.json, operands := command.operands }).bind _ = _
  rw [hcommand]
  rfl

/-- The arguments of a request that can be made are read as that request. -/
theorem read_arguments {request : Request} (hexpressible : request.Expressible) :
    read request.arguments = .ok request := by
  have hverbosity : 0 + request.verbosity ≤ 255 := by
    rw [Nat.zero_add]
    exact hexpressible.verbosity
  have hbehind := readBehind_operands hexpressible.command
  unfold read Request.arguments
  rw [readFrom_arguments rfl rfl hexpressible.settingsFile,
    readFrom_arguments rfl rfl hexpressible.lockDirectory,
    readFrom_replicate request.verbosity rfl hverbosity,
    readFrom_word rfl hbehind]
  -- Nothing behind the name goes before what the front side holds.
  simp [requestOf, Side.holding]

/-- Devices that look like options or like a command, and one whose name is empty. -/
theorem read_arguments_hyphens :
    let request : Request :=
      { settingsFile := some (Utf8.ofString "--"), lockDirectory := some (Utf8.ofString "=")
        verbosity := 2, command := .status ["--", "", "-v", "help"] true }
    request.Expressible ∧ read request.arguments = .ok request := by
  intro request
  have hexpressible : request.Expressible := by
    constructor
    · decide
    · decide
    · decide
    · exact List.cons_ne_nil _ _
  exact ⟨hexpressible, read_arguments hexpressible⟩

end CommandLine

end SerialLock
