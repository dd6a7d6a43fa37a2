import SerialLock.CommandLine.Basic
import SerialLock.Text.Utf8

/-!
# Reading the command line

The shared options may stand on both sides of the command's name, and each side counts for itself: a
value given behind the name goes before one given in front of it.

A value is looked at only when the next option, the next operand or the end settles it, so a later
argument that is not known at all is complained about first.
-/

set_option autoImplicit false

namespace SerialLock.CommandLine

/-- An option that takes a value. -/
inductive Setting where
  | settingsFile
  | lockDirectory
  deriving DecidableEq, Repr

/-- The form of an argument. -/
inductive Form where
  /-- Two hyphens: all that follows are operands. -/
  | separator
  /-- A name after two hyphens, with what follows an equals sign. -/
  | long (name : Bytes) (value : Option Bytes)
  /-- Letters after one hyphen. -/
  | short (letters : Bytes)
  /-- Anything else. -/
  | word
  deriving DecidableEq, Repr

/-- The hyphen, as a byte. -/
def hyphen : UInt8 := 0x2D

/-- The equals sign, as a byte. -/
def equals : UInt8 := 0x3D

/-- The form of an argument. -/
def formOf (argument : Bytes) : Form :=
  match argument with
  | a :: b :: rest =>
    if a == hyphen && b == hyphen then
      if rest.isEmpty then .separator
      else
        let value := rest.dropWhile (· != equals)
        .long (rest.takeWhile (· != equals)) (if value.isEmpty then none else some (value.drop 1))
    else if a == hyphen then .short (b :: rest)
    else .word
  | _ => .word

/-- What has been read but not settled. -/
inductive Pending where
  /-- An option, with its value once that is there. -/
  | option (setting : Setting) (value : Option Bytes)
  /-- Operands. -/
  | operands (values : List Bytes)
  deriving DecidableEq, Repr

/-- What one side of the command's name gives. -/
structure Side where
  settingsFile : Option Path := none
  lockDirectory : Option Path := none
  verbosity : Nat := 0
  json : Bool := false
  /-- The settled operands. -/
  operands : List Bytes := []
  pending : Option Pending := none
  deriving DecidableEq, Repr

namespace Side

/-- Is an option waiting for its value? -/
def isWaiting (side : Side) : Bool :=
  match side.pending with
  | some (.option _ none) => true
  | _ => false

/-- Is nothing given? -/
def isEmpty (side : Side) : Bool :=
  side.settingsFile.isNone && side.lockDirectory.isNone && side.verbosity == 0

/-- The value of an option. -/
def value? (side : Side) : Setting → Option Path
  | .settingsFile => side.settingsFile
  | .lockDirectory => side.lockDirectory

/-- Gives an option its value, which comes once and is not empty. -/
def give (side : Side) (setting : Setting) (value : Bytes) : Except Usage Side :=
  if (side.value? setting).isSome then .error .argumentConflict
  else if value.isEmpty then .error .invalidValue
  else
    match setting with
    | .settingsFile => .ok { side with settingsFile := some value }
    | .lockDirectory => .ok { side with lockDirectory := some value }

/-- Why a value cannot be an operand of the command: a path may not be empty, and a device has to be
a text. -/
def operandFault? (command : Option CommandName) (value : Bytes) : Option Usage :=
  if command == some .owner then if value.isEmpty then some .invalidValue else none
  else if (Utf8.decode? value).isNone then some .invalidText else none

/-- Settles what is pending. -/
def settle (command : Option CommandName) (side : Side) : Except Usage Side :=
  let settled := { side with pending := none }
  match side.pending with
  | none => .ok side
  | some (.option _ none) => .error .invalidValue
  | some (.option setting (some value)) => settled.give setting value
  | some (.operands values) =>
    match values.findSome? (operandFault? command) with
    | some usage => .error usage
    | none => .ok { settled with operands := side.operands ++ values }

/-- One more request for more log. -/
def more (side : Side) : Side :=
  { side with verbosity := min 255 (side.verbosity + 1) }

/-- Takes a letter after one hyphen. -/
def takeLetter (command : Option CommandName) (side : Side) (letter : UInt8) :
    Except Usage Side :=
  if letter == 0x76 then (side.settle command).map more
  else if letter == 0x68 then (side.settle command).bind fun _ => .error .help
  else if letter == 0x56 then (side.settle command).bind fun _ => .error (.version command)
  else .error .unknownArgument

/-- Takes the letters after one hyphen, one after the other. -/
def takeLetters (command : Option CommandName) (side : Side) : Bytes → Except Usage Side
  | [] => .ok side
  | letter :: rest => do (← side.takeLetter command letter).takeLetters command rest

/-- What a name after two hyphens stands for. -/
inductive Long where
  | setting (setting : Setting)
  | verbose
  | json
  | help
  | version
  deriving DecidableEq, Repr

/-- The names after two hyphens.  One of them is known to one command only. -/
def long? (command : Option CommandName) (name : Bytes) : Option Long :=
  if name == Utf8.ofString "config" then some (.setting .settingsFile)
  else if name == Utf8.ofString "lock-dir" then some (.setting .lockDirectory)
  else if name == Utf8.ofString "verbose" then some .verbose
  else if name == Utf8.ofString "json" && command == some .status then some .json
  else if name == Utf8.ofString "help" then some .help
  else if name == Utf8.ofString "version" then some .version
  else none

/-- Takes an option without a value of its own. -/
def takeFlag (command : Option CommandName) (side : Side) (flag : Long) : Except Usage Side := do
  let side ← side.settle command
  match flag with
  | .setting setting => return { side with pending := some (.option setting none) }
  | .verbose => return side.more
  | .json => if side.json then .error .argumentConflict else return { side with json := true }
  | .help => .error .help
  | .version => .error (.version command)

/-- Takes a name after two hyphens, with its value. -/
def takeLong (command : Option CommandName) (side : Side) (name : Bytes) (value : Option Bytes) :
    Except Usage Side :=
  match long? command name, value with
  | none, _ => .error .unknownArgument
  | some flag, none => side.takeFlag command flag
  | some (.setting setting), some value => do (← side.settle command).give setting value
  | some _, some _ => .error .tooManyValues

/-- Takes an operand.  All commands but one have a single operand. -/
def takeOperand (command : CommandName) (side : Side) (value : Bytes) : Except Usage Side :=
  let earlier := match side.pending with
    | some (.operands values) => values
    | _ => []
  if command != .status && !(side.operands ++ earlier).isEmpty then .error .unknownArgument
  else if earlier.isEmpty then do
    return { ← side.settle command with pending := some (.operands [value]) }
  else .ok { side with pending := some (.operands (earlier ++ [value])) }

/-- Takes an argument that the option which waits takes as its value. -/
def takeValue (side : Side) (value : Bytes) : Side :=
  match side.pending with
  | some (.option setting none) => { side with pending := some (.option setting (some value)) }
  | _ => side

/-- Takes operands. -/
def takeOperands (command : CommandName) (side : Side) : List Bytes → Except Usage Side
  | [] => .ok side
  | value :: rest => do (← side.takeOperand command value).takeOperands command rest

/-- Takes the arguments behind the command's name. -/
def takeAll (command : CommandName) (side : Side) : List Bytes → Except Usage Side
  | [] => .ok side
  | argument :: rest => do
    match formOf argument with
    | .separator => side.takeOperands command rest
    | .long name value => (← side.takeLong command name value).takeAll command rest
    | .short letters => (← side.takeLetters command letters).takeAll command rest
    | .word =>
      if side.isWaiting then (side.takeValue argument).takeAll command rest
      else (← side.takeOperand command argument).takeAll command rest

end Side

/-- The command that the operands make. -/
def commandOf (command : CommandName) (side : Side) : Except Usage Command :=
  match side.operands with
  | [] => .error .missingOperand
  | first :: _ =>
    match command with
    | .owner => .ok (.owner first)
    | .status => .ok (.status (side.operands.map Utf8.display) side.json)
    | .lock => .ok (.lock (Utf8.display first))
    | .unlock => .ok (.unlock (Utf8.display first))

/-- Reads the arguments behind the command's name. -/
def readBehind (command : CommandName) (arguments : List Bytes) :
    Except Usage (Side × Command) := do
  let side ← Side.takeAll command {} arguments
  let side ← side.settle (some command)
  return (side, ← commandOf command side)

/-- The request that both sides of the command's name make. -/
def requestOf (front behind : Side) (command : Command) : Request :=
  { settingsFile := behind.settingsFile.or front.settingsFile
    lockDirectory := behind.lockDirectory.or front.lockDirectory
    verbosity := if behind.verbosity == 0 then front.verbosity else behind.verbosity
    command }

/-- The command with a name. -/
def commandNamed? (name : Bytes) : Option CommandName :=
  CommandName.all.find? fun command => Utf8.ofString command.word == name

/-- The word that asks for help. -/
def helpWord : Bytes := Utf8.ofString "help"

/-- Does the word name a command or ask for help? -/
def isCommandWord (name : Bytes) : Bool :=
  name == helpWord || (commandNamed? name).isSome

/-- What a request for help is answered with: it may name one command. -/
def helpAbout : List Bytes → Usage
  | [] => .help
  | [name] => if isCommandWord name then .help else .invalidCommand
  | _ => .invalidCommand

/-- Where the arguments end without a command. -/
def withoutCommand (front : Side) : Except Usage Request := do
  let front ← front.settle none
  if front.isEmpty then .error .nothing else .error .missingCommand

/-- Reads arguments in front of the command's name, then what follows. -/
def readFrom (front : Side) : List Bytes → Except Usage Request
  | [] => withoutCommand front
  | argument :: rest => do
    match formOf argument with
    | .separator =>
      match rest with
      | [] => withoutCommand front
      | next :: _ => if isCommandWord next then .error .unknownArgument else .error .invalidCommand
    | .long name value => readFrom (← front.takeLong none name value) rest
    | .short letters => readFrom (← front.takeLetters none letters) rest
    | .word =>
      if front.isWaiting then readFrom (front.takeValue argument) rest
      else if argument == helpWord then .error (helpAbout rest)
      else
        match commandNamed? argument with
        | none => .error .invalidCommand
        | some name =>
          let (behind, command) ← readBehind name rest
          return requestOf (← front.settle none) behind command

/-- The request that the arguments make. -/
def read (arguments : List Bytes) : Except Usage Request :=
  readFrom {} arguments

end SerialLock.CommandLine
