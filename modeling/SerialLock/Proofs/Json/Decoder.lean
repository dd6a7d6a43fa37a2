import SerialLock.Proofs.Json.Grammar

/-!
# A decoder of JSON

The decoder reads a value along the rules of the grammar, with the rest of the text as what it
hands on.  Lists are read apart from what they are lists of, so that arrays and objects share what
there is to say of commas and white space.
-/

set_option autoImplicit false

namespace SerialLock.Json

/-- The text without the white space at its start. -/
def skip (text : List Char) : List Char :=
  text.dropWhile isSpace

/-! ## Numbers -/

/-- Reads digits, of which there is at least one. -/
def readDigits (text : List Char) : Option (List Char × List Char) :=
  let digits := text.takeWhile Char.isDigit
  if digits.isEmpty then none else some (digits, text.dropWhile Char.isDigit)

/-- Reads the digits of a whole number: a zero, or digits that start with another one. -/
def readWhole : List Char → Option (List Char × List Char)
  | '0' :: rest => some (['0'], rest)
  | digits => readDigits digits

/-- Reads the digits behind a full stop, if there is one. -/
def readFraction : List Char → Option (List Char × List Char)
  | '.' :: rest => readDigits rest
  | rest => some ([], rest)

/-- Reads the number behind the letter of a power of ten. -/
def readSigned : List Char → Option (Int × List Char)
  | '+' :: rest => (readDigits rest).map fun (digits, rest) => (magnitude digits, rest)
  | '-' :: rest => (readDigits rest).map fun (digits, rest) => (-magnitude digits, rest)
  | rest => (readDigits rest).map fun (digits, rest) => (magnitude digits, rest)

/-- Reads the power of ten, which is zero where none is given. -/
def readPower : List Char → Option (Int × List Char)
  | [] => some (0, [])
  | c :: rest => if isPowerMark c then readSigned rest else some (0, c :: rest)

/-- Reads a number without a sign: its mantissa and its exponent. -/
def readUnsigned (text : List Char) : Option ((Nat × Int) × List Char) := do
  let (whole, rest) ← readWhole text
  let (fraction, rest) ← readFraction rest
  let (power, rest) ← readPower rest
  return ((magnitude (whole ++ fraction), power - fraction.length), rest)

/-- Reads a number, which may have a minus sign in front. -/
def readNumber : List Char → Option (Value × List Char)
  | '-' :: rest => (readUnsigned rest).map fun (n, rest) => (.number (-n.1) n.2, rest)
  | rest => (readUnsigned rest).map fun (n, rest) => (.number n.1 n.2, rest)

/-! ## Texts in quotes -/

/-- Reads a character: one that stands for itself, or an escape. -/
def readLetter : List Char → Option (Char × List Char)
  | '\\' :: 'u' :: rest => do
    let n ← codeUnit? (rest.take 4)
    if isSecondHalf n then none
    else if isFirstHalf n then
      match rest.drop 4 with
      | '\\' :: 'u' :: more =>
        let second ← codeUnit? (more.take 4)
        if isSecondHalf second then some (joined n second, more.drop 4) else none
      | _ => none
    else some (Char.ofNat n, rest.drop 4)
  | '\\' :: mark :: rest => (shortForm? mark).map fun c => (c, rest)
  | c :: rest => if c == '\\' || c == '"' || c.toNat < 0x20 then none else some (c, rest)
  | [] => none

/-- Reads the characters up to the closing quote, of which there are at most `budget`. -/
def readLetters : Nat → List Char → Option (List Char × List Char)
  | 0, _ => none
  | budget + 1, spelled =>
    if spelled.head? == some '"' then some ([], spelled.drop 1)
    else do
      let (c, rest) ← readLetter spelled
      let (others, rest) ← readLetters budget rest
      return (c :: others, rest)

/-- Reads a text behind its opening quote. -/
def readText (text : List Char) : Option (List Char × List Char) :=
  readLetters text.length text

/-! ## Lists -/

section Lists

variable {α : Type} (one : List Char → Option (α × List Char)) (close : Char)

/-- Reads what `one` reads, with a comma between each and the next, up to the closing character;
there are at most `budget`. -/
def readList : Nat → List Char → Option (List α × List Char)
  | 0, _ => none
  | budget + 1, spelled => do
    let (item, rest) ← one spelled
    match skip rest with
    | [] => none
    | c :: rest =>
      if c == ',' then do
        let (items, rest) ← readList budget (skip rest)
        return (item :: items, rest)
      else if c == close then some ([item], rest)
      else none

/-- Reads what stands between an opening character and the closing one. -/
def readBetween (text : List Char) : Option (List α × List Char) :=
  match skip text with
  | [] => none
  | c :: rest =>
    if c == close then some ([], rest) else readList one close text.length (c :: rest)

/-- Reads a name, and with `one` the value behind the colon. -/
def readEntry : List Char → Option ((List Char × α) × List Char)
  | '"' :: rest => do
    let (name, rest) ← readText rest
    match skip rest with
    | ':' :: rest =>
      let (value, rest) ← one (skip rest)
      return ((name, value), rest)
    | _ => none
  | _ => none

end Lists

/-! ## Values -/

/-- Reads a word that stands for a value. -/
def readWord (word : List Char) (value : Value) (text : List Char) : Option (Value × List Char) :=
  if word.isPrefixOf text then some (value, text.drop word.length) else none

/-- Reads a value that is nested less than `depth` deep. -/
def readValue : Nat → List Char → Option (Value × List Char)
  | 0, _ => none
  | _ + 1, [] => none
  | depth + 1, c :: rest =>
    if c == '"' then (readText rest).map fun (value, rest) => (.text value, rest)
    else if c == '[' then
      (readBetween (readValue depth) ']' rest).map fun (items, rest) => (.array items, rest)
    else if c == '\x7b' then
      (readBetween (readEntry (readValue depth)) '\x7d' rest).map fun (entries, rest) =>
        (.object entries, rest)
    else if c == 'n' then readWord ['u', 'l', 'l'] .null rest
    else if c == 't' then readWord ['r', 'u', 'e'] (.truth true) rest
    else if c == 'f' then readWord ['a', 'l', 's', 'e'] (.truth false) rest
    else readNumber (c :: rest)

/-- The value that a document spells.  No text is nested deeper than it is long. -/
def decode? (text : List Char) : Option Value :=
  match readValue text.length (skip text) with
  | some (value, rest) => if (skip rest).isEmpty then some value else none
  | none => none

end SerialLock.Json
