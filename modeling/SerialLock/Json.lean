import SerialLock.Text.Quoted

/-!
# JSON

Values and their two written forms: in one line without blanks, and over several lines with two
blanks for each level.
-/

set_option autoImplicit false

namespace SerialLock

/-- A JSON value.  Of the numbers there are the whole ones. -/
inductive Json where
  | null
  | number (value : Int)
  | text (value : List Char)
  | array (items : List Json)
  | object (entries : List (List Char × Json))
  deriving Repr, Inhabited

namespace Json

/-- A character in a text. -/
def escapedChar (c : Char) : List Char :=
  match c with
  | '"' => ['\\', '"']
  | '\\' => ['\\', '\\']
  | '\x08' => ['\\', 'b']
  | '\x0c' => ['\\', 'f']
  | '\n' => ['\\', 'n']
  | '\r' => ['\\', 'r']
  | '\t' => ['\\', 't']
  | c =>
    if c.toNat < 0x20 then
      ['\\', 'u', '0', '0', Text.hexDigit (c.toNat / 16), Text.hexDigit (c.toNat % 16)]
    else [c]

/-- A text in quotes. -/
def quotedText (text : List Char) : List Char :=
  '"' :: text.flatMap escapedChar ++ ['"']

/-- A whole number in decimal. -/
def numberText (n : Int) : List Char :=
  (toString n).toList

mutual

/-- The value in one line. -/
def compact : Json → List Char
  | .null => ['n', 'u', 'l', 'l']
  | .number n => numberText n
  | .text value => quotedText value
  | .array items => '[' :: compactItems true items ++ [']']
  | .object entries => '\x7b' :: compactEntries true entries ++ ['\x7d']

/-- The items of an array, with a comma before all but the first. -/
def compactItems (first : Bool) : List Json → List Char
  | [] => []
  | item :: rest => (if first then [] else [',']) ++ item.compact ++ compactItems false rest

/-- The entries of an object, with a comma before all but the first. -/
def compactEntries (first : Bool) : List (List Char × Json) → List Char
  | [] => []
  | (name, value) :: rest =>
    (if first then [] else [',']) ++ quotedText name ++ ':' :: value.compact
      ++ compactEntries false rest

end

/-- The start of a line at a level. -/
def newLine (level : Nat) : List Char :=
  '\n' :: List.replicate (2 * level) ' '

mutual

/-- The value over several lines, the later ones indented to at least `level`. -/
def spread (level : Nat) : Json → List Char
  | .null => ['n', 'u', 'l', 'l']
  | .number n => numberText n
  | .text value => quotedText value
  | .array [] => ['[', ']']
  | .array (item :: rest) =>
    '[' :: spreadItems (level + 1) true (item :: rest) ++ newLine level ++ [']']
  | .object [] => ['\x7b', '\x7d']
  | .object (entry :: rest) =>
    '\x7b' :: spreadEntries (level + 1) true (entry :: rest) ++ newLine level ++ ['\x7d']

/-- The items of an array, each on a line of its own. -/
def spreadItems (level : Nat) (first : Bool) : List Json → List Char
  | [] => []
  | item :: rest =>
    (if first then [] else [',']) ++ newLine level ++ item.spread level
      ++ spreadItems level false rest

/-- The entries of an object, each on a line of its own. -/
def spreadEntries (level : Nat) (first : Bool) : List (List Char × Json) → List Char
  | [] => []
  | (name, value) :: rest =>
    (if first then [] else [',']) ++ newLine level ++ quotedText name ++ [':', ' ']
      ++ value.spread level ++ spreadEntries level false rest

end

end Json

end SerialLock
