/-!
# The characters of a YAML text

Which characters a text may hold, and where each of them stands.  Line breaks are made alike first:
a carriage return, a carriage return with a line feed, and U+0085 count as a line feed, while the
line separator U+2028 and the paragraph separator U+2029 stay what they are.
-/

set_option autoImplicit false

namespace SerialLock.Yaml

/-- A position in a text, counted from zero. -/
structure Mark where
  line : Nat
  column : Nat
  /-- The number of characters before it. -/
  index : Nat
  deriving DecidableEq, Repr, Inhabited

/-- The position after a character that breaks no line. -/
def Mark.next (mark : Mark) : Mark :=
  { mark with column := mark.column + 1, index := mark.index + 1 }

/-- The start of the next line, after a break of `width` characters. -/
def Mark.nextLine (mark : Mark) (width : Nat) : Mark :=
  ⟨mark.line + 1, 0, mark.index + width⟩

/-- A character and where it stands. -/
structure Placed where
  char : Char
  mark : Mark
  deriving DecidableEq, Repr

/-- What is left to read of a text. -/
abbrev Source := List Placed

/-- The byte order mark. -/
def byteOrderMark : Char := '\uFEFF'

/-- May the character stand in a text? -/
def isAllowed (c : Char) : Bool :=
  let n := c.toNat
  n == 0x09 || n == 0x0A || n == 0x0D || (0x20 ≤ n && n ≤ 0x7E) || n == 0x85
    || (0xA0 ≤ n && n ≤ 0xD7FF) || (0xE000 ≤ n && n ≤ 0xFFFD) || 0x10000 ≤ n

/-- A line feed or a character that counts as one. -/
def isFeed (c : Char) : Bool :=
  c == '\n' || c == '\r' || c == '\x85'

/-- A line break of a text whose line breaks have been made alike. -/
def isBreak (c : Char) : Bool :=
  c == '\n' || c == '\u2028' || c == '\u2029'

/-- A blank: a space or a tab. -/
def isGap (c : Char) : Bool :=
  c == ' ' || c == '\t'

/-- The characters of a text that starts at `mark`, each with its place. -/
def placed (mark : Mark) : List Char → Source
  | [] => []
  | '\r' :: '\n' :: rest => ⟨'\n', mark⟩ :: placed (mark.nextLine 2) rest
  | c :: rest =>
    if isFeed c then ⟨'\n', mark⟩ :: placed (mark.nextLine 1) rest
    else if isBreak c then ⟨c, mark⟩ :: placed (mark.nextLine 1) rest
    else ⟨c, mark⟩ :: placed mark.next rest

/-- The position after the last character of a text that starts at `mark`. -/
def finish (mark : Mark) : List Char → Mark
  | [] => mark
  | '\r' :: '\n' :: rest => finish (mark.nextLine 2) rest
  | c :: rest =>
    if isFeed c || isBreak c then finish (mark.nextLine 1) rest else finish mark.next rest

/-- The text without a byte order mark at its start. -/
def withoutByteOrderMark : List Char → List Char
  | c :: rest => if c == byteOrderMark then rest else c :: rest
  | [] => []

namespace Source

/-- The next character. -/
def peek (source : Source) : Option Char :=
  source.head?.map Placed.char

/-- Does the text end here, or go on with a blank or a line break? -/
def atGap (source : Source) : Bool :=
  match source with
  | [] => true
  | p :: _ => isGap p.char || isBreak p.char

/-- Does the text end here, or go on with a line break? -/
def atBreak (source : Source) : Bool :=
  match source with
  | [] => true
  | p :: _ => isBreak p.char

/-- The text after the blanks and the comment that come next. -/
def skipLineEnd (source : Source) : Source :=
  let source : Source := source.dropWhile fun p => isGap p.char
  if source.peek == some '#' then source.dropWhile fun p => !isBreak p.char else source

/-- The first characters. -/
def chars (source : Source) (count : Nat) : List Char :=
  (source.take count).map Placed.char

/-- Does a document marker (three hyphens or three full stops, then a gap) come next, at the start
of a line? -/
def atMarker (c : Char) (source : Source) : Bool :=
  source.head?.any (fun p => p.mark.column == 0) && source.chars 3 == [c, c, c]
    && Source.atGap (source.drop 3)

/-- Does either document marker come next? -/
def atDocumentMarker (source : Source) : Bool :=
  source.atMarker '-' || source.atMarker '.'

end Source

end SerialLock.Yaml
