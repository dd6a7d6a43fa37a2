import SerialLock.Text.Quoted
import SerialLock.Yaml.Value

/-!
# Texts as scalars of a mapping

How a text is written so that it reads back as the same text.  A text with line breaks becomes a
literal block, where it can; one that would mean something else when plain is quoted; and one with
characters that cannot be seen is written with escapes.  Lines are never wrapped.
-/

set_option autoImplicit false

namespace SerialLock.Yaml

/-- May the character be written as it is? -/
def isPrintable (c : Char) : Bool :=
  let n := c.toNat
  c == '\n' || (0x20 ≤ n && n ≤ 0x7E) || (0xA0 ≤ n && n ≤ 0xD7FF)
    || (0xE000 ≤ n && n ≤ 0xFFFD && n != 0xFEFF) || 0x10000 ≤ n

/-- Do two characters with the properties given stand side by side? -/
def hasPair (first second : Char → Bool) : List Char → Bool
  | a :: b :: rest => (first a && second b) || hasPair first second (b :: rest)
  | _ => false

/-- Is the character a space? -/
def isSpace (c : Char) : Bool :=
  c == ' '

/-- A space comes right before a line break, or some character cannot be written as it is. -/
def needsEscapes (text : List Char) : Bool :=
  !text.all isPrintable || hasPair isSpace isBreak text

/-- Does the text start with a character that starts something else than a plain scalar? -/
def startsIndicator : List Char → Bool
  | [] => true
  | c :: rest =>
    "#,[]\x7b\x7d&*!|>'\"%@\x60".toList.contains c
      || ((c == '-' || c == '?' || c == ':') && rest.head?.all isSpace)

/-- Does the text hold a colon at its end or before a space, or a comment? -/
def holdsIndicator (text : List Char) : Bool :=
  text.getLast? == some ':' || hasPair (· == ':') isSpace text || hasPair isSpace (· == '#') text

/-- Would the text end or start a document? -/
def startsMarker (text : List Char) : Bool :=
  text.take 3 == ['-', '-', '-'] || text.take 3 == ['.', '.', '.']

/-- Can the text be written plain? -/
def fitsPlain (text : List Char) : Bool :=
  text.all (fun c => isPrintable c && !isBreak c)
    && !text.head?.any isSpace && !text.getLast?.any isSpace
    && !startsIndicator text && !holdsIndicator text && !startsMarker text

/-- Can the text be written in single quotes? -/
def fitsSingleQuotes (text : List Char) : Bool :=
  !needsEscapes text && !hasPair isBreak isSpace text

/-- Can the text be written as a literal block? -/
def fitsLiteral (text : List Char) : Bool :=
  !needsEscapes text && !text.getLast?.any isSpace

/-- Would the plain text mean something else than the text, or look as if it did? -/
def needsQuotes (text : List Char) : Bool :=
  isCode text || match Value.ofPlain text with
    | .text _ => false
    | _ => true

/-- The style in which a text is written. -/
def styleOf (text : List Char) : Style :=
  if text.contains '\n' then if fitsLiteral text then .literal else .doubleQuoted
  else if !needsQuotes text && fitsPlain text then .plain
  else if fitsSingleQuotes text then .singleQuoted
  else .doubleQuoted

/-- The indentation of lines within a scalar. -/
def indentation : List Char := [' ', ' ']

/-- The text up to the closing single quote; a line that starts here is indented. -/
def singleQuotedRest (lineStart : Bool) : List Char → List Char
  | [] => if lineStart then indentation ++ ['\''] else ['\'']
  | c :: rest =>
    if isBreak c then c :: singleQuotedRest true rest
    else
      let body := if c == '\'' then ['\'', '\''] else [c]
      (if lineStart then indentation ++ body else body) ++ singleQuotedRest false rest

/-- A number below `16 ^ width` in `width` hexadecimal digits, with capital letters. -/
def fixedHex : Nat → Nat → List Char
  | 0, _ => []
  | width + 1, n => fixedHex width (n / 16) ++ [(Text.hexDigit (n % 16)).toUpper]

/-- A character in double quotes. -/
def escaped (c : Char) : List Char :=
  match c with
  | '\x00' => ['\\', '0']
  | '\x07' => ['\\', 'a']
  | '\x08' => ['\\', 'b']
  | '\t' => ['\\', 't']
  | '\n' => ['\\', 'n']
  | '\x0b' => ['\\', 'v']
  | '\x0c' => ['\\', 'f']
  | '\r' => ['\\', 'r']
  | '\x1b' => ['\\', 'e']
  | '"' => ['\\', '"']
  | '\\' => ['\\', '\\']
  | '\x85' => ['\\', 'N']
  | '\u2028' => ['\\', 'L']
  | '\u2029' => ['\\', 'P']
  | c =>
    let n := c.toNat
    if isPrintable c then [c]
    else if n ≤ 0xFF then ['\\', 'x'] ++ fixedHex 2 n
    else if n ≤ 0xFFFF then ['\\', 'u'] ++ fixedHex 4 n
    else ['\\', 'U'] ++ fixedHex 8 n

/-- The lines of a literal block; a line that starts here is indented unless it is empty. -/
def literalRest (lineStart : Bool) : List Char → List Char
  | [] => []
  | c :: rest =>
    if isBreak c then c :: literalRest true rest
    else (if lineStart then indentation ++ [c] else [c]) ++ literalRest false rest

/-- The indicators after the bar of a literal block: its indentation, if the text does not show it,
and what becomes of the line breaks at its end. -/
def literalHints (text : List Char) : List Char :=
  let indent := if text.head?.any fun c => c == ' ' || isBreak c then ['2'] else []
  let chomp := match text.reverse with
    | [] => ['-']
    | [c] => if isBreak c then ['+'] else ['-']
    | c :: d :: _ => if !isBreak c then ['-'] else if isBreak d then ['+'] else []
  indent ++ chomp

/-- The text as the value of an entry, with the end of its last line. -/
def written (text : List Char) : List Char :=
  match styleOf text with
  | .plain => text ++ ['\n']
  | .singleQuoted => '\'' :: singleQuotedRest false text ++ ['\n']
  | .doubleQuoted => '"' :: text.flatMap escaped ++ ['"', '\n']
  | .literal | .folded =>
    '|' :: literalHints text ++ '\n' :: literalRest true text
      ++ (if text.getLast?.any isBreak then [] else ['\n'])

end SerialLock.Yaml
