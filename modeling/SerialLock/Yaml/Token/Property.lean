import SerialLock.Yaml.Token.Basic

/-!
# Anchors, tags and directives

What may be said about a node before it comes, and about a document before it starts.
-/

set_option autoImplicit false

namespace SerialLock.Yaml

/-- A character of a name: a letter, a digit, a hyphen or an underscore. -/
def isWordChar (c : Char) : Bool :=
  c.isAlphanum || c == '-' || c == '_'

namespace Source

/-- The word that comes next, and what follows it. -/
def word (source : Source) : List Char × Source :=
  ((source.takeWhile fun p => isWordChar p.char).map Placed.char,
    source.dropWhile fun p => isWordChar p.char)

/-- The text after the blanks that come next. -/
def skipBlanks (source : Source) : Source :=
  source.dropWhile fun p => isGap p.char

end Source

/-- May the character stand right after an anchor or an alias? -/
def endsAnchor (c : Char) : Bool :=
  c == '?' || c == ':' || c == ',' || c == ']' || c == '\x7d' || c == '%' || c == '@' || c == '\x60'

/-- Reads the name of an anchor or alias. -/
def readAnchor (source : Source) : Result (List Char × Source) :=
  let (name, rest) := source.word
  if name.isEmpty || !(rest.atGap || rest.peek.any endsAnchor) then .error .badAnchor
  else .ok (name, rest)

/-- May the character stand in a tag?  Commas and brackets may in a verbatim one. -/
def isUriChar (verbatim : Bool) (c : Char) : Bool :=
  isWordChar c || ";/?:@&=+$.%!~*'()".toList.contains c
    || (verbatim && (c == ',' || c == '[' || c == ']'))

/-- The number of bytes that follow the first byte of a character. -/
def followers? (b : UInt8) : Option Nat :=
  if b &&& 0x80 == 0 then some 0
  else if b &&& 0xE0 == 0xC0 then some 1
  else if b &&& 0xF0 == 0xE0 then some 2
  else if b &&& 0xF8 == 0xF0 then some 3
  else none

/-- The byte that two hexadecimal digits spell. -/
def byteOf? (a b : Char) : Option UInt8 :=
  match hexDigit? a, hexDigit? b with
  | some high, some low => some (UInt8.ofNat (high * 16 + low))
  | _, _ => none

/-- Where the reader of a tag stands; `more` bytes of a character have still to come, each written as
a percent sign and two digits. -/
inductive UriState where
  | between (more : Nat)
  /-- After a percent sign. -/
  | percent (more : Nat)
  /-- After a percent sign and a digit. -/
  | digit (more : Nat) (first : Char)

/-- How many bytes have still to come after the byte `b`. -/
def moreAfter? (more : Nat) (b : UInt8) : Option Nat :=
  if more == 0 then followers? b else if b &&& 0xC0 == 0x80 then some (more - 1) else none

/-- Reads the characters of a tag. -/
def readUri (verbatim : Bool) : UriState → Source → Result (Bytes × Source)
  | .between 0, [] => .ok ([], [])
  | _, [] => .error .badTag
  | .between more, p :: rest =>
    if p.char == '%' then readUri verbatim (.percent more) rest
    else if more != 0 then .error .badTag
    else if isUriChar verbatim p.char then
      (readUri verbatim (.between 0) rest).map fun (bytes, rest) =>
        (Utf8.encode [p.char] ++ bytes, rest)
    else .ok ([], p :: rest)
  | .percent more, p :: rest => readUri verbatim (.digit more p.char) rest
  | .digit more first, p :: rest =>
    match byteOf? first p.char with
    | none => .error .badTag
    | some b =>
      match moreAfter? more b with
      | none => .error .badTag
      | some more =>
        (readUri verbatim (.between more) rest).map fun (bytes, rest) => (b :: bytes, rest)

/-- Reads a tag handle after its exclamation mark: a word between exclamation marks, the second of
which may be missing. -/
def readHandle (source : Source) : List Char × Source :=
  let (word, rest) := source.word
  if rest.peek == some '!' then ('!' :: word ++ ['!'], rest.drop 1) else ('!' :: word, rest)

/-- Is the handle closed by a second exclamation mark? -/
def isClosedHandle (handle : List Char) : Bool :=
  1 < handle.length && handle.getLast? == some '!'

/-- Reads a tag after its exclamation mark. -/
def readTag (inFlow : Bool) (source : Source) : Result (Token × Source) := do
  let (token, rest) ←
    if source.peek == some '<' then do
      let (suffix, rest) ← readUri true (.between 0) (source.drop 1)
      if suffix.isEmpty || rest.peek != some '>' then .error .badTag
      else .ok (Token.tag [] suffix, rest.drop 1)
    else do
      let (handle, rest) := readHandle source
      let (suffix, rest) ← readUri false (.between 0) rest
      if isClosedHandle handle then
        if suffix.isEmpty then .error .badTag else .ok (Token.tag handle suffix, rest)
      else
        let suffix := Utf8.encode (handle.drop 1) ++ suffix
        if suffix.isEmpty then .ok (Token.tag [] (Utf8.encode ['!']), rest)
        else .ok (Token.tag ['!'] suffix, rest)
  if Source.atGap rest || (inFlow && Source.peek rest == some ',') then .ok (token, rest)
  else .error .badTag

/-- The digits of a number that come next, nine at most, and what follows them. -/
def readNumber (source : Source) : Result (List Char × Source) :=
  let digits := (source.takeWhile fun p => p.char.isDigit).map Placed.char
  if digits.isEmpty || 9 < digits.length then .error .badDirective
  else .ok (digits, source.drop digits.length)

/-- A number in decimal without the zeros at its start. -/
def withoutZeros (digits : List Char) : List Char :=
  digits.dropWhile (· == '0')

/-- Reads a directive after its percent sign, with the line break that ends it. -/
def readDirective (source : Source) : Result (Token × Source) := do
  let (name, rest) := source.word
  let (token, rest) ←
    if !rest.atGap then .error .badDirective
    else if name == "YAML".toList then do
      let (major, rest) ← readNumber rest.skipBlanks
      if Source.peek rest != some '.' then .error .badDirective
      else do
        let (minor, rest) ← readNumber (rest.drop 1)
        let minor := withoutZeros minor
        if withoutZeros major == ['1'] && (minor == ['1'] || minor == ['2']) then
          .ok (Token.version, rest)
        else .error .unknownVersion
    else if name == "TAG".toList then do
      let rest := rest.skipBlanks
      if rest.peek != some '!' then .error .badDirective
      else do
        let (handle, rest) := readHandle (rest.drop 1)
        if !(isClosedHandle handle || handle == ['!']) || !rest.peek.any isGap then
          .error .badDirective
        else do
          let (meaning, rest) ← readUri true (.between 0) rest.skipBlanks
          if meaning.isEmpty || !rest.atGap then .error .badDirective
          else .ok (Token.tagHandle handle meaning, rest)
    else .error .badDirective
  let rest := Source.skipLineEnd rest
  if rest.atBreak then .ok (token, rest.drop 1) else .error .badDirective

end SerialLock.Yaml
