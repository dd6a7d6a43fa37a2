import SerialLock.Yaml.Malformed

/-!
# Scalars as they are written

A scalar is plain, quoted or a block.  Inside one, line breaks are folded: a break between two words
counts as a space, and of several breaks the first is dropped.  Each reader goes through the text
once, character by character.
-/

set_option autoImplicit false

namespace SerialLock.Yaml

/-- How a scalar is written. -/
inductive Style where
  | plain
  | singleQuoted
  | doubleQuoted
  | literal
  | folded
  deriving DecidableEq, Repr

/-- What stands between two words of a scalar, latest character first. -/
inductive Gap where
  /-- Blanks, within a line. -/
  | blanks (seen : List Char)
  /-- Line breaks: the first, unless it was escaped, and the others. -/
  | broken (first : Option Char) (others : List Char)
  deriving DecidableEq, Repr

namespace Gap

/-- No gap. -/
def none : Gap := .blanks []

/-- Does the gap span lines? -/
def isBroken : Gap → Bool
  | .blanks _ => false
  | .broken .. => true

/-- Is there no gap? -/
def isNone : Gap → Bool
  | .blanks [] => true
  | _ => false

/-- The gap with one more blank: only those within a line count. -/
def addBlank (gap : Gap) (c : Char) : Gap :=
  match gap with
  | .blanks seen => .blanks (c :: seen)
  | .broken .. => gap

/-- The gap with one more line break: blanks before it do not count. -/
def addBreak (gap : Gap) (c : Char) : Gap :=
  match gap with
  | .blanks _ => .broken (some c) []
  | .broken first others => .broken first (c :: others)

/-- What the gap stands for, latest character first. -/
def folded : Gap → List Char
  | .blanks seen => seen
  | .broken (some '\n') [] => [' ']
  | .broken (some '\n') others => others
  | .broken first others => others ++ first.toList

end Gap

/-- The characters that end a plain scalar in a flow collection. -/
def isFlowIndicator (c : Char) : Bool :=
  c == ',' || c == '[' || c == ']' || c == '\x7b' || c == '\x7d'

/-- A plain scalar that was read. -/
structure Plain where
  text : List Char
  rest : Source
  /-- Did the reading go on to a later line? -/
  broken : Bool

/-- Reads a plain scalar on, after the characters `text` (latest first) and the gap `gap`.  In a
block it ends before a line that is indented by less than `indent`. -/
def readPlain (inFlow : Bool) (indent : Nat) (text : List Char) (gap : Gap) :
    Source → Result Plain
  | [] => .ok ⟨text.reverse, [], gap.isBroken⟩
  | p :: rest =>
    let c := p.char
    let ended : Plain := ⟨text.reverse, p :: rest, gap.isBroken⟩
    if isGap c then
      if gap.isBroken && c == '\t' && p.mark.column < indent then .error .tabInIndentation
      else readPlain inFlow indent text (gap.addBlank c) rest
    else if isBreak c then readPlain inFlow indent text (gap.addBreak c) rest
    else if !gap.isNone
        && ((!inFlow && p.mark.column < indent) || Source.atDocumentMarker (p :: rest) || c == '#') then
      .ok ended
    else if inFlow && c == ':' && ((Source.peek rest).any fun d => isFlowIndicator d || d == '?') then
      .error .strayColon
    else if (c == ':' && Source.atGap rest) || (inFlow && isFlowIndicator c) then .ok ended
    else readPlain inFlow indent (c :: (gap.folded ++ text)) .none rest

/-- The value of a hexadecimal digit. -/
def hexDigit? (c : Char) : Option Nat :=
  if '0' ≤ c && c ≤ '9' then some (c.toNat - '0'.toNat)
  else if 'a' ≤ c && c ≤ 'f' then some (c.toNat - 'a'.toNat + 10)
  else if 'A' ≤ c && c ≤ 'F' then some (c.toNat - 'A'.toNat + 10)
  else none

/-- What a backslash sequence is. -/
inductive Escape where
  /-- One character. -/
  | char (c : Char)
  /-- A character by its number, in so many hexadecimal digits. -/
  | code (digits : Nat)

/-- The sequence that starts with a backslash and the character given. -/
def escape? : Char → Option Escape
  | '0' => some (.char '\x00')
  | 'a' => some (.char '\x07')
  | 'b' => some (.char '\x08')
  | 't' => some (.char '\t')
  | '\t' => some (.char '\t')
  | 'n' => some (.char '\n')
  | 'v' => some (.char '\x0b')
  | 'f' => some (.char '\x0c')
  | 'r' => some (.char '\r')
  | 'e' => some (.char '\x1b')
  | ' ' => some (.char ' ')
  | '"' => some (.char '"')
  | '/' => some (.char '/')
  | '\\' => some (.char '\\')
  | 'N' => some (.char '\x85')
  | '_' => some (.char '\xa0')
  | 'L' => some (.char '\u2028')
  | 'P' => some (.char '\u2029')
  | 'x' => some (.code 2)
  | 'u' => some (.code 4)
  | 'U' => some (.code 8)
  | _ => none

/-- The character with a number, if there is one. -/
def charOf? (number : Nat) : Option Char :=
  if number.isValidChar then some (Char.ofNat number) else none

/-- Reads a scalar in single quotes on, up to its closing quote. -/
def readSingleQuoted (text : List Char) (gap : Gap) : Source → Result (List Char × Source)
  | [] => .error .unclosedQuote
  | p :: rest =>
    let c := p.char
    if isGap c then readSingleQuoted text (gap.addBlank c) rest
    else if isBreak c then readSingleQuoted text (gap.addBreak c) rest
    else if Source.atDocumentMarker (p :: rest) then .error .markerInQuote
    else
      let text := gap.folded ++ text
      if c == '\'' then
        match rest with
        | q :: after =>
          if q.char == '\'' then readSingleQuoted ('\'' :: text) .none after
          else .ok (text.reverse, rest)
        | [] => .ok (text.reverse, rest)
      else readSingleQuoted (c :: text) .none rest

/-- Reads a scalar in double quotes on, up to its closing quote.  `code` holds how many digits of a
character's number are still to come, and the number so far. -/
def readDoubleQuoted (text : List Char) (gap : Gap) (code : Option (Nat × Nat)) :
    Source → Result (List Char × Source)
  | [] => .error .unclosedQuote
  | p :: rest =>
    let c := p.char
    match code with
    | some (more, number) =>
      match hexDigit? c with
      | none => .error .badEscape
      | some d =>
        let number := number * 16 + d
        if 1 < more then readDoubleQuoted text gap (some (more - 1, number)) rest
        else
          match charOf? number with
          | some c => readDoubleQuoted (c :: text) gap none rest
          | none => .error .badEscape
    | none =>
      if isGap c then readDoubleQuoted text (gap.addBlank c) none rest
      else if isBreak c then readDoubleQuoted text (gap.addBreak c) none rest
      else if Source.atDocumentMarker (p :: rest) then .error .markerInQuote
      else
        let text := gap.folded ++ text
        if c == '"' then .ok (text.reverse, rest)
        else if c == '\\' then
          match rest with
          | [] => .error .badEscape
          | q :: after =>
            if isBreak q.char then readDoubleQuoted text (.broken none []) none after
            else
              match escape? q.char with
              | some (.char c) => readDoubleQuoted (c :: text) .none none after
              | some (.code digits) => readDoubleQuoted text .none (some (digits, 0)) after
              | none => .error .badEscape
        else readDoubleQuoted (c :: text) .none none rest

/-- What becomes of the line breaks at the end of a block scalar. -/
inductive Chomp where
  /-- None is kept. -/
  | strip
  /-- The first is kept. -/
  | clip
  /-- All are kept. -/
  | keep
  deriving DecidableEq, Repr

/-- The chomping that an indicator asks for. -/
def chomp? : Option Char → Option Chomp
  | some '+' => some .keep
  | some '-' => some .strip
  | _ => none

/-- The digit that comes next. -/
def digitNext? (source : Source) : Option Nat :=
  source.peek.bind fun c => if '0' ≤ c && c ≤ '9' then some (c.toNat - '0'.toNat) else none

/-- The first line of a block scalar, after its indicator: chomping and indentation in either
order, then nothing but blanks and a comment. -/
def readBlockHeader (source : Source) : Result (Chomp × Option Nat × Source) :=
  let (chomp, increment, source) :=
    match chomp? source.peek with
    | some chomp =>
      match digitNext? (source.drop 1) with
      | some d => (chomp, some d, source.drop 2)
      | none => (chomp, none, source.drop 1)
    | none =>
      match digitNext? source with
      | some d =>
        match chomp? (Source.peek (source.drop 1)) with
        | some chomp => (chomp, some d, source.drop 2)
        | none => (.clip, some d, source.drop 1)
      | none => (.clip, none, source)
  if increment == some 0 then .error .badBlockHeader
  else
    let rest := Source.skipLineEnd source
    if rest.atBreak then .ok (chomp, increment, rest.drop 1) else .error .badBlockHeader

/-- A block scalar being read, latest characters first. -/
structure Block where
  text : List Char := []
  /-- The line break after the last line with text. -/
  lineBreak : Option Char := none
  /-- The line breaks after that one. -/
  others : List Char := []
  /-- Did the last line with text start with a blank? -/
  startsBlank : Bool := false
  /-- Is the reader inside a line with text? -/
  inLine : Bool := false
  /-- The indentation of the block, once known. -/
  indent : Option Nat
  /-- The deepest indentation seen before it is known. -/
  deepest : Nat := 0

/-- The block with the first character of a new line: the breaks before it are folded unless the
block is literal or one of the two lines starts with a blank. -/
def Block.startLine (block : Block) (literal : Bool) (c : Char) : Block :=
  let blank := isGap c
  let joined :=
    if !literal && block.lineBreak == some '\n' && !block.startsBlank && !blank then
      if block.others.isEmpty then ' ' :: block.text else block.others ++ block.text
    else block.others ++ block.lineBreak.toList ++ block.text
  { block with
    text := c :: joined, lineBreak := none, others := [], startsBlank := blank, inLine := true }

/-- Reads the lines of a block scalar.  They are indented by at least `least`, and by what the first
of them shows if no indentation was given. -/
def readBlock (literal : Bool) (least : Nat) (block : Block) : Source → Result (Block × Source)
  | [] => .ok (block, [])
  | p :: rest =>
    let c := p.char
    let column := p.mark.column
    if block.inLine then
      if isBreak c then
        readBlock literal least { block with inLine := false, lineBreak := some c } rest
      else readBlock literal least { block with text := c :: block.text } rest
    else
      let before := block.indent.all fun indent => column < indent
      if before && c == ' ' then readBlock literal least block rest
      else if before && c == '\t' then .error .tabInIndentation
      else
        let deepest := max block.deepest column
        if isBreak c then
          readBlock literal least { block with others := c :: block.others, deepest } rest
        else
          let indent := block.indent.getD (max deepest (max least 1))
          if column == indent then
            readBlock literal least ({ block with indent := some indent }.startLine literal c) rest
          else .ok (block, p :: rest)

/-- The text of a block scalar. -/
def Block.finished (block : Block) (chomp : Chomp) : List Char :=
  let tail :=
    match chomp with
    | .strip => []
    | .clip => block.lineBreak.toList
    | .keep => block.others ++ block.lineBreak.toList
  (tail ++ block.text).reverse

end SerialLock.Yaml
