import SerialLock.Yaml.Token.Property

/-!
# Reading the tokens of a text

Where a block collection starts and where it ends follows from columns: a stack holds the columns of
the block collections that are open.  That a scalar, an alias or a flow collection is a key shows
only at the colon after it, which has to stand on the same line and within 1024 characters.  So the
reader keeps, for each open flow collection and for the block around them, the last place where a key
may have started, and puts the key token there when the colon comes.
-/

set_option autoImplicit false

namespace SerialLock.Yaml

/-- A place where a key may have started. -/
structure Candidate where
  /-- The number of tokens before it. -/
  number : Nat
  mark : Mark
  /-- Nothing but a key may start there. -/
  required : Bool
  deriving Repr

/-- The state of the reader. -/
structure Lexer where
  /-- What is left of the text. -/
  rest : Source
  /-- The position after the text. -/
  finish : Mark
  /-- The tokens so far, latest first. -/
  tokens : List Lexeme := []
  /-- The columns of the open block collections, innermost first. -/
  columns : List Nat := []
  /-- May a key start here? -/
  keyAllowed : Bool := true
  /-- The place of a possible key in the innermost flow collection, or in the block. -/
  key : Option Candidate := none
  /-- The same for what is around it, innermost first: one for each open flow collection. -/
  outer : List (Option Candidate) := []
  deriving Repr

namespace Lexer

/-- Is a flow collection open? -/
def inFlow (lexer : Lexer) : Bool :=
  !lexer.outer.isEmpty

/-- Where the next character stands. -/
def here (lexer : Lexer) : Mark :=
  match lexer.rest with
  | [] => lexer.finish
  | p :: _ => p.mark

/-- The reader after a token that started at `start` and is followed by `rest`. -/
def emit (lexer : Lexer) (token : Token) (start : Mark) (rest : Source) : Lexer :=
  let after := { lexer with rest }
  { after with tokens := ⟨token, start, after.here⟩ :: lexer.tokens }

/-- The reader after a token of no width. -/
def emitHere (lexer : Lexer) (token : Token) : Lexer :=
  lexer.emit token lexer.here lexer.rest

/-- The reader after a token of the next `width` characters. -/
def emitNext (lexer : Lexer) (token : Token) (width : Nat) : Lexer :=
  lexer.emit token lexer.here (lexer.rest.drop width)

/-- Drops the possible key; an error if only a key may stand there. -/
def dropKey (lexer : Lexer) : Result Lexer :=
  if lexer.key.any Candidate.required then .error .keyWithoutColon
  else .ok { lexer with key := none }

/-- Takes note that a key may start here. -/
def noteKey (lexer : Lexer) : Result Lexer :=
  if lexer.keyAllowed then do
    let lexer ← lexer.dropKey
    let required := !lexer.inFlow && lexer.columns.head? == some lexer.here.column
    return { lexer with key := some ⟨lexer.tokens.length, lexer.here, required⟩ }
  else .ok lexer

/-- Is the place of a possible key too far back for a colon at `mark`? -/
def Candidate.isStale (candidate : Candidate) (mark : Mark) : Bool :=
  candidate.mark.line < mark.line || candidate.mark.index + 1024 < mark.index

/-- Drops the places from which no key can reach up to here. -/
def dropStaleKeys (lexer : Lexer) : Result Lexer :=
  let isStale (key : Option Candidate) := key.any fun c => Candidate.isStale c lexer.here
  let isMissing (key : Option Candidate) := isStale key && key.any Candidate.required
  if isMissing lexer.key || lexer.outer.any isMissing then .error .keyWithoutColon
  else
    let kept (key : Option Candidate) := if isStale key then none else key
    .ok { lexer with key := kept lexer.key, outer := lexer.outer.map kept }

/-- Is `column` to the right of all open block collections? -/
def isDeeper (lexer : Lexer) (column : Nat) : Bool :=
  lexer.columns.head?.all fun c => c < column

/-- Ends the block collections for which `isOver` holds of the column. -/
def closeWhile (lexer : Lexer) (isOver : Nat → Bool) : Lexer :=
  if lexer.inFlow then lexer
  else
    let closed := lexer.columns.takeWhile isOver
    let ends := closed.map fun _ => ⟨.blockEnd, lexer.here, lexer.here⟩
    { lexer with columns := lexer.columns.drop closed.length, tokens := ends ++ lexer.tokens }

/-- Starts a block collection here, unless one is open at this column. -/
def openBlock (lexer : Lexer) (token : Token) : Lexer :=
  if !lexer.inFlow && lexer.isDeeper lexer.here.column then
    { lexer.emitHere token with columns := lexer.here.column :: lexer.columns }
  else lexer

/-- Passes blanks, comments and line breaks up to the next token.  After a line break in a block a
key may start. -/
def skip (inFlow keyAllowed inComment : Bool) : Source → Source × Bool
  | [] => ([], keyAllowed)
  | p :: rest =>
    let c := p.char
    if isBreak c then skip inFlow (keyAllowed || !inFlow) false rest
    else if inComment then skip inFlow keyAllowed true rest
    else if c == ' ' || (c == '\t' && (inFlow || !keyAllowed))
        || (c == byteOrderMark && p.mark.column == 0) then
      skip inFlow keyAllowed false rest
    else if c == '#' then skip inFlow keyAllowed true rest
    else (p :: rest, keyAllowed)

/-- Closes what is open at the end of the text. -/
def close (lexer : Lexer) : Result Lexer :=
  let finish := lexer.finish
  let finish := if finish.column == 0 then finish else ⟨finish.line + 1, 0, finish.index⟩
  ({ lexer with finish }.closeWhile fun _ => true).dropKey

/-- Reads a directive or a document marker, before which every collection is closed. -/
def atLineStart (lexer : Lexer) : Result Lexer := do
  let lexer ← (lexer.closeWhile fun _ => true).dropKey
  return { lexer with keyAllowed := false }

/-- Reads the start of a flow collection. -/
def openFlow (lexer : Lexer) (token : Token) : Result Lexer := do
  let lexer ← lexer.noteKey
  let lexer := { lexer with outer := lexer.key :: lexer.outer, key := none, keyAllowed := true }
  return lexer.emitNext token 1

/-- Reads the end of a flow collection. -/
def closeFlow (lexer : Lexer) (token : Token) : Result Lexer := do
  let lexer ← lexer.dropKey
  let lexer := { lexer with
    key := (lexer.outer.head?).getD none, outer := lexer.outer.drop 1, keyAllowed := false }
  return lexer.emitNext token 1

/-- Reads a comma. -/
def readComma (lexer : Lexer) : Result Lexer := do
  let lexer ← lexer.dropKey
  return { lexer with keyAllowed := true }.emitNext .flowEntry 1

/-- Reads the hyphen of an entry. -/
def readEntry (lexer : Lexer) : Result Lexer :=
  if !lexer.inFlow && !lexer.keyAllowed then .error .misplacedIndicator
  else do
    let lexer ← (lexer.openBlock .blockSequenceStart).dropKey
    return { lexer with keyAllowed := true }.emitNext .blockEntry 1

/-- Reads the question mark of a key. -/
def readKey (lexer : Lexer) : Result Lexer :=
  if !lexer.inFlow && !lexer.keyAllowed then .error .misplacedIndicator
  else do
    let lexer ← (lexer.openBlock .blockMappingStart).dropKey
    return { lexer with keyAllowed := !lexer.inFlow }.emitNext .key 1

/-- Puts the key token, and the start of a mapping that starts with that key, where the key has
started. -/
def insertKey (lexer : Lexer) (key : Candidate) : Lexer :=
  let later := lexer.tokens.take (lexer.tokens.length - key.number)
  let earlier := lexer.tokens.drop (lexer.tokens.length - key.number)
  let opens := !lexer.inFlow && lexer.isDeeper key.mark.column
  let start := if opens then [⟨.blockMappingStart, key.mark, key.mark⟩] else []
  { lexer with
    tokens := later ++ ⟨.key, key.mark, key.mark⟩ :: start ++ earlier
    columns := if opens then key.mark.column :: lexer.columns else lexer.columns
    key := none
    keyAllowed := false }

/-- Reads the colon of a value. -/
def readValue (lexer : Lexer) : Result Lexer :=
  match lexer.key with
  | some key => .ok ((lexer.insertKey key).emitNext .value 1)
  | none =>
    if !lexer.inFlow && !lexer.keyAllowed then .error .misplacedIndicator
    else
      let lexer := lexer.openBlock .blockMappingStart
      .ok ({ lexer with keyAllowed := !lexer.inFlow }.emitNext .value 1)

/-- Reads what may start a key: an alias, an anchor, a tag or a scalar of one line. -/
def readSimple (lexer : Lexer) (read : Source → Result (Token × Source)) (width : Nat) :
    Result Lexer := do
  let lexer ← lexer.noteKey
  let (token, rest) ← read (lexer.rest.drop width)
  return { lexer with keyAllowed := false }.emit token lexer.here rest

/-- Reads a plain scalar.  After one of several lines a key may start. -/
def readPlainScalar (lexer : Lexer) : Result Lexer := do
  let lexer ← lexer.noteKey
  let indent := (lexer.columns.head?.map (· + 1)).getD 0
  let plain ← readPlain lexer.inFlow indent [] .none lexer.rest
  return { lexer with keyAllowed := plain.broken }.emit (.scalar .plain plain.text) lexer.here
    plain.rest

/-- Reads a block scalar. -/
def readBlockScalar (lexer : Lexer) (literal : Bool) : Result Lexer := do
  let lexer ← lexer.dropKey
  let (chomp, increment, rest) ← readBlockHeader (lexer.rest.drop 1)
  let parent := lexer.columns.head?
  let indent := increment.map fun increment => parent.getD 0 + increment
  let (block, rest) ← readBlock literal ((parent.map (· + 1)).getD 0) { indent } rest
  let style := if literal then Style.literal else Style.folded
  return { lexer with keyAllowed := true }.emit (.scalar style (block.finished chomp)) lexer.here
    rest

/-- The scalar of a style, from the reader of its text. -/
def asScalar (style : Style) (read : Source → Result (List Char × Source)) (source : Source) :
    Result (Token × Source) :=
  (read source).map fun (text, rest) => (.scalar style text, rest)

/-- May a plain scalar start with the character `c`, which `rest` follows? -/
def startsPlain (inFlow : Bool) (c : Char) (rest : Source) : Bool :=
  if c == '-' then !rest.peek.any isGap
  else if c == '?' || c == ':' then !inFlow && !rest.atGap
  else !(isGap c || ",[]\x7b\x7d#&*!|>'\"%@\x60".toList.contains c)

/-- Reads the token that starts with the character `c`, which `rest` follows. -/
def readToken (lexer : Lexer) (c : Char) (rest : Source) : Result Lexer :=
  let inFlow := lexer.inFlow
  if c == '%' && lexer.here.column == 0 then do
    let lexer ← lexer.atLineStart
    let (token, rest) ← readDirective rest
    return lexer.emit token lexer.here rest
  else if lexer.rest.atMarker '-' then do
    return (← lexer.atLineStart).emitNext .documentStart 3
  else if lexer.rest.atMarker '.' then do
    return (← lexer.atLineStart).emitNext .documentEnd 3
  else if c == '[' then lexer.openFlow .flowSequenceStart
  else if c == '\x7b' then lexer.openFlow .flowMappingStart
  else if c == ']' then lexer.closeFlow .flowSequenceEnd
  else if c == '\x7d' then lexer.closeFlow .flowMappingEnd
  else if c == ',' then lexer.readComma
  else if c == '-' && rest.atGap then lexer.readEntry
  else if c == '?' && (inFlow || rest.atGap) then lexer.readKey
  else if c == ':' && (inFlow || rest.atGap) then lexer.readValue
  else if c == '*' then
    lexer.readSimple (fun s => (readAnchor s).map fun (name, rest) => (.alias name, rest)) 1
  else if c == '&' then
    lexer.readSimple (fun s => (readAnchor s).map fun (name, rest) => (.anchor name, rest)) 1
  else if c == '!' then lexer.readSimple (readTag inFlow) 1
  else if c == '|' && !inFlow then lexer.readBlockScalar true
  else if c == '>' && !inFlow then lexer.readBlockScalar false
  else if c == '\'' then
    lexer.readSimple (asScalar .singleQuoted (readSingleQuoted [] .none)) 1
  else if c == '"' then
    lexer.readSimple (asScalar .doubleQuoted (readDoubleQuoted [] .none none)) 1
  else if startsPlain inFlow c rest then lexer.readPlainScalar
  else .error .strayCharacter

/-- Passes to the next token, and closes the block collections that end before it. -/
def approach (lexer : Lexer) : Result Lexer := do
  let (rest, keyAllowed) := skip lexer.inFlow lexer.keyAllowed false lexer.rest
  let lexer ← { lexer with rest, keyAllowed }.dropStaleKeys
  return lexer.closeWhile fun column => lexer.here.column < column

/-- Reads the whole text, in at most `steps` tokens. -/
def run : Nat → Lexer → Result Lexer
  | 0, lexer => .ok lexer
  | steps + 1, lexer => do
    let lexer ← lexer.approach
    match lexer.rest with
    | [] => lexer.close
    | p :: rest => run steps (← lexer.readToken p.char rest)

end Lexer

/-- The tokens of a text. -/
def lexemes (text : List Char) : Result (List Lexeme) :=
  if text.all isAllowed then
    let text := withoutByteOrderMark text
    let start : Mark := ⟨0, 0, 0⟩
    -- each token takes a character away, and a last step closes what is open
    let steps := text.length + 1
    let lexer := { rest := placed start text, finish := finish start text : Lexer }
    (Lexer.run steps lexer).map fun lexer => lexer.tokens.reverse
  else .error .forbiddenCharacter

end SerialLock.Yaml
