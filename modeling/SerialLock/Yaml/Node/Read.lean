import SerialLock.Yaml.Node.Basic
import SerialLock.Yaml.Token.Read

/-!
# Reading a document

A document is read from its tokens by recursive descent.  A node may be missing where a key, a value
or an entry is expected; a blank scalar stands there instead.
-/

set_option autoImplicit false

namespace SerialLock.Yaml

/-- What the handles of tags stand for. -/
abbrev Handles := List (List Char × Bytes)

/-- Where the reader stands. -/
structure Cursor where
  /-- The tokens that are left. -/
  lexemes : List Lexeme
  /-- The anchors set so far with their numbers, each name once. -/
  anchors : List (List Char × Nat) := []

namespace Cursor

/-- The next token. -/
def peek (cursor : Cursor) : Option Token :=
  cursor.lexemes.head?.map Lexeme.token

/-- Where the next token starts. -/
def here (cursor : Cursor) : Mark :=
  (cursor.lexemes.head?.map Lexeme.start).getD ⟨0, 0, 0⟩

/-- The cursor after the next token. -/
def advance (cursor : Cursor) : Cursor :=
  { cursor with lexemes := cursor.lexemes.drop 1 }

/-- Where the next token ends. -/
def afterNext (cursor : Cursor) : Mark :=
  (cursor.lexemes.head?.map Lexeme.finish).getD ⟨0, 0, 0⟩

/-- Sets an anchor.  Its number is the count of the names set before. -/
def setAnchor (cursor : Cursor) (name : List Char) : Nat × Cursor :=
  let number := cursor.anchors.length
  let others := cursor.anchors.filter fun known => known.1 != name
  (number, { cursor with anchors := (name, number) :: others })

end Cursor

/-- What is said about a node before it comes. -/
structure Properties where
  /-- Where the node starts. -/
  mark : Mark
  anchor : Option Nat := none
  tag : Option Bytes := none
  /-- Is anything said? -/
  given : Bool := false

/-- The tag that a handle and a suffix amount to. -/
def expand? (handles : Handles) (handle : List Char) (suffix : Bytes) : Option Bytes :=
  if handle.isEmpty then some suffix
  else (handles.lookup handle).map fun meaning => meaning ++ suffix

/-- Reads the anchor that may come next. -/
def readAnchorProperty (properties : Properties) (cursor : Cursor) : Properties × Cursor :=
  match cursor.peek with
  | some (.anchor name) =>
    let (number, cursor) := cursor.advance.setAnchor name
    ({ properties with anchor := some number, given := true }, cursor)
  | _ => (properties, cursor)

/-- Reads the tag that may come next. -/
def readTagProperty (handles : Handles) (properties : Properties) (cursor : Cursor) :
    Result (Properties × Cursor) :=
  match cursor.peek with
  | some (.tag handle suffix) =>
    match expand? handles handle suffix with
    | some tag => .ok ({ properties with tag := some tag, given := true }, cursor.advance)
    | none => .error .unknownHandle
  | _ => .ok (properties, cursor)

/-- Reads the anchor and the tag that may come next, in either order. -/
def readProperties (handles : Handles) (cursor : Cursor) : Result (Properties × Cursor) := do
  let properties : Properties := { mark := cursor.here }
  match cursor.peek with
  | some (.anchor _) =>
    let (properties, cursor) := readAnchorProperty properties cursor
    readTagProperty handles properties cursor
  | _ =>
    let (properties, cursor) ← readTagProperty handles properties cursor
    return readAnchorProperty properties cursor

/-- The tag of a scalar; that of the form `!` says no more than no tag. -/
def scalarTag (tag : Option Bytes) : Option Bytes :=
  if tag == some (Utf8.encode ['!']) then none else tag

/-- Does the token end an entry of a block sequence? -/
def endsEntry (indentless : Bool) : Option Token → Bool
  | some .blockEntry | some .blockEnd => true
  | some .key | some .value => indentless
  | _ => false

/-- Does the token end a key or a value of a block mapping? -/
def endsBlockPart : Option Token → Bool
  | some .key | some .value | some .blockEnd => true
  | _ => false

/-- Does the token end a key in a flow collection? -/
def endsFlowKey (close : Token) (token : Option Token) : Bool :=
  token == some .value || token == some .flowEntry || token == some close

/-- Does the token end a value in a flow collection? -/
def endsFlowValue (close : Token) (token : Option Token) : Bool :=
  token == some .flowEntry || token == some close

/-- Passes the comma before all entries of a flow collection but the first. -/
def passComma (first : Bool) (cursor : Cursor) : Result Cursor :=
  if first then .ok cursor
  else if cursor.peek == some .flowEntry then .ok cursor.advance
  else .error .unexpectedToken

/-- The context in which a node is read. -/
inductive Context where
  | flow
  | block
  /-- In a block mapping, where the entries of a sequence need no indentation. -/
  | part
  deriving DecidableEq, Repr

mutual

/-- Reads a node. -/
def readNode (handles : Handles) (steps : Nat) (context : Context) (cursor : Cursor) :
    Result (Node × Cursor) :=
  match steps with
  | 0 => .error .unexpectedToken
  | steps + 1 => do
    if let some (.alias name) := cursor.peek then
      match cursor.anchors.lookup name with
      | some number => return (.alias cursor.here number, cursor.advance)
      | none => .error .unknownAnchor
    else
      let (properties, cursor) ← readProperties handles cursor
      let mark := properties.mark
      let anchor := properties.anchor
      match cursor.peek, context with
      | some .blockEntry, .part =>
        let (items, cursor) ← readItems handles steps true cursor
        return (.sequence mark anchor items, cursor)
      | some (.scalar style text), _ =>
        return (.scalar mark anchor (scalarTag properties.tag) style text, cursor.advance)
      | some .flowSequenceStart, _ =>
        let (items, cursor) ← readFlowItems handles steps true cursor.advance
        return (.sequence mark anchor items, cursor)
      | some .flowMappingStart, _ =>
        let (entries, cursor) ← readFlowEntries handles steps true cursor.advance
        return (.mapping mark anchor entries, cursor)
      | some .blockSequenceStart, .block | some .blockSequenceStart, .part =>
        let (items, cursor) ← readItems handles steps false cursor.advance
        return (.sequence mark anchor items, cursor)
      | some .blockMappingStart, .block | some .blockMappingStart, .part =>
        let (entries, cursor) ← readEntries handles steps cursor.advance
        return (.mapping mark anchor entries, cursor)
      | _, _ =>
        if properties.given then return (.scalar mark anchor properties.tag .plain [], cursor)
        else .error .unexpectedToken

/-- Reads the entries of a block sequence, with the token that ends them unless they need no
indentation. -/
def readItems (handles : Handles) (steps : Nat) (indentless : Bool) (cursor : Cursor) :
    Result (List Node × Cursor) :=
  match steps with
  | 0 => .error .unexpectedToken
  | steps + 1 => do
    match cursor.peek with
    | some .blockEntry =>
      let after := cursor.advance
      let (item, next) ←
        if endsEntry indentless after.peek then .ok (Node.blank cursor.afterNext, after)
        else readNode handles steps .block after
      let (items, last) ← readItems handles steps indentless next
      return (item :: items, last)
    | token =>
      if indentless then return ([], cursor)
      else if token == some .blockEnd then return ([], cursor.advance)
      else .error .unexpectedToken

/-- Reads the entries of a block mapping, with the token that ends them. -/
def readEntries (handles : Handles) (steps : Nat) (cursor : Cursor) :
    Result (List (Node × Node) × Cursor) :=
  match steps with
  | 0 => .error .unexpectedToken
  | steps + 1 => do
    match cursor.peek with
    | some .key =>
      let after := cursor.advance
      let (key, next) ←
        if endsBlockPart after.peek then .ok (Node.blank cursor.afterNext, after)
        else readNode handles steps .part after
      let (value, next) ←
        if next.peek == some .value then
          let after := next.advance
          if endsBlockPart after.peek then .ok (Node.blank next.afterNext, after)
          else readNode handles steps .part after
        else .ok (Node.blank next.here, next)
      let (entries, last) ← readEntries handles steps next
      return ((key, value) :: entries, last)
    | some .blockEnd => return ([], cursor.advance)
    | _ => .error .unexpectedToken

/-- Reads a value in a flow collection, which may be missing. -/
def readFlowValue (handles : Handles) (steps : Nat) (close : Token) (cursor : Cursor) :
    Result (Node × Cursor) :=
  match steps with
  | 0 => .error .unexpectedToken
  | steps + 1 =>
    let after := if cursor.peek == some .value then cursor.advance else cursor
    if cursor.peek == some .value && !endsFlowValue close after.peek then
      readNode handles steps .flow after
    else .ok (Node.blank after.here, after)

/-- Reads the items of a flow sequence, with the bracket that ends them.  An item may be a single
pair of key and value. -/
def readFlowItems (handles : Handles) (steps : Nat) (first : Bool) (cursor : Cursor) :
    Result (List Node × Cursor) :=
  match steps with
  | 0 => .error .unexpectedToken
  | steps + 1 => do
    if cursor.peek == some .flowSequenceEnd then return ([], cursor.advance)
    else
      let cursor ← passComma first cursor
      if cursor.peek == some .flowSequenceEnd then return ([], cursor.advance)
      else
        let (item, next) ←
          if cursor.peek == some .key then do
            let after := cursor.advance
            let (key, next) ←
              -- where the key is missing, the token that stands in its place is passed
              if endsFlowKey .flowSequenceEnd after.peek then
                .ok (Node.blank after.afterNext, after.advance)
              else readNode handles steps .flow after
            let (value, next) ← readFlowValue handles steps .flowSequenceEnd next
            .ok (Node.mapping cursor.here none [(key, value)], next)
          else readNode handles steps .flow cursor
        let (items, last) ← readFlowItems handles steps false next
        return (item :: items, last)

/-- Reads the entries of a flow mapping, with the brace that ends them. -/
def readFlowEntries (handles : Handles) (steps : Nat) (first : Bool) (cursor : Cursor) :
    Result (List (Node × Node) × Cursor) :=
  match steps with
  | 0 => .error .unexpectedToken
  | steps + 1 => do
    if cursor.peek == some .flowMappingEnd then return ([], cursor.advance)
    else
      let cursor ← passComma first cursor
      if cursor.peek == some .flowMappingEnd then return ([], cursor.advance)
      else
        let (entry, next) ←
          if cursor.peek == some .key then do
            let after := cursor.advance
            let (key, next) ←
              if endsFlowKey .flowMappingEnd after.peek then .ok (Node.blank after.here, after)
              else readNode handles steps .flow after
            let (value, next) ← readFlowValue handles steps .flowMappingEnd next
            .ok ((key, value), next)
          else do
            let (key, next) ← readNode handles steps .flow cursor
            .ok ((key, Node.blank next.here), next)
        let (entries, last) ← readFlowEntries handles steps false next
        return (entry :: entries, last)

end

/-- Reads the directives of a document: the handles that they give a meaning. -/
def readDirectives (version : Bool) (handles : Handles) : List Lexeme → Result (Handles × List Lexeme)
  | [] => .ok (handles, [])
  | lexeme :: rest =>
    match lexeme.token with
    | .version => if version then .error .badDirective else readDirectives true handles rest
    | .tagHandle handle meaning =>
      if (handles.lookup handle).isSome then .error .badDirective
      else readDirectives version ((handle, meaning) :: handles) rest
    | _ => .ok (handles, lexeme :: rest)

/-- The handles that need no directive. -/
def usualHandles : Handles :=
  [("!".toList, Utf8.ofString "!"), ("!!".toList, Utf8.ofString "tag:yaml.org,2002:")]

/-- Is the token one of those that stand before or after a document? -/
def isBetweenDocuments : Token → Bool
  | .version | .tagHandle .. | .documentStart | .documentEnd => true
  | _ => false

/-- Reads the root of a document, and requires that nothing but ends of documents follows. -/
def readRoot (handles : Handles) (lexemes : List Lexeme) : Result Document := do
  -- each token is passed once, and at most three readers are nested for one token
  let steps := 3 * lexemes.length + 8
  let (root, cursor) ← readNode handles steps .block { lexemes }
  if cursor.lexemes.all fun lexeme => lexeme.token == .documentEnd then return ⟨some root⟩
  else if cursor.peek.any isBetweenDocuments then .error .severalDocuments
  else .error .unexpectedToken

/-- The document that the tokens amount to. -/
def Document.ofLexemes (lexemes : List Lexeme) : Result Document := do
  let (handles, rest) ← readDirectives false [] lexemes
  match rest with
  | [] => if lexemes.isEmpty then return ⟨none⟩ else .error .unexpectedToken
  | first :: content =>
    if first.token == .documentStart then
      if content.all fun lexeme => lexeme.token == .documentEnd then
        return ⟨some (Node.blank first.finish)⟩
      else if content.head?.any fun lexeme => isBetweenDocuments lexeme.token then
        .error .severalDocuments
      else readRoot (handles ++ usualHandles) content
    else if handles.isEmpty && rest.length == lexemes.length then readRoot usualHandles rest
    else .error .unexpectedToken

/-- The document that a text spells. -/
def Document.ofText (text : List Char) : Result Document := do
  Document.ofLexemes (← lexemes text)

end SerialLock.Yaml
