import SerialLock.Yaml.Source

/-!
# Texts that are no YAML document

Why a text cannot be read as one document.
-/

set_option autoImplicit false

namespace SerialLock.Yaml

/-- Why a text is not a YAML document. -/
inductive Malformed where
  /-- A character that no text may hold. -/
  | forbiddenCharacter
  /-- A character that starts nothing. -/
  | strayCharacter
  /-- A tab where indentation takes spaces. -/
  | tabInIndentation
  /-- A quoted scalar without its end. -/
  | unclosedQuote
  /-- A document marker inside a quoted scalar. -/
  | markerInQuote
  /-- A backslash sequence that is none, or that stands for no character. -/
  | badEscape
  /-- A `:` in a flow collection with an indicator right after it. -/
  | strayColon
  /-- The first line of a block scalar is not one. -/
  | badBlockHeader
  /-- A directive that is none, or that comes twice. -/
  | badDirective
  /-- A version other than 1.1 and 1.2. -/
  | unknownVersion
  /-- An anchor or alias without a name, or with something stuck to it. -/
  | badAnchor
  /-- A tag that is none. -/
  | badTag
  /-- A tag whose handle no directive declares. -/
  | unknownHandle
  /-- A key without its colon. -/
  | keyWithoutColon
  /-- An entry, a key or a value where none may start. -/
  | misplacedIndicator
  /-- A token that does not continue the document. -/
  | unexpectedToken
  /-- An alias of an anchor that was not set before. -/
  | unknownAnchor
  /-- More than one document. -/
  | severalDocuments
  deriving DecidableEq, Repr

/-- The result of reading a part of a text. -/
abbrev Result (α : Type) := Except Malformed α

end SerialLock.Yaml
