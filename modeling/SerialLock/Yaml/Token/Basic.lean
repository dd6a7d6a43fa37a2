import SerialLock.Text.Utf8
import SerialLock.Yaml.Scalar

/-!
# The tokens of a YAML text

A text is a sequence of tokens: indicators, scalars with their properties, and tokens of no width
that say where a block collection starts and ends.
-/

set_option autoImplicit false

namespace SerialLock.Yaml

/-- A token. -/
inductive Token where
  /-- The version directive, which comes at most once and changes nothing. -/
  | version
  /-- A directive that gives a tag handle its meaning. -/
  | tagHandle (handle : List Char) (meaning : Bytes)
  | documentStart
  | documentEnd
  | blockSequenceStart
  | blockMappingStart
  | blockEnd
  | flowSequenceStart
  | flowSequenceEnd
  | flowMappingStart
  | flowMappingEnd
  | blockEntry
  | flowEntry
  | key
  | value
  | alias (name : List Char)
  | anchor (name : List Char)
  | tag (handle : List Char) (suffix : Bytes)
  | scalar (style : Style) (text : List Char)
  deriving DecidableEq, Repr

/-- A token and where it stands. -/
structure Lexeme where
  token : Token
  start : Mark
  /-- The position after it. -/
  finish : Mark
  deriving DecidableEq, Repr

end SerialLock.Yaml
