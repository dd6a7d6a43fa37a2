/-!
# Texts and bytes

File contents, path names and command line arguments are strings of bytes; device names and
settings are texts.  UTF-8 leads from one to the other.  `encode` writes a text, `decode?` reads
strictly, and `decodeLossy` puts U+FFFD for each longest run of bytes that begins a character but
does not finish it.

Decoding is a machine that takes one byte at a time: between two characters, or inside one with
the range that the next byte has to lie in.
-/

set_option autoImplicit false

namespace SerialLock

/-- A string of bytes. -/
abbrev Bytes := List UInt8

namespace Utf8

/-- The bytes of a text. -/
def encode (text : List Char) : Bytes :=
  text.flatMap String.utf8EncodeChar

/-- Where the decoder stands between two bytes. -/
inductive State where
  /-- Between two characters. -/
  | between
  /-- Inside a character: the next byte lies in `low` to `high`, `more` others follow it, and
  `bits` is what the bytes so far amount to. -/
  | within (more : Nat) (low high : UInt8) (bits : Nat)
  deriving DecidableEq, Repr

/-- The state after the first byte of a character of several bytes. -/
def opening? (b : UInt8) : Option State :=
  let bits (mask : UInt8) := (b &&& mask).toNat
  if 0xC2 ≤ b && b ≤ 0xDF then some (.within 0 0x80 0xBF (bits 0x1F))
  else if b == 0xE0 then some (.within 1 0xA0 0xBF (bits 0x0F))
  else if b == 0xED then some (.within 1 0x80 0x9F (bits 0x0F))
  else if 0xE1 ≤ b && b ≤ 0xEF then some (.within 1 0x80 0xBF (bits 0x0F))
  else if b == 0xF0 then some (.within 2 0x90 0xBF (bits 0x07))
  else if 0xF1 ≤ b && b ≤ 0xF3 then some (.within 2 0x80 0xBF (bits 0x07))
  else if b == 0xF4 then some (.within 2 0x80 0x8F (bits 0x07))
  else none

/-- A byte read between two characters: a character of its own, the start of one, or an error. -/
def lead (b : UInt8) : State × List (Option Char) :=
  if b < 0x80 then (.between, [some (Char.ofNat b.toNat)])
  else
    match opening? b with
    | some state => (state, [])
    | none => (.between, [none])

/-- One byte: the next state, and the characters that became known (`none` for a run of bytes that
is no character). -/
def step : State → UInt8 → State × List (Option Char)
  | .between, b => lead b
  | .within more low high bits, b =>
    if low ≤ b && b ≤ high then
      let bits := bits * 64 + (b &&& 0x3F).toNat
      match more with
      | 0 => (.between, [some (Char.ofNat bits)])
      | more + 1 => (.within more 0x80 0xBF bits, [])
    else
      let (state, found) := lead b
      (state, none :: found)

/-- The characters of a string of bytes, with `none` for each run that is no character. -/
def pieces : State → Bytes → List (Option Char)
  | .between, [] => []
  | .within .., [] => [none]
  | state, b :: rest =>
    let (state, found) := step state b
    found ++ pieces state rest

/-- The text that the bytes spell, if all of them belong to characters. -/
def decode? (bytes : Bytes) : Option (List Char) :=
  let found := pieces .between bytes
  if found.all Option.isSome then some (found.filterMap id) else none

/-- The text that the bytes spell, with U+FFFD for what is no character. -/
def decodeLossy (bytes : Bytes) : List Char :=
  (pieces .between bytes).map fun piece => piece.getD '\uFFFD'

/-- The bytes of a string. -/
def ofString (text : String) : Bytes :=
  encode text.toList

/-- The string that the bytes spell, if all of them belong to characters. -/
def toString? (bytes : Bytes) : Option String :=
  (decode? bytes).map String.ofList

/-- The bytes as a message shows them. -/
def display (bytes : Bytes) : String :=
  String.ofList (decodeLossy bytes)

end Utf8

end SerialLock
