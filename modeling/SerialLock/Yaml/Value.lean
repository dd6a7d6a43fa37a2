import SerialLock.Decimal.Shortest
import SerialLock.Yaml.Scalar

/-!
# What a plain scalar means

A plain scalar without a tag is null, a truth value, a number, or else a text, by the way it is
written.  Zeros at the start of a number make it a text, so that codes like `007` stay what they
are.
-/

set_option autoImplicit false

namespace SerialLock.Yaml

/-- What a scalar means. -/
inductive Value where
  | null
  | boolean (value : Bool)
  /-- A whole number of at most 128 bits. -/
  | integer (value : Int)
  | real (value : Binary64)
  | infinite (negative : Bool)
  | notANumber
  | text (value : List Char)
  deriving DecidableEq, Repr

/-- Is null written like this? -/
def isNull (text : List Char) : Bool :=
  ["~", "null", "Null", "NULL"].contains (String.ofList text)

/-- The truth value written like this. -/
def boolean? (text : List Char) : Option Bool :=
  if ["true", "True", "TRUE"].contains (String.ofList text) then some true
  else if ["false", "False", "FALSE"].contains (String.ofList text) then some false
  else none

/-- The text without the sign at its start. -/
def unsigned : List Char → List Char
  | '+' :: rest => rest
  | '-' :: rest => rest
  | text => text

/-- Digits that are no number: several, with a zero first. -/
def isCode (text : List Char) : Bool :=
  match unsigned text with
  | '0' :: c :: rest => (c :: rest).all Char.isDigit
  | _ => false

/-- The digits of a number as a whole number; there has to be one at least. -/
def digits? (base : Nat) (text : List Char) : Option Nat :=
  if text.isEmpty then none
  else text.foldl (fun value c => value.bind fun value =>
    (hexDigit? c).bind fun d => if d < base then some (value * base + d) else none) (some 0)

/-- A whole number without its sign: in hexadecimal, octal or binary with a mark of the base in
front, or in decimal. -/
def magnitude? (isCode : Bool) : List Char → Option Nat
  | '0' :: 'x' :: rest => digits? 16 rest
  | '0' :: 'o' :: rest => digits? 8 rest
  | '0' :: 'b' :: rest => digits? 2 rest
  | text => if isCode then none else digits? 10 text

/-- The whole number written like this, if it lies between -2^127 and 2^128. -/
def integer? (text : List Char) : Option Int :=
  match text with
  | '-' :: rest =>
    (magnitude? (isCode text) rest).bind fun n =>
      if n ≤ 0x80000000000000000000000000000000 then some (-n) else none
  | '+' :: rest =>
    (magnitude? (isCode text) rest).bind fun n =>
      if n < 0x100000000000000000000000000000000 then some n else none
  | text =>
    (magnitude? (isCode text) text).bind fun n =>
      if n < 0x100000000000000000000000000000000 then some n else none

/-- The exponent of a decimal number: an optional sign and digits. -/
def exponent? (text : List Char) : Option Int :=
  match text with
  | '-' :: rest => (digits? 10 rest).map fun n => -(n : Int)
  | '+' :: rest => (digits? 10 rest).map Int.ofNat
  | text => (digits? 10 text).map Int.ofNat

/-- A decimal number without its sign: digits with at most one point among them, then an exponent
if there is a letter for it. -/
def decimal? (negative : Bool) (text : List Char) : Option Binary64 :=
  let isMark (c : Char) : Bool := c == 'e' || c == 'E'
  let mantissa := text.takeWhile fun c => !isMark c
  let whole := mantissa.takeWhile (· != '.')
  let places := (mantissa.dropWhile (· != '.')).drop 1
  let exponent? := match text.dropWhile fun c => !isMark c with
    | [] => some 0
    | _ :: rest => exponent? rest
  match digits? 10 (whole ++ places), exponent? with
  | some digits, some exponent =>
    Binary64.ofDecimal? negative digits (whole.length + places.length) (exponent - places.length)
  | _, _ => none

/-- Is infinity written like this? -/
def isInfinity (text : List Char) : Bool :=
  [".inf", ".Inf", ".INF"].contains (String.ofList text)

/-- Is "not a number" written like this? -/
def isNotANumber (text : List Char) : Bool :=
  [".nan", ".NaN", ".NAN"].contains (String.ofList text)

/-- The number written like this, infinities and "not a number" included. -/
def real? (text : List Char) : Option Value :=
  if isNotANumber text then some .notANumber
  else
    match text with
    | '-' :: rest =>
      if isInfinity rest then some (.infinite true) else (decimal? true rest).map .real
    | '+' :: rest =>
      if isInfinity rest then some (.infinite false) else (decimal? false rest).map .real
    | text =>
      if isInfinity text then some (.infinite false) else (decimal? false text).map .real

/-- What a plain scalar without a tag means. -/
def Value.ofPlain (text : List Char) : Value :=
  if text.isEmpty || isNull text then .null
  else
    match boolean? text with
    | some value => .boolean value
    | none =>
      match integer? text with
      | some value => .integer value
      | none => ((if isCode text then none else real? text)).getD (.text text)

end SerialLock.Yaml
