import SerialLock.Text.Blank
import SerialLock.Text.Utf8

/-!
# Process numbers in lock files

A lock file holds the number of the process that owns the lock, in decimal, with white space around
it.  Numbers are kept within 64 bits: reading stops at the first digit that leads out of that range
and yields the bound, whatever follows that digit.
-/

set_option autoImplicit false

namespace SerialLock.Pid

/-- The greatest number that a lock file can name. -/
def greatest : Int := 0x7FFFFFFFFFFFFFFF

/-- The least number that a lock file can name. -/
def least : Int := -0x8000000000000000

/-- The number that stands for "nobody". -/
def noOwner : Int := 0

/-- The value of a decimal digit. -/
def digit? (c : Char) : Option Nat :=
  if '0' ≤ c && c ≤ '9' then some (c.toNat - '0'.toNat) else none

/-- Reads digits after those that amount to `value`, upwards. -/
def readUp (value : Int) : List Char → Option Int
  | [] => some value
  | c :: rest =>
    match digit? c with
    | none => none
    | some d =>
      let next := value * 10 + d
      if next > greatest then some greatest else readUp next rest

/-- Reads digits after those that amount to `value`, downwards. -/
def readDown (value : Int) : List Char → Option Int
  | [] => some value
  | c :: rest =>
    match digit? c with
    | none => none
    | some d =>
      let next := value * 10 - d
      if next < least then some least else readDown next rest

/-- The number that a text spells: an optional sign, then at least one digit. -/
def ofText? : List Char → Option Int
  | [] => none
  | '+' :: [] => none
  | '-' :: [] => none
  | '+' :: digits => readUp 0 digits
  | '-' :: digits => readDown 0 digits
  | digits => readUp 0 digits

/-- The number that the contents of a lock file name. -/
def ofBytes? (contents : Bytes) : Option Int :=
  (Utf8.decode? contents).bind fun text => ofText? (Text.trim text)

end SerialLock.Pid
