import SerialLock.Decimal.Binary64

/-!
# The shortest decimal that reads back

A number of 64 bits is written with the fewest digits that no other such number is nearer to, and of
several texts of that length with the one nearest to its value.  All digits are written out: there
is no exponent, and a whole number ends in `.0`.
-/

set_option autoImplicit false

namespace SerialLock.Binary64

/-- The numbers that read as one: from `low / scale` to `high / scale` around `value / scale`, ends
included or not. -/
structure Interval where
  low : Nat
  value : Nat
  high : Nat
  scale : Nat
  closed : Bool

/-- The interval of the decimals that read as the number. -/
def interval (number : Binary64) : Interval :=
  let m := number.significand
  -- the next number below is nearer where the exponent changes
  let below := if m == Nat.pow 2 52 && leastExponent < number.exponent then 1 else 2
  let up := Nat.pow 2 number.exponent.toNat
  ⟨(4 * m - below) * up, 4 * m * up, (4 * m + 2) * up, 4 * Nat.pow 2 (-number.exponent).toNat,
    m % 2 == 0⟩

/-- Does `digits * step / scale` lie in the interval? -/
def Interval.contains (interval : Interval) (value : Nat) : Bool :=
  if interval.closed then interval.low ≤ value && value ≤ interval.high
  else interval.low < value && value < interval.high

/-- The interval with all its numbers multiplied by `10 ^ -exponent`, and the width of a unit on that
scale. -/
def Interval.atExponent (interval : Interval) (exponent : Int) : Interval × Nat :=
  let up := Nat.pow 10 (-exponent).toNat
  ({ interval with
      low := interval.low * up, value := interval.value * up, high := interval.high * up },
    interval.scale * Nat.pow 10 exponent.toNat)

/-- The whole number of units of `10 ^ exponent` that is nearest to the value, among those that read
as the number. -/
def unitsAt? (number : Binary64) (exponent : Int) : Option Nat :=
  let (interval, unit) := number.interval.atExponent exponent
  let below := interval.value / unit
  let isIn (units : Nat) := interval.contains (units * unit)
  let nearer := if 2 * (interval.value % unit) < unit then below else below + 1
  let farther := if nearer == below then below + 1 else below
  if isIn nearer then some nearer else if isIn farther then some farther else none

/-- The first exponent from `exponent` downwards, in so many steps, at which some whole number of
units reads as the number. -/
def search (number : Binary64) : Nat → Int → Nat × Int
  | 0, exponent => (0, exponent)
  | steps + 1, exponent =>
    match number.unitsAt? exponent with
    | some units => (units, exponent)
    | none => number.search steps (exponent - 1)

/-- The digits of the shortest decimal that reads as the number, and the exponent of the last. -/
def shortest (number : Binary64) : Nat × Int :=
  if number.significand == 0 then (0, 0) else number.search 700 310

/-- The digits of a number written out, with a point before the last `places` of them. -/
def pointed (digits : List Char) (places : Nat) : List Char :=
  let digits := List.replicate (places + 1 - digits.length) '0' ++ digits
  digits.take (digits.length - places) ++ '.' :: digits.drop (digits.length - places)

/-- The number in decimal. -/
def text (number : Binary64) : List Char :=
  let (units, exponent) := number.shortest
  let digits := Nat.toDigits 10 units
  let body :=
    if 0 ≤ exponent then
      digits ++ List.replicate (if units == 0 then 0 else exponent.toNat) '0' ++ ['.', '0']
    else pointed digits (-exponent).toNat
  if number.negative then '-' :: body else body

end SerialLock.Binary64
