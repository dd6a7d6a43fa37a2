/-!
# Decimal numbers as binary numbers of 64 bits

A finite number of 64 bits is a significand below 2^53 times a power of two from 2^-1074 to 2^971.
A decimal number stands for the nearest of them; of two equally near ones for that with the even
significand.  What lies beyond the greatest has no such number.
-/

set_option autoImplicit false

namespace SerialLock

/-- A finite number of 64 bits, `significand * 2 ^ exponent`, with a sign of its own. -/
structure Binary64 where
  negative : Bool
  significand : Nat
  exponent : Int
  deriving DecidableEq, Repr

namespace Binary64

/-- The exponent of the smallest numbers. -/
def leastExponent : Int := -1074

/-- The exponent of the greatest numbers. -/
def greatestExponent : Int := 971

/-- The fraction `numerator / denominator` times `2 ^ shift`, again as a fraction. -/
def scaled (numerator denominator : Nat) (shift : Int) : Nat × Nat :=
  if 0 ≤ shift then (numerator * Nat.pow 2 shift.toNat, denominator)
  else (numerator, denominator * Nat.pow 2 (-shift).toNat)

/-- The whole number nearest to a fraction; of two the even one. -/
def nearest (numerator denominator : Nat) : Nat :=
  let whole := numerator / denominator
  let rest := numerator % denominator
  if denominator < 2 * rest || (2 * rest == denominator && whole % 2 == 1) then whole + 1 else whole

/-- The exponent at which the fraction has a whole part of 53 bits, or the least exponent. -/
def exponentOf (numerator denominator : Nat) : Int :=
  let guess := max leastExponent ((Nat.log2 numerator : Int) - Nat.log2 denominator - 53)
  let (n, d) := scaled numerator denominator (-guess)
  if Nat.pow 2 53 ≤ n / d then guess + 1 else guess

/-- The number nearest to a positive fraction. -/
def ofFraction? (negative : Bool) (numerator denominator : Nat) : Option Binary64 :=
  let exponent := exponentOf numerator denominator
  let (n, d) := scaled numerator denominator (-exponent)
  let significand := nearest n d
  let (significand, exponent) :=
    if significand == Nat.pow 2 53 then (Nat.pow 2 52, exponent + 1) else (significand, exponent)
  if exponent ≤ greatestExponent then some ⟨negative, significand, exponent⟩ else none

/-- The number nearest to `digits * 10 ^ exponent`, where `count` digits were written.  Numbers of
more than 310 places before the point are too great, and those with more than 330 zeros after it
are too small to differ from zero. -/
def ofDecimal? (negative : Bool) (digits count : Nat) (exponent : Int) : Option Binary64 :=
  if digits == 0 || exponent + count < -330 then some ⟨negative, 0, leastExponent⟩
  else if 0 ≤ exponent then
    if 310 < exponent then none else ofFraction? negative (digits * Nat.pow 10 exponent.toNat) 1
  else ofFraction? negative digits (Nat.pow 10 (-exponent).toNat)

end Binary64

end SerialLock
