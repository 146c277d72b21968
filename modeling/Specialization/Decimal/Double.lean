import Specialization.Decimal.Integer

/-!
Double-precision numbers as 64-bit words. Two doubles are the same when their words are, so a
number that is not a number equals itself and the two zeros differ. A decimal numeral is rounded
to the nearest double, a tie going to the even significand; all of it is exact arithmetic on
natural numbers.
-/

namespace Specialization

structure Double where
  bits : UInt64
  deriving DecidableEq

namespace Double

/-- The weight of the sign bit in the word. -/
def signWeight : Nat := Nat.pow 2 63

/-- The weight of the exponent field in the word, and of the hidden bit in the significand. -/
def hiddenBit : Nat := Nat.pow 2 52

def isNegative (d : Double) : Bool :=
  signWeight ≤ d.bits.toNat

def exponentField (d : Double) : Nat :=
  d.bits.toNat / hiddenBit % 2048

def fractionField (d : Double) : Nat :=
  d.bits.toNat % hiddenBit

def isFinite (d : Double) : Bool :=
  d.exponentField < 2047

def isNaN (d : Double) : Bool :=
  d.exponentField == 2047 && d.fractionField != 0

/-- A finite double is `significand` times two to the power `exponent`, up to its sign. -/
def significand (d : Double) : Nat :=
  if d.exponentField = 0 then d.fractionField else hiddenBit + d.fractionField

def exponent (d : Double) : Int :=
  if d.exponentField = 0 then -1074 else (d.exponentField : Int) - 1075

/-- The word of the positive infinity, which also bounds the words of the finite magnitudes. -/
def infinityWord : Nat := 2047 * hiddenBit

def ofMagnitude (negative : Bool) (word : Nat) : Double :=
  ⟨UInt64.ofNat (if negative then signWeight + word else word)⟩

def infinity (negative : Bool) : Double :=
  ofMagnitude negative infinityWord

/-- Division rounded to the nearest natural number, a tie going to the even one. -/
def roundDiv (numerator denominator : Nat) : Nat :=
  let quotient := numerator / denominator
  let twice := 2 * (numerator % denominator)
  if denominator < twice || (twice == denominator && quotient % 2 == 1) then quotient + 1
  else quotient

/-- The quotient scaled by two to the power `-shift`, as a fraction. -/
def scaledFraction (numerator denominator : Nat) (shift : Int) : Nat × Nat :=
  (numerator * Nat.pow 2 (-shift).toNat, denominator * Nat.pow 2 shift.toNat)

/-- The power of two that gives the quotient a significand of 53 bits, or the least power of a
double where that is larger. -/
def leadingShift (numerator denominator : Nat) : Int :=
  let guess : Int := (numerator.log2 : Int) - denominator.log2 - 52
  let (scaledNumerator, scaledDenominator) := scaledFraction numerator denominator guess
  let shift := if scaledNumerator < hiddenBit * scaledDenominator then guess - 1 else guess
  if shift < -1074 then -1074 else shift

/-- The double nearest to a quotient of natural numbers. A significand that rounds up to the next
power of two carries into the exponent by the layout of the word. -/
def nearest (negative : Bool) (numerator denominator : Nat) : Double :=
  if numerator = 0 then ofMagnitude negative 0
  else
    let shift := leadingShift numerator denominator
    let (scaledNumerator, scaledDenominator) := scaledFraction numerator denominator shift
    let word := (shift + 1074).toNat * hiddenBit + roundDiv scaledNumerator scaledDenominator
    ofMagnitude negative (if word < infinityWord then word else infinityWord)

/-- The double nearest to `mantissa` times ten to the power `power`. Numerals above `10^310` are
infinite and those below `10^-330` are zero, so no larger power of ten is ever formed. -/
def ofDecimal (negative : Bool) (mantissa : Nat) (power : Int) : Double :=
  let size : Int := (Decimal.digits mantissa).length + power
  if mantissa = 0 ∨ size < -330 then ofMagnitude negative 0
  else if 310 < size then infinity negative
  else nearest negative (mantissa * Nat.pow 10 power.toNat) (Nat.pow 10 (-power).toNat)

end Double

end Specialization
