import Specialization.Decimal.Double

/-!
The shortest decimal that reads back as a given double: of all decimals in the interval of reals
that round to it, one with the fewest digits, and of those the nearest; an exact tie goes to the
larger. If a decimal with `n` digits lies in the interval, then so does one of the value's two
neighbours on the grid of `n` digits, so those two are all that is tried.
-/

namespace Specialization.Decimal

/-- The number `count` times ten to the power `power`. -/
structure Scaled where
  count : Nat
  power : Int
  deriving DecidableEq

/-- An interval of rationals with a marked point, over one denominator. -/
structure RoundingInterval where
  low : Nat
  middle : Nat
  high : Nat
  denominator : Nat
  closed : Bool

/-- The reals that round to a finite double. The gap below a power of two is half as wide, and the
ends belong to the interval exactly when the significand is even. -/
def roundingInterval (d : Double) : RoundingInterval :=
  let m := d.significand
  let gap := if m = Double.hiddenBit ∧ 1 < d.exponentField then 1 else 2
  let quarter := d.exponent - 2
  let unit := Nat.pow 2 quarter.toNat
  { low := (4 * m - gap) * unit
    middle := 4 * m * unit
    high := (4 * m + 2) * unit
    denominator := Nat.pow 2 (-quarter).toNat
    closed := m % 2 == 0 }

/-- Whether `count` steps of the grid of step `10^power` lie in the interval. -/
def RoundingInterval.holds (interval : RoundingInterval) (power : Int) (count : Nat) : Bool :=
  let point := count * (interval.denominator * Nat.pow 10 power.toNat)
  let low := interval.low * Nat.pow 10 (-power).toNat
  let high := interval.high * Nat.pow 10 (-power).toNat
  if interval.closed then low ≤ point && point ≤ high else low < point && point < high

/-- The better of the two neighbours of the middle on the grid of step `10^power`, if either lies
in the interval. -/
def RoundingInterval.onGrid? (interval : RoundingInterval) (power : Int) : Option Nat :=
  let scaled := interval.middle * Nat.pow 10 (-power).toNat
  let step := interval.denominator * Nat.pow 10 power.toNat
  let below := scaled / step
  match interval.holds power below, interval.holds power (below + 1) with
  | true, true => some (if 2 * scaled < (2 * below + 1) * step then below else below + 1)
  | true, false => some below
  | false, true => some (below + 1)
  | false, false => none

/-- The power of ten of the first significant digit of a positive quotient. -/
def leadingPower (numerator denominator : Nat) : Int :=
  if denominator ≤ numerator then (digits (numerator / denominator)).length - 1
  else -(digits ((denominator + numerator - 1) / numerator - 1)).length

/-- The shortest decimal of a finite double other than zero. Seventeen digits always suffice. -/
def shortest (d : Double) : Scaled :=
  let interval := roundingInterval d
  let leading := leadingPower interval.middle interval.denominator
  let grids := (List.range 17).map fun (extra : Nat) => leading - extra
  (grids.findSome? fun power => (interval.onGrid? power).map fun count => ⟨count, power⟩).getD
    ⟨interval.middle / interval.denominator, 0⟩

end Specialization.Decimal
