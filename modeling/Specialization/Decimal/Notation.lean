import Specialization.Decimal.Shortest

/-!
How a double is written: its shortest digits, positional while the leading digit stands for a
power of ten between -4 and 15 and with an exponent otherwise. A positional numeral always has a
point, and an exponent has no sign unless it is negative.
-/

namespace Specialization.Decimal

def leastPositionalPower : Int := -4

def greatestPositionalPower : Int := 15

/-- Digits with the point after the digit of power zero; `leading` is the power of the first. -/
def positional (text : List Char) (leading : Int) : List Char :=
  if leading < 0 then
    '0' :: '.' :: (List.replicate (-leading - 1).toNat '0' ++ text)
  else
    let whole := leading.toNat + 1
    let fraction := text.drop whole
    text.take whole ++ List.replicate (whole - text.length) '0' ++
      '.' :: (if fraction.isEmpty then ['0'] else fraction)

def scientific (text : List Char) (leading : Int) : List Char :=
  let mantissa := match text with
    | [] => []
    | [digit] => [digit]
    | digit :: rest => digit :: '.' :: rest
  mantissa ++ 'e' :: signed leading

/-- Zeros at the end of the digits are not significant. -/
def Scaled.numeral (number : Scaled) : List Char :=
  let all := digits number.count
  let leading := number.power + all.length - 1
  let text := (all.reverse.dropWhile (· == '0')).reverse
  if leastPositionalPower ≤ leading ∧ leading ≤ greatestPositionalPower then
    positional text leading
  else
    scientific text leading

end Specialization.Decimal

namespace Specialization

open Decimal

def Double.text (d : Double) : String :=
  if d.isNaN then "NaN"
  else
    let magnitude :=
      if !d.isFinite then ['i', 'n', 'f']
      else if d.significand = 0 then ['0', '.', '0']
      else (shortest d).numeral
    String.ofList (if d.isNegative then '-' :: magnitude else magnitude)

/-- The double that a run of digits with one point denotes, `none` unless there is exactly one
point and at least one digit. -/
def Double.ofNumeral? (negative : Bool) (text : List Char) : Option Double :=
  let whole := text.takeWhile isDigit
  match text.dropWhile isDigit with
  | '.' :: fraction =>
    if fraction.all isDigit && !(whole ++ fraction).isEmpty then
      some (.ofDecimal negative (value (whole ++ fraction)) (-fraction.length))
    else none
  | _ => none

end Specialization
