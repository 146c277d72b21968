/-!
Decimal text of integers, and the value of a run of decimal digits.
-/

namespace Specialization.Decimal

def isDigit (c : Char) : Bool :=
  '0' ≤ c && c ≤ '9'

def digits (n : Nat) : List Char :=
  Nat.toDigits 10 n

def signed (i : Int) : List Char :=
  if i < 0 then '-' :: digits i.natAbs else digits i.natAbs

def integerText (i : Int) : String :=
  String.ofList (signed i)

def naturalText (n : Nat) : String :=
  String.ofList (digits n)

/-- The number a run of digits denotes in a base; a leading zero adds nothing. -/
def valueIn (base : Nat) (digit : Char → Nat) (text : List Char) : Nat :=
  text.foldl (fun value c => base * value + digit c) 0

def value (text : List Char) : Nat :=
  valueIn 10 (fun c => c.toNat - '0'.toNat) text

def maxInt32 : Int := 2147483647

def minInt32 : Int := -2147483648

/-- The 32-bit integer equal to `i`, when there is one. -/
def int32? (i : Int) : Option Int32 :=
  if minInt32 ≤ i ∧ i ≤ maxInt32 then some (Int32.ofInt i) else none

end Specialization.Decimal
