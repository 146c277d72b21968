import Specialization.Operand
import Specialization.Text.Blank

/-!
Operands in compact form. A token starts with an ampersand for a reference, with `T:` for a type and
with `fn:` for a function; text stands between double quotes and is taken as it is, without
escapes; all else has to be a number, a double if it has a point and a 32-bit integer otherwise.
Blanks around a token do not count.
-/

namespace Specialization

/-- What has to follow the mark at the start of a token. -/
inductive TokenPart where
  | reference
  | descriptor
  | function
  deriving DecidableEq

def TokenPart.text : TokenPart → String
  | .reference => "reference"
  | .descriptor => "type descriptor"
  | .function => "function name"

/-- Why a token is not an operand. -/
inductive TokenError where
  | empty
  | missing (part : TokenPart)
  | invalidDouble (token : String)
  | integerTooLarge (token : String)
  | integerTooSmall (token : String)
  | unrecognized (token : String)
  deriving DecidableEq

def TokenError.message : TokenError → String
  | .empty => "empty operand token"
  | .missing part => "missing " ++ part.text ++ " after prefix"
  | .invalidDouble token => "invalid double '" ++ token ++ "': invalid float literal"
  | .integerTooLarge token =>
    "invalid 32-bit integer '" ++ token ++ "': number too large to fit in target type"
  | .integerTooSmall token =>
    "invalid 32-bit integer '" ++ token ++ "': number too small to fit in target type"
  | .unrecognized token => "unrecognized operand token '" ++ token ++ "'"

namespace Operand

/-- A name after its mark; it may not be empty. -/
def ofMarked (part : TokenPart) (make : String → Operand) (name : List Char) :
    Except TokenError Operand :=
  if name.isEmpty then .error (.missing part) else .ok (make (String.ofList name))

/-- The integer that digits denote after their sign. -/
def ofInteger (token : String) (negative : Bool) (digits : List Char) :
    Except TokenError Operand :=
  let size : Int := Decimal.value digits
  match Decimal.int32? (if negative then -size else size) with
  | some value => .ok (.int value)
  | none => .error (if negative then .integerTooSmall token else .integerTooLarge token)

/-- A token without a mark and without quotes. -/
def ofNumeral (token : List Char) : Except TokenError Operand :=
  let (negative, numeral) := match token with
    | '-' :: rest => (true, rest)
    | rest => (false, rest)
  let text := String.ofList token
  if !numeral.isEmpty && numeral.all fun c => Decimal.isDigit c || c == '.' then
    if numeral.contains '.' then
      match Double.ofNumeral? negative numeral with
      | some value => .ok (.double value)
      | none => .error (.invalidDouble text)
    else ofInteger text negative numeral
  else .error (.unrecognized text)

/-- A token without blanks around it. -/
def ofTrimmed (token : List Char) : Except TokenError Operand :=
  match token with
  | [] => .error .empty
  | '&' :: name => ofMarked .reference .ref name
  | 'T' :: ':' :: name => ofMarked .descriptor .type name
  | 'f' :: 'n' :: ':' :: name => ofMarked .function .function name
  | '"' :: rest =>
    if rest.getLast? = some '"' then .ok (.string (String.ofList rest.dropLast))
    else ofNumeral token
  | token => ofNumeral token

def ofToken (token : String) : Except TokenError Operand :=
  ofTrimmed (Text.trim token.toList)

end Operand

end Specialization
