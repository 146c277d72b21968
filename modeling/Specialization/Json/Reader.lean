import Specialization.Json.Basic
import Specialization.Decimal.Notation

/-!
Reading JSON text. The whole text has to be one document between blanks; comments, trailing
commas, raw control characters in strings and leading zeros are refused.
-/

namespace Specialization.Json

/-- A reader consumes the start of a text, or refuses it. -/
abbrev Reader (α : Type) := List Char → Option (α × List Char)

def isSpace (c : Char) : Bool :=
  c == ' ' || c == '\n' || c == '\t' || c == '\r'

def skipSpace (text : List Char) : List Char :=
  text.dropWhile isSpace

def hexDigit? (c : Char) : Option Nat :=
  if '0' ≤ c ∧ c ≤ '9' then some (c.toNat - 48)
  else if 'a' ≤ c ∧ c ≤ 'f' then some (c.toNat - 87)
  else if 'A' ≤ c ∧ c ≤ 'F' then some (c.toNat - 55)
  else none

def hexUnit? (a b c d : Char) : Option Nat := do
  return (← hexDigit? a) * 4096 + (← hexDigit? b) * 256 + (← hexDigit? c) * 16 + (← hexDigit? d)

def isHighSurrogate (unit : Nat) : Bool :=
  0xD800 ≤ unit && unit < 0xDC00

def isLowSurrogate (unit : Nat) : Bool :=
  0xDC00 ≤ unit && unit < 0xE000

def simpleEscape? : Char → Option Char
  | '"' => some '"'
  | '\\' => some '\\'
  | '/' => some '/'
  | 'b' => some '\x08'
  | 'f' => some '\x0c'
  | 'n' => some '\n'
  | 'r' => some '\r'
  | 't' => some '\t'
  | _ => none

/-- One character of the contents of a string: `none` for an escape that is half of a surrogate
pair. -/
def readCharacter : Reader (Option Char)
  | '\\' :: 'u' :: a :: b :: c :: d :: rest => do
    let unit ← hexUnit? a b c d
    if isLowSurrogate unit then return (none, rest)
    else if isHighSurrogate unit then
      match rest with
      | '\\' :: 'u' :: e :: f :: g :: h :: after =>
        let second ← hexUnit? e f g h
        if isLowSurrogate second then
          return (some (.ofNat (0x10000 + (unit - 0xD800) * 1024 + (second - 0xDC00))), after)
        else return (none, rest)
      | _ => return (none, rest)
    else return (some (.ofNat unit), rest)
  | '\\' :: c :: rest => (simpleEscape? c).map fun escaped => (some escaped, rest)
  | c :: rest => if c.toNat < 0x20 then none else some (some c, rest)
  | [] => none

/-- The rest of a string after its opening quote. The contents are `none` if some escape is half of
a surrogate pair; `fuel` bounds the number of characters. -/
def readContents : Nat → Reader (Option (List Char))
  | _, '"' :: rest => some (some [], rest)
  | 0, _ => none
  | fuel + 1, text => do
    let (c, rest) ← readCharacter text
    let (contents, after) ← readContents fuel rest
    return ((c.bind fun c => contents.map (c :: ·)), after)

def readString (text : List Char) : Option (Option String × List Char) :=
  (readContents text.length text).map fun (contents, rest) => (contents.map String.ofList, rest)

/-- The digits of the exponent of a numeral with its sign, and what follows. -/
def readExponent : Reader (Option Int)
  | c :: text =>
    if c == 'e' || c == 'E' then
      let (negative, unsigned) := match text with
        | '-' :: rest => (true, rest)
        | '+' :: rest => (false, rest)
        | rest => (false, rest)
      let digits := unsigned.takeWhile Decimal.isDigit
      if digits.isEmpty then none
      else
        let size : Int := Decimal.value digits
        some (some (if negative then -size else size), unsigned.dropWhile Decimal.isDigit)
    else some (none, c :: text)
  | [] => some (none, [])

/-- The digits after the point of a numeral, if it has one. -/
def readFraction : Reader (Option (List Char))
  | '.' :: text =>
    let digits := text.takeWhile Decimal.isDigit
    if digits.isEmpty then none else some (some digits, text.dropWhile Decimal.isDigit)
  | text => some (none, text)

/-- The number a numeral denotes. Without point and exponent it is an integer if it fits 64 bits
and is not a negative zero. -/
def ofNumeral (negative : Bool) (whole : List Char) (fraction : Option (List Char))
    (power : Option Int) : Json :=
  let isInteger := fraction.isNone && power.isNone
  let size := Decimal.value whole
  if isInteger && !negative && size < Nat.pow 2 64 then .integer size
  else if isInteger && negative && 0 < size && size ≤ Nat.pow 2 63 then .integer (-size)
  else
    let decimals := fraction.getD []
    let value := Double.ofDecimal negative (Decimal.value (whole ++ decimals))
      (power.getD 0 - decimals.length)
    if value.isFinite then .double value else .unrepresentable

def readNumber (text : List Char) : Option (Json × List Char) := do
  let (negative, unsigned) := match text with
    | '-' :: rest => (true, rest)
    | rest => (false, rest)
  let whole := unsigned.takeWhile Decimal.isDigit
  if whole.isEmpty || (whole.head? == some '0' && 1 < whole.length) then none
  else
    let (fraction, rest) ← readFraction (unsigned.dropWhile Decimal.isDigit)
    let (power, rest) ← readExponent rest
    return (ofNumeral negative whole fraction power, rest)

mutual
/-- A document without the blanks around it; `fuel` bounds its nesting and the number of items. -/
def readValue : Nat → Reader Json
  | 0, _ => none
  | fuel + 1, text =>
    match text with
    | 'n' :: 'u' :: 'l' :: 'l' :: rest => some (.null, rest)
    | 't' :: 'r' :: 'u' :: 'e' :: rest => some (.bool true, rest)
    | 'f' :: 'a' :: 'l' :: 's' :: 'e' :: rest => some (.bool false, rest)
    | '"' :: rest =>
      (readString rest).map fun (contents, after) =>
        (match contents with
          | some value => .string value
          | none => .unrepresentable, after)
    | '[' :: rest =>
      match skipSpace rest with
      | ']' :: after => some (.array [], after)
      | items => (readItems fuel items).map fun (items, after) => (.array items, after)
    | '\x7b' :: rest =>
      match skipSpace rest with
      | '\x7d' :: after => some (.object [], after)
      | fields => (readFields fuel fields).map fun (fields, after) =>
        (match fields with
          | some fields => .object fields
          | none => .unrepresentable, after)
    | text => readNumber text

def readItems : Nat → Reader (List Json)
  | 0, _ => none
  | fuel + 1, text => do
    let (item, rest) ← readValue fuel text
    match skipSpace rest with
    | ',' :: rest =>
      let (items, after) ← readItems fuel (skipSpace rest)
      return (item :: items, after)
    | ']' :: after => return ([item], after)
    | _ => none

def readFields : Nat → Reader (Option (List (String × Json)))
  | 0, _ => none
  | fuel + 1, text =>
    match text with
    | '"' :: rest => do
      let (name, rest) ← readString rest
      match skipSpace rest with
      | ':' :: rest =>
        let (value, rest) ← readValue fuel (skipSpace rest)
        let field := name.map fun name => (name, value)
        match skipSpace rest with
        | ',' :: rest =>
          let (fields, after) ← readFields fuel (skipSpace rest)
          return ((field.bind fun field => fields.map (field :: ·)), after)
        | '\x7d' :: after => return (field.map ([·]), after)
        | _ => none
      | _ => none
    | _ => none
end

/-- The document a text holds, `none` if it is not JSON. -/
def parse? (text : String) : Option Json := do
  let characters := skipSpace text.toList
  let (document, rest) ← readValue (characters.length + 1) characters
  if (skipSpace rest).isEmpty then some document else none

end Specialization.Json
