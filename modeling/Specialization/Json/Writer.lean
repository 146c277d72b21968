import Specialization.Json.Basic
import Specialization.Decimal.Notation

/-!
Writing JSON text on one line, in ASCII: every other character is escaped by its UTF-16 units.
-/

namespace Specialization.Json

def hexUnit (unit : Nat) : List Char :=
  let digits := Nat.toDigits 16 unit
  '\\' :: 'u' :: (List.replicate (4 - digits.length) '0' ++ digits)

def escapedChar (c : Char) : List Char :=
  match c with
  | '"' => ['\\', '"']
  | '\\' => ['\\', '\\']
  | c =>
    if 0x20 ≤ c.toNat ∧ c.toNat < 0x7F then [c]
    else if c.toNat < 0x10000 then hexUnit c.toNat
    else
      let offset := c.toNat - 0x10000
      hexUnit (0xD800 + offset / 1024) ++ hexUnit (0xDC00 + offset % 1024)

def stringText (text : String) : String :=
  String.ofList ('"' :: (text.toList.flatMap escapedChar ++ ['"']))

mutual
/-- The text of a document. A number that JSON cannot write is written `null`. -/
def render : Json → String
  | .null => "null"
  | .bool value => if value then "true" else "false"
  | .integer value => Decimal.integerText value
  | .double value => if value.isFinite then value.text else "null"
  | .string value => stringText value
  | .unrepresentable => "null"
  | .array items => "[" ++ ",".intercalate (renderItems items) ++ "]"
  | .object fields => "\x7b" ++ ",".intercalate (renderFields fields) ++ "\x7d"

def renderItems : List Json → List String
  | [] => []
  | item :: rest => item.render :: renderItems rest

def renderFields : List (String × Json) → List String
  | [] => []
  | (name, value) :: rest => (stringText name ++ ":" ++ value.render) :: renderFields rest
end

end Specialization.Json
