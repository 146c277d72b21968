import Specialization.Function
import Specialization.Json.Reader

/-!
Values as JSON documents. Booleans, integers, text and lists are written as they are, and every
other value as an object whose fields name its kind. A double is written as text, so that numbers
that JSON cannot write have a form too; when read, it may also be given by its bits. A function is
known by its name, and is looked up when it is read.
-/

namespace Specialization.Value

open Json

mutual
def toJson : Value → Json
  | .unit => .object [("unit", .bool true)]
  | .bool value => .bool value
  | .int value => .integer value.toInt
  | .double value => .object [("double", .string value.text)]
  | .string value => .string value
  | .type descriptor => .object [("type", .string descriptor)]
  | .list items => .array (listToJson items)
  | .species raw parameters => .object [("species", .string raw), ("params", parameters.toJson)]
  | .linkage inner => .object [("linkage", inner.toJson)]
  | .restriction types => .object [("restriction", .strings types)]
  | .function native bound =>
    .object [("fn", .string native.name), ("bound", .array (listToJson bound))]

def listToJson : List Value → List Json
  | [] => []
  | value :: rest => value.toJson :: listToJson rest
end

/-- A double by its text. -/
def doubleOfText? : String → Option Double
  | "NaN" => some ⟨0x7ff8000000000000⟩
  | "inf" => some (.infinity false)
  | "-inf" => some (.infinity true)
  | text => (Json.parse? text).bind asDouble?

/-- A double by the hexadecimal digits of its word. -/
def doubleOfBits? (text : String) : Option Double := do
  let digits ← text.toList.mapM hexDigit?
  return ⟨UInt64.ofNat (digits.foldl (fun word digit => 16 * word + digit) 0)⟩

/-- A value of one field, other than one that holds further values. -/
def ofField? (registry : Registry) : String → Json → Option Value
  | "unit", _ => some .unit
  | "double", .string text => (doubleOfText? text).map .double
  | "double_bits", .string text => (doubleOfBits? text).map .double
  | "type", .string descriptor => some (.type descriptor)
  | "restriction", .array types => (types.mapM asString?).map .restriction
  | "fn", .string name => (registry.lookup name).map BoundFunction.toValue
  | _, _ => none

/-- A value of two fields, given the value of the second one. -/
def ofFields? (registry : Registry) : String → Json → String → Value → Option Value
  | "species", .string raw, "params", parameters => some (.species raw parameters)
  | "fn", .string name, "bound", .list bound =>
    (registry.lookup name).map fun function => (function.bind bound).toValue
  | _, _, _, _ => none

mutual
def ofJson? (registry : Registry) : Json → Option Value
  | .bool value => some (.bool value)
  | .integer value => (Decimal.int32? value).map .int
  | .string value => some (.string value)
  | .array items => (listOfJson? registry items).map .list
  | .object [(field, value)] =>
    if field = "linkage" then (ofJson? registry value).map .linkage
    else ofField? registry field value
  | .object [(first, a), (second, b)] =>
    if first = "species" ∨ first = "fn" then
      (ofJson? registry b).bind fun value => ofFields? registry first a second value
    else (ofJson? registry a).bind fun value => ofFields? registry second b first value
  | _ => none

def listOfJson? (registry : Registry) : List Json → Option (List Value)
  | [] => some []
  | item :: rest => do
    return (← ofJson? registry item) :: (← listOfJson? registry rest)
end

end Specialization.Value
