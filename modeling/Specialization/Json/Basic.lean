import Specialization.Decimal.Double

/-!
JSON documents. Objects keep the order of their fields and any repetition of a name, and an integer
literal is kept apart from a numeral with a point or an exponent, since readers of a document may
tell them apart.
-/

namespace Specialization

/-- A JSON document. `unrepresentable` stands for a literal that is well formed but denotes no
value: a number beyond the doubles, or text with half of a surrogate pair. It may be skipped, but
no reader accepts it. -/
inductive Json where
  | null
  | bool (value : Bool)
  | integer (value : Int)
  | double (value : Double)
  | string (value : String)
  | unrepresentable
  | array (items : List Json)
  | object (fields : List (String × Json))

namespace Json

def strings (texts : List String) : Json :=
  .array (texts.map .string)

def ofOption {α : Type} (encode : α → Json) : Option α → Json
  | none => .null
  | some value => encode value

mutual
/-- Whether every literal of the document denotes a value, and its arrays and objects are nested no
deeper than `levels`. -/
def isRepresentable : Nat → Json → Bool
  | _, .unrepresentable => false
  | 0, .array _ => false
  | 0, .object _ => false
  | levels + 1, .array items => allRepresentable levels items
  | levels + 1, .object fields => allFieldsRepresentable levels fields
  | _, _ => true

def allRepresentable (levels : Nat) : List Json → Bool
  | [] => true
  | item :: rest => item.isRepresentable levels && allRepresentable levels rest

def allFieldsRepresentable (levels : Nat) : List (String × Json) → Bool
  | [] => true
  | (_, item) :: rest =>
    item.isRepresentable levels && allFieldsRepresentable levels rest
end

def asString? : Json → Option String
  | .string value => some value
  | _ => none

def asBool? : Json → Option Bool
  | .bool value => some value
  | _ => none

def asArray? : Json → Option (List Json)
  | .array items => some items
  | _ => none

def asObject? : Json → Option (List (String × Json))
  | .object fields => some fields
  | _ => none

/-- A 32-bit integer is written as an integer literal. -/
def asInt32? : Json → Option Int32
  | .integer value => Decimal.int32? value
  | _ => none

def asNat? : Json → Option Nat
  | .integer (.ofNat value) => some value
  | _ => none

/-- A double may be written as an integer literal. -/
def asDouble? : Json → Option Double
  | .integer value => some (.ofDecimal (value < 0) value.natAbs 0)
  | .double value => some value
  | _ => none

end Json

end Specialization
