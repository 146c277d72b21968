import Specialization.Json.Basic

/-!
Reading records out of JSON documents. In an object the fields may stand in any order and unknown
fields are ignored, but a known field that stands twice refuses the whole record, also when its
values agree. An array gives the fields by their position: the last ones may be left out, as far as
they may be absent, and there must be no more items than fields.
-/

namespace Specialization.Json

/-- The fields that a document gives to a record with the named fields, in their order. -/
def record? (names : List String) : Json → Option (List (String × Json))
  | .object fields => some fields
  | .array items => if items.length ≤ names.length then some (names.zip items) else none
  | _ => none

/-- The values that fields give to one name, in order. -/
def occurrences (fields : List (String × Json)) (name : String) : List Json :=
  (fields.filter fun field => field.1 == name).map Prod.snd

/-- A field that has to be present once. -/
def required {α : Type} (fields : List (String × Json)) (name : String)
    (decode : Json → Option α) : Option α :=
  match occurrences fields name with
  | [value] => decode value
  | _ => none

/-- A field that may be absent, and then has the given value. -/
def defaulted {α : Type} (fields : List (String × Json)) (name : String) (default : α)
    (decode : Json → Option α) : Option α :=
  match occurrences fields name with
  | [] => some default
  | [value] => decode value
  | _ => none

/-- A field that may be absent or null. -/
def nullable {α : Type} (fields : List (String × Json)) (name : String)
    (decode : Json → Option α) : Option (Option α) :=
  defaulted fields name none fun
    | .null => some none
    | value => (decode value).map some

def listOf {α : Type} (decode : Json → Option α) (document : Json) : Option (List α) :=
  document.asArray?.bind fun items => items.mapM decode

/-- A bare name out of a fixed set: a string, or an object whose only field has that name and the
value null. -/
def asName? : Json → Option String
  | .string name => some name
  | .object [(name, .null)] => some name
  | _ => none

/-- A bare name in a record that stands side by side with other fields. There the value of the only
field may also be an empty object. -/
def asEmbeddedName? : Json → Option String
  | .object [(name, .object [])] => some name
  | document => document.asName?

end Specialization.Json
