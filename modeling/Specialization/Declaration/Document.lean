import Specialization.Declaration
import Specialization.Json.Reader
import Specialization.Json.Record

/-!
Declarations as JSON documents. An operand is an object of a kind and a value, or an array of the
two; the operands of a constant and the parent of an anchor may be left out.
-/

namespace Specialization

open Json

namespace Operand

def toJson (operand : Operand) : Json :=
  let tagged (kind : String) (value : Json) : Json :=
    .object [("kind", .string kind), ("value", value)]
  match operand with
  | .ref name => tagged "ref" (.string name)
  | .int value => tagged "int" (.integer value.toInt)
  | .double value => tagged "double" (.double value)
  | .string value => tagged "str" (.string value)
  | .type descriptor => tagged "type" (.string descriptor)
  | .function name => tagged "function" (.string name)

/-- The operand of a kind with a value. -/
def ofTagged? (kind : String) (value : Json) : Option Operand :=
  match kind with
  | "ref" => value.asString?.map .ref
  | "int" => value.asInt32?.map .int
  | "double" => value.asDouble?.map .double
  | "str" => value.asString?.map .string
  | "type" => value.asString?.map .type
  | "function" => value.asString?.map .function
  | _ => none

def ofJson? : Json → Option Operand
  | .array [.string kind, value] => ofTagged? kind value
  | document => do
    let fields ← document.asObject?
    ofTagged? (← required fields "kind" asName?) (← required fields "value" some)

end Operand

namespace Declaration

def toJson (declaration : Declaration) : Json :=
  .object [("name", .string declaration.name), ("action", .string declaration.action),
    ("args", .array (declaration.operands.map Operand.toJson))]

def ofJson? (document : Json) : Option Declaration := do
  let fields ← document.record? ["name", "action", "args"]
  return { name := ← required fields "name" asString?
           action := ← required fields "action" asString?
           operands := ← defaulted fields "args" [] (listOf Operand.ofJson?) }

end Declaration

namespace Anchor

def fields (anchor : Anchor) : List (String × Json) :=
  [("name", .string anchor.name), ("scope", .string anchor.level.text),
    ("parent", Json.ofOption .string anchor.parent)]

def toJson (anchor : Anchor) : Json :=
  .object anchor.fields

def levelOfName? : String → Option Level
  | "class" => some .ofClass
  | "method" => some .ofMethod
  | _ => none

/-- The anchor that fields give; `asName?` reads the name of its level. -/
def ofFields? (asName? : Json → Option String) (fields : List (String × Json)) :
    Option Anchor := do
  return { name := ← required fields "name" asString?
           level := ← required fields "scope" fun scope => (asName? scope).bind levelOfName?
           parent := ← nullable fields "parent" asString? }

def ofJson? (document : Json) : Option Anchor :=
  (document.record? ["name", "scope", "parent"]).bind (ofFields? asName?)

end Anchor

namespace ClassDeclarations

def toJson (declarations : ClassDeclarations) : Json :=
  .object [("class", .string declarations.descriptor),
    ("constants", .array (declarations.constants.map Declaration.toJson)),
    ("anchors", .array (declarations.anchors.map Anchor.toJson))]

def ofJson? (document : Json) : Option ClassDeclarations := do
  let fields ← document.record? ["class", "constants", "anchors"]
  return { descriptor := ← required fields "class" asString?
           constants := ← defaulted fields "constants" [] (listOf Declaration.ofJson?)
           anchors := ← defaulted fields "anchors" [] (listOf Anchor.ofJson?) }

/-- Reads the declarations of a class from JSON text. -/
def parse? (text : String) : Option ClassDeclarations :=
  (Json.parse? text).bind ofJson?

end ClassDeclarations

end Specialization
