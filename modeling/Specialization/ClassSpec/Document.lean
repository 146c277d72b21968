import Specialization.ClassSpec
import Specialization.Declaration.Document

/-!
Class specs as JSON documents. Only the descriptor is required; an imported anchor is an object that
has the fields of an anchor and that of its owner side by side.
-/

namespace Specialization

open Json

namespace ImportedAnchor

def toJson (imported : ImportedAnchor) : Json :=
  .object (("owner", .string imported.owner) :: imported.anchor.fields)

/-- How deep the value of a field may be nested. What is kept for a second reading may lie 127
levels deep in its document, and the object of an imported anchor is on the third level of a
spec. -/
def fieldLevels : Nat := 124

/-- The fields other than the owner are read twice, so unlike elsewhere none of them may hold an
unrepresentable literal or be nested too deep, even one that is ignored. -/
def ofJson? (document : Json) : Option ImportedAnchor := do
  let fields ← document.asObject?
  let owner ← required fields "owner" asString?
  let others := fields.filter fun field => field.1 != "owner"
  if allFieldsRepresentable fieldLevels others then
    return { owner, anchor := ← Anchor.ofFields? asEmbeddedName? others }
  else none

end ImportedAnchor

namespace MethodSpec

def toJson (method : MethodSpec) : Json :=
  .object [("name", .string method.name), ("signature", Json.ofOption .string method.signature),
    ("implementation", .string method.implementation), ("defaults", Json.strings method.defaults)]

def ofJson? (document : Json) : Option MethodSpec := do
  let fields ← document.record? ["name", "signature", "implementation", "defaults"]
  return { name := ← required fields "name" asString?
           signature := ← nullable fields "signature" asString?
           implementation := ← required fields "implementation" asString?
           defaults := ← defaulted fields "defaults" [] (listOf asString?) }

end MethodSpec

namespace ClassSpec

def toJson (spec : ClassSpec) : Json :=
  .object [("descriptor", .string spec.descriptor),
    ("superclass", Json.ofOption .string spec.superclass),
    ("defaults", Json.strings spec.defaults),
    ("methods", .array (spec.methods.map MethodSpec.toJson)),
    ("constants", .array (spec.constants.map Declaration.toJson)),
    ("anchors", .array (spec.anchors.map Anchor.toJson)),
    ("imported_anchors", .array (spec.importedAnchors.map ImportedAnchor.toJson))]

def ofJson? (document : Json) : Option ClassSpec := do
  let fields ← document.record? ["descriptor", "superclass", "defaults", "methods", "constants",
    "anchors", "imported_anchors"]
  return { descriptor := ← required fields "descriptor" asString?
           superclass := ← nullable fields "superclass" asString?
           defaults := ← defaulted fields "defaults" [] (listOf asString?)
           methods := ← defaulted fields "methods" [] (listOf MethodSpec.ofJson?)
           constants := ← defaulted fields "constants" [] (listOf Declaration.ofJson?)
           anchors := ← defaulted fields "anchors" [] (listOf Anchor.ofJson?)
           importedAnchors :=
             ← defaulted fields "imported_anchors" [] (listOf ImportedAnchor.ofJson?) }

/-- Reads a class spec from JSON text. -/
def parse? (text : String) : Option ClassSpec :=
  (Json.parse? text).bind ofJson?

end ClassSpec

end Specialization
