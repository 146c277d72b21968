import Specialization.ClassSpec.Document

/-!
Sample classes, as the documents that a front end hands over: generic boxes and pairs, a box that
maps its superclass, a method with parameters of its own, an inner class, a class whose supertype
walk fails, and one that is refused when it is loaded.
-/

namespace Specialization

inductive Sample where
  /-- One class anchor, and a method that reads it. -/
  | box
  /-- A vector of two slots. -/
  | pair
  /-- A subclass of the box with a supertype mapping. -/
  | stringBox
  /-- A subclass of the box whose mapping names another class. -/
  | mismatchedBox
  /-- A method anchor that is nested under a class anchor. -/
  | nestedMethod
  /-- An inner class that reads the anchor of the box. -/
  | crossClass
  /-- A constant that reads two unrelated anchors. -/
  | divergent
  deriving DecidableEq

namespace Sample

def all : List Sample :=
  [.box, .pair, .stringBox, .mismatchedBox, .nestedMethod, .crossClass, .divergent]

def name : Sample → String
  | .box => "Box"
  | .pair => "Pair"
  | .stringBox => "StringBox"
  | .mismatchedBox => "MismatchedBox"
  | .nestedMethod => "NestedMethod"
  | .crossClass => "CrossClass"
  | .divergent => "Divergent"

def ofName? (name : String) : Option Sample :=
  all.find? (·.name == name)

def fileName : Sample → String
  | .box => "box.json"
  | .pair => "pair.json"
  | .stringBox => "string_box.json"
  | .mismatchedBox => "mismatched_box.json"
  | .nestedMethod => "nested_method.json"
  | .crossClass => "cross_class.json"
  | .divergent => "divergent.json"

private def constant (name action : String) (operands : List Operand) : Json :=
  Declaration.toJson { name, action, operands }

private def constants (declarations : List Json) : String × Json :=
  ("constants", .array declarations)

private def descriptor (descriptor : String) : String × Json :=
  ("descriptor", .string descriptor)

private def defaults (descriptors : List String) : String × Json :=
  ("defaults", .strings descriptors)

private def anchor (name level : String) (more : List (String × Json)) : Json :=
  .object ([("name", .string name), ("scope", .string level)] ++ more)

private def anchors (declared : List Json) : String × Json :=
  ("anchors", .array declared)

private def method (name : String) (more : List (String × Json)) : String × Json :=
  ("methods", .array [.object
    ([("name", .string name), ("implementation", .string name)] ++ more)])

/-- The document from which the class is loaded. -/
def document : Sample → Json
  | .box => .object [
      descriptor "Box",
      defaults ["Object"],
      anchors [anchor "T" "class" []],
      constants [
        constant "T" "anchor" [],
        constant "raw" "type" [.type "Box"],
        constant "self" "species" [.ref "raw", .ref "T"],
        constant "describe" "function" [.function "type.descriptor", .ref "T"],
        constant "element" "restriction" [.ref "T"],
        constant "label" "literal" [.string "box"],
        constant "name_of" "function" [.function "type.descriptor"]],
      method "describe" []]
  | .pair => .object [
      descriptor "Pair",
      defaults ["Object", "Object"],
      anchors [anchor "P" "class" []],
      constants [
        constant "P" "anchor" [],
        constant "left" "list_get" [.ref "P", .int 0],
        constant "right" "list_get" [.ref "P", .int 1],
        constant "swapped" "list" [.ref "right", .ref "left"],
        constant "append_swapped" "function" [.function "list.concat", .ref "swapped"]],
      method "append_swapped" []]
  | .stringBox => .object [
      descriptor "StringBox",
      ("superclass", .string "Box"),
      defaults ["Object"],
      anchors [anchor "U" "class" []],
      constants [
        constant "U" "anchor" [],
        constant "super_raw" "type" [.type "Box"],
        constant "super_species" "species" [.ref "super_raw", .ref "U"],
        constant "mapping" "super" [.ref "super_species"]]]
  | .mismatchedBox => .object [
      descriptor "MismatchedBox",
      ("superclass", .string "Box"),
      defaults ["Object"],
      constants [
        constant "other" "type" [.type "Other"],
        constant "other_species" "species" [.ref "other", .type "String"],
        constant "mapping" "super" [.ref "other_species"]]]
  | .nestedMethod => .object [
      descriptor "Util",
      defaults ["Object"],
      anchors [anchor "T" "class" [], anchor "M" "method" [("parent", .string "T")]],
      constants [
        constant "T" "anchor" [],
        constant "M" "anchor" [.ref "T"],
        constant "both" "list" [.ref "T", .ref "M"],
        constant "append_both" "function" [.function "list.concat", .ref "both"],
        constant "name_of" "function" [.function "type.descriptor"]],
      method "append_both"
        [("signature", .string "append_both(List)List"), defaults ["Object"]]]
  | .crossClass => .object [
      descriptor "Box$Inner",
      ("imported_anchors", .array [anchor "Box#T" "class" [("owner", .string "Box")]]),
      constants [
        constant "boxT" "anchor" [.string "Box#T"],
        constant "wrapped" "list" [.ref "boxT"]]]
  | .divergent => .object [
      descriptor "Broken",
      defaults ["Object"],
      anchors [anchor "A" "class" [], anchor "B" "method" []],
      constants [
        constant "A" "anchor" [],
        constant "B" "anchor" [],
        constant "mix" "list" [.ref "A", .ref "B"]]]

end Sample

end Specialization
