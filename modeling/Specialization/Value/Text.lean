import Specialization.Decimal.Notation
import Specialization.Text.Quoted
import Specialization.Value.Basic

/-!
Two texts of a value. `Value.text` is the short form of messages and answers: text is quoted, but
descriptors and names stand as they are. `Value.description` spells out the constructors.
-/

namespace Specialization

def joined (texts : List String) : String :=
  ", ".intercalate texts

def listText (texts : List String) : String :=
  "[" ++ joined texts ++ "]"

/-- A function with its bound arguments, which come after those of the call. -/
def functionText (name : String) (bound : List String) : String :=
  if bound.isEmpty then "fn:" ++ name else "fn:" ++ name ++ "(.., " ++ joined bound ++ ")"

namespace Value

mutual
def text : Value → String
  | .unit => "()"
  | .bool value => if value then "true" else "false"
  | .int value => Decimal.integerText value.toInt
  | .double value => value.text
  | .string value => Text.quoted value
  | .type descriptor => "T:" ++ descriptor
  | .list items => listText (texts items)
  | .species raw parameters => raw ++ "<" ++ parameters.text ++ ">"
  | .linkage inner => "linkage(" ++ inner.text ++ ")"
  | .restriction types => "restriction" ++ listText types
  | .function native bound => functionText native.name (texts bound)

def texts : List Value → List String
  | [] => []
  | value :: rest => value.text :: texts rest
end

end Value

/-- A record with its name, as a description spells it. -/
def recordText (name : String) (fields : List (String × String)) : String :=
  name ++ " \x7b " ++ joined (fields.map fun (field, text) => field ++ ": " ++ text) ++ " \x7d"

def describeDescriptor (descriptor : Descriptor) : String :=
  "TypeDescriptor(" ++ Text.quoted descriptor ++ ")"

def NativeFunction.description (native : NativeFunction) : String :=
  recordText "NativeFunction"
    [("name", Text.quoted native.name), ("arity", Decimal.naturalText native.arity)]

namespace Value

mutual
def description : Value → String
  | .unit => "Unit"
  | .bool value => "Bool(" ++ (if value then "true" else "false") ++ ")"
  | .int value => "Int(" ++ Decimal.integerText value.toInt ++ ")"
  | .double value => "Double(" ++ value.text ++ ")"
  | .string value => "Str(" ++ Text.quoted value ++ ")"
  | .type descriptor => "Type(" ++ describeDescriptor descriptor ++ ")"
  | .list items => "List(" ++ listText (descriptions items) ++ ")"
  | .species raw parameters =>
    "Species(" ++ recordText "Species"
      [("raw", describeDescriptor raw), ("parameters", parameters.description)] ++ ")"
  | .linkage inner => "Linkage(" ++ inner.description ++ ")"
  | .restriction types => "Restriction(" ++ listText (types.map describeDescriptor) ++ ")"
  | .function native bound =>
    "Function(" ++ recordText "BoundFunction"
      [("function", native.description), ("bound", listText (descriptions bound))] ++ ")"

def descriptions : List Value → List String
  | [] => []
  | value :: rest => value.description :: descriptions rest
end

/-- The description of a value that may be absent. -/
def describeOption : Option Value → String
  | none => "None"
  | some value => "Some(" ++ value.description ++ ")"

end Value

end Specialization
