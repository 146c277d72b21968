import Specialization.Value.Text

/-!
Operands of constant declarations, and the text that shows them.
-/

namespace Specialization

inductive Operand where
  /-- Another constant of the same class, by its name. -/
  | ref (name : String)
  | int (value : Int32)
  | double (value : Double)
  | string (value : String)
  | type (descriptor : Descriptor)
  /-- A native function, by its registered name. -/
  | function (name : String)
  deriving DecidableEq

namespace Operand

def reference? : Operand → Option String
  | .ref name => some name
  | _ => none

def text : Operand → String
  | .ref name => "&" ++ name
  | .int value => Decimal.integerText value.toInt
  | .double value => value.text
  | .string value => Text.quoted value
  | .type descriptor => "T:" ++ descriptor
  | .function name => "fn:" ++ name

/-- The value of an operand that stands for itself. -/
def scalar? : Operand → Option Value
  | .int value => some (.int value)
  | .double value => some (.double value)
  | .string value => some (.string value)
  | .type descriptor => some (.type descriptor)
  | .ref _ => none
  | .function _ => none

end Operand

/-- The names of the constants that operands read, in their order and as often as they are read. -/
def references (operands : List Operand) : List String :=
  operands.filterMap Operand.reference?

end Specialization
