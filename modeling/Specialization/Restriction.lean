import Specialization.Error

/-!
Checks of arguments against restrictions, which list the runtime types that are allowed.
-/

namespace Specialization

/-- The type that a value reports at run time. An instantiation reports its raw type. -/
def runtimeType : Value → Descriptor
  | .unit => "void"
  | .bool _ => "boolean"
  | .int _ => "int"
  | .double _ => "double"
  | .string _ => "String"
  | .type _ => "Class"
  | .list _ => "List"
  | .species raw _ => raw
  | .linkage _ => "Linkage"
  | .restriction _ => "Restriction"
  | .function _ _ => "Function"

/-- Fails unless the runtime type of the value in a slot is among those allowed. -/
def checkRestriction (restriction : Value) (slot : Nat) (value : Value) : Except Error Unit :=
  match restriction with
  | .restriction allowed =>
    let actual := runtimeType value
    if allowed.contains actual then .ok ()
    else .error (.restrictionViolation slot allowed actual)
  | other =>
    .error (.constants (.linkage "restriction" [other.text] (.notRestriction other.kind)))

end Specialization
