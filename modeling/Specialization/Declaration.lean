import Specialization.Anchor

/-!
What a class declares: its anchors, and its constants as an action on operands.
-/

namespace Specialization

structure Declaration where
  name : String
  action : String
  operands : List Operand := []
  deriving DecidableEq

/-- A declaration whose operands are given as tokens. -/
def Declaration.ofTokens (name action : String) (tokens : List String) :
    Except ConstantError Declaration :=
  match tokens.mapM Operand.ofToken with
  | .ok operands => .ok { name, action, operands }
  | .error fault => .error (.malformedDeclaration name (.token fault))

def Declaration.references (declaration : Declaration) : List String :=
  Specialization.references declaration.operands

/-- All that is declared in one class. -/
structure ClassDeclarations where
  descriptor : Descriptor
  constants : List Declaration := []
  anchors : List Anchor := []
  deriving DecidableEq

end Specialization
