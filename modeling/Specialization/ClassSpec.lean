import Specialization.Declaration

/-!
What a class is loaded from: its declarations, its superclass by name, its default parameters and
its methods.
-/

namespace Specialization

/-- An anchor that another class declares. -/
structure ImportedAnchor where
  owner : Descriptor
  anchor : Anchor
  deriving DecidableEq

structure MethodSpec where
  name : String
  /-- Without a signature of its own a method has its name as signature. -/
  signature : Option String := none
  /-- The constant whose value is the function that implements the method. -/
  implementation : String
  defaults : List Descriptor := []
  deriving DecidableEq

structure ClassSpec where
  descriptor : Descriptor
  superclass : Option Descriptor := none
  /-- One descriptor for each slot of the parameters. Without any the class has no
  specializations. -/
  defaults : List Descriptor := []
  methods : List MethodSpec := []
  constants : List Declaration := []
  anchors : List Anchor := []
  importedAnchors : List ImportedAnchor := []
  deriving DecidableEq

def ClassSpec.declarations (spec : ClassSpec) : ClassDeclarations :=
  { descriptor := spec.descriptor, constants := spec.constants, anchors := spec.anchors }

/-- The default parameters that descriptors stand for: a single one is a single slot, and several
are a vector of slots. -/
def defaultParameters : List Descriptor → Option Value
  | [] => none
  | [descriptor] => some (.type descriptor)
  | descriptors => some (.list (descriptors.map .type))

end Specialization
