import Specialization.Class
import Specialization.Erasure
import Specialization.Value.Text

/-!
Locations: what can be specialized, a class or a method. A method of a specializable class is a
location of its own for every choice of the parameters of the class.
-/

namespace Specialization

inductive Location where
  | ofClass (self : Class)
  | method (owner : Class) (classParameters : Option Value) (signature : String)

namespace Location

/-- The location of a method. The parameters of the class are erased against its defaults, and
dropped if it has none. -/
def ofMethod (owner : Class) (classParameters : Option Value) (signature : String) : Location :=
  .method owner (owner.defaults.map fun default => erase classParameters default) signature

def owner : Location → Class
  | .ofClass self => self
  | .method owner _ _ => owner

def isClassLevel : Location → Bool
  | .ofClass _ => true
  | .method _ _ _ => false

/-- The default parameters, if the location is specializable. -/
def defaults : Location → Option Value
  | .ofClass self => self.defaults
  | .method owner _ signature => (owner.methodBySignature? signature).bind (·.defaults)

/-- Locations are equal if their classes are identical and all else about them is equal. -/
def beq : Location → Location → Bool
  | .ofClass a, .ofClass b => a == b
  | .method a p s, .method b q t => a == b && p == q && s == t
  | _, _ => false

instance : BEq Location := ⟨beq⟩

def text : Location → String
  | .ofClass self => self.descriptor
  | .method owner (some parameters) signature =>
    owner.descriptor ++ "<" ++ parameters.text ++ ">::" ++ signature
  | .method owner none signature => owner.descriptor ++ "::" ++ signature

end Location

end Specialization
