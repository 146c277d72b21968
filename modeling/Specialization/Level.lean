/-!
The two levels at which parameters are bound: those of a class and those of one of its methods.
-/

namespace Specialization

inductive Level where
  | ofClass
  | ofMethod
  deriving DecidableEq

def Level.text : Level → String
  | .ofClass => "class"
  | .ofMethod => "method"

end Specialization
