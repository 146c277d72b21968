/-!
Settings of a specialization store. Each has a default, so that no setting has to be given.
-/

namespace Specialization

structure Config where
  /-- Whether a class-level carrier gets a backing type of its own, through which its instances
  find it. Otherwise an instance holds its carrier. -/
  synthesizeBackingTypes : Bool := true
  /-- How many steps a supertype walk may take. -/
  maxSupertypeDepth : Nat := 64
  /-- Whether hits of the store are traced. Nothing depends on it. -/
  traceCacheHits : Bool := false
  deriving DecidableEq, Inhabited

end Specialization
