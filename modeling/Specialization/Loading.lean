import Specialization.Supertype

/-!
Loading classes, and the operations that find a class by its descriptor.
-/

namespace Specialization

/-- Loads a class without making it known to the loader. -/
def load (spec : ClassSpec) (superclass : Option Class) : Operation Class := do
  let world ← get
  let definition ← Operation.ofConstants (Definition.ofSpec world.nextClass spec)
  set { world with nextClass := world.nextClass + 1 }
  return { definition
           ancestors := match superclass with
             | some above => above.definition :: above.ancestors
             | none => [] }

def findClass (descriptor : Descriptor) : Operation Class := do
  match (← get).loader.classes.lookup descriptor with
  | some self => return self
  | none => throw (.unknownClass descriptor)

/-- Loads a class and makes it known under its descriptor. Its superclass has to be known already,
and a known class is never replaced. -/
def define (spec : ClassSpec) : Operation Class := do
  let superclass ← spec.superclass.mapM findClass
  let self ← load spec superclass
  let world ← get
  if (world.loader.classes.lookup self.descriptor).isSome then
    throw (.duplicateClass self.descriptor)
  set { world with
    loader := { world.loader with
      classes := (self.descriptor, self) :: world.loader.classes } }
  return self

/-- A new instance of a class with requested parameters. -/
def instantiate (descriptor : Descriptor) (requested : Option Value) : Operation Instance := do
  return .ofCarrier (← resolve (.ofClass (← findClass descriptor)) requested)

/-- The carrier that a request for an instantiation names. -/
def link (request : Value) : Operation Carrier := do
  match request with
  | .linkage (.species raw parameters) =>
    resolve (.ofClass (← findClass raw)) (some parameters)
  | other => throw (.constants (.linkage Action.linkage.text [other.text] .notSpeciesLinkage))

/-- The carrier of a superclass by its descriptor, as seen from a carrier. -/
def supertypeCarrierNamed (host : Host) (carrier : Carrier) (descriptor : Descriptor) :
    Operation (Option Carrier) := do
  let ancestor ← findClass descriptor
  supertypeCarrier host (← Operation.functions) carrier ancestor

end Specialization
