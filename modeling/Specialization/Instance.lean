import Specialization.Carrier

/-!
Instances of loaded classes. A specialized instance finds its carrier through its runtime class if
the carrier has a backing type, and holds it otherwise.
-/

namespace Specialization

/-- The class that an instance reports. -/
inductive RuntimeClass where
  | raw (self : Class)
  | backing (type : BackingType)

namespace RuntimeClass

/-- The loaded class behind it. -/
def loaded : RuntimeClass → Class
  | .raw self => self
  | .backing type => type.raw

def name : RuntimeClass → String
  | .raw self => self.descriptor
  | .backing type => type.name

/-- A backing type belongs to one carrier, so it is told apart by it. -/
def beq : RuntimeClass → RuntimeClass → Bool
  | .raw a, .raw b => a == b
  | .backing a, .backing b => a.carrier == b.carrier
  | _, _ => false

instance : BEq RuntimeClass := ⟨beq⟩

end RuntimeClass

structure Instance where
  runtimeClass : RuntimeClass
  /-- The carrier that the instance holds itself. -/
  held : Option Carrier := none

namespace Instance

/-- A specialized instance of the class of a carrier. -/
def ofCarrier (carrier : Carrier) : Instance :=
  match carrier.backingType? with
  | some type => { runtimeClass := .backing type }
  | none => { runtimeClass := .raw carrier.owner, held := some carrier }

/-- An instance that is not specialized. -/
def plain (self : Class) : Instance :=
  { runtimeClass := .raw self }

/-- The loaded class of an instance. -/
def owner (self : Instance) : Class :=
  self.runtimeClass.loaded

/-- The carrier for which the instance was made. -/
def carrier? (self : Instance) : Option Carrier :=
  match self.runtimeClass with
  | .backing type => some type.carrier
  | .raw _ => self.held

theorem carrier?_ofCarrier (carrier : Carrier) : (ofCarrier carrier).carrier? = some carrier := by
  cases h : carrier.backing <;> simp [ofCarrier, Carrier.backingType?, carrier?, h]

end Instance

end Specialization
