import Specialization.World

/-!
Reading the constants of a loaded class. A constant fixed at link time is evaluated once for the
class, and one that varies with an anchor once for each carrier; both keep the first value.
-/

namespace Specialization

variable (host : Host)

namespace Class

/-- The value of a constant under a scope. -/
def evaluate (functions : Registry) (self : Class) (constant : String) (scope : Scope) :
    Operation Value := do
  let world ← get
  let values := world.valuesOf self
  let evaluator : Evaluator := { host, functions, analysis := self.analysis, scope }
  let (result, pass) := (evaluator.evaluate constant).run.run { cache := some values.link }
  set (world.setValues self { values with link := pass.cache.getD values.link })
  Operation.ofConstants result

/-- Fails if a constant is not read under carriers of the class of the given one. -/
def checkCarrier (self : Class) (constant : String) (carrier : Carrier) : Operation Unit :=
  match self.carrierClass? constant with
  | some expected =>
    let found := carrier.owner.descriptor
    if found = expected then return ()
    else throw (.carrierMismatch constant expected found)
  | none => return ()

/-- The value of a constant under a carrier. -/
def accessorValue (functions : Registry) (self : Class) (constant : String) (carrier : Carrier) :
    Operation Value := do
  self.checkCarrier constant carrier
  let key := (carrier.id, constant)
  match ((← get).valuesOf self).accessors.lookup key with
  | some value => return value
  | none =>
    let value ← self.evaluate host functions constant carrier.scope
    modify fun world =>
      let values := world.valuesOf self
      world.setValues self { values with accessors := (key, value) :: values.accessors }
    return value

end Class

end Specialization
