import Specialization.ClassConstant

/-!
Resolving carriers: the carrier of a location for requested parameters, and the carrier of a
superclass as it is seen from a carrier of a subclass.
-/

namespace Specialization

/-- A new carrier, which the store does not have yet. Class-level carriers get a backing type if the
settings ask for it, numbered in the order of their creation. -/
def World.makeCarrier (world : World) (location : Location) (parameters : Value) :
    Carrier × World :=
  let named := world.store.config.synthesizeBackingTypes && location.isClassLevel
  let number := world.store.backingNames
  let name := location.owner.descriptor ++ "$Carrier$" ++ Decimal.naturalText number
  (.synthesize world.nextCarrier location parameters (if named then some name else none),
    { world with
      nextCarrier := world.nextCarrier + 1
      store := { world.store with backingNames := if named then number + 1 else number } })

/-- The world with a carrier in the store, under a location with erased parameters. -/
def World.keepCarrier (world : World) (location : Location) (parameters : Value)
    (carrier : Carrier) : World :=
  { world with store := { world.store with
    entries := { location, parameters, carrier } :: world.store.entries } }

/-- A new carrier in the store. -/
def World.addCarrier (world : World) (location : Location) (parameters : Value) :
    Carrier × World :=
  let made := world.makeCarrier location parameters
  (made.1, made.2.keepCarrier location parameters made.1)

section

variable (world : World) (location : Location) (parameters : Value)

@[simp]
theorem World.addCarrier_entries : (world.addCarrier location parameters).2.store.entries =
    { location, parameters, carrier := (world.addCarrier location parameters).1 } ::
      world.store.entries := rfl

@[simp]
theorem World.addCarrier_hits :
    (world.addCarrier location parameters).2.store.hits = world.store.hits := rfl

@[simp]
theorem World.addCarrier_misses :
    (world.addCarrier location parameters).2.store.misses = world.store.misses := rfl

@[simp]
theorem World.addCarrier_lostRaces :
    (world.addCarrier location parameters).2.store.lostRaces = world.store.lostRaces := rfl

end

/-- The carrier of a location for requested parameters, the same one whenever the parameters erase
to the same. A new carrier gives way to one that the store has got since it was asked. -/
def resolve (location : Location) (requested : Option Value) : Operation Carrier := do
  match location.defaults with
  | none => throw (.notSpecializable location.text)
  | some default =>
    let parameters := erase requested default
    match (← get).store.find? location parameters with
    | some carrier =>
      Operation.modifyStore fun store => { store with hits := store.hits + 1 }
      return carrier
    | none =>
      Operation.modifyStore fun store => { store with misses := store.misses + 1 }
      let made ← modifyGet fun world => world.makeCarrier location parameters
      match (← get).store.find? location parameters with
      | some winner =>
        Operation.modifyStore fun store => { store with lostRaces := store.lostRaces + 1 }
        return winner
      | none =>
        modify fun world => world.keepCarrier location parameters made
        return made

/-- The carrier of a class for its default parameters, if it has any. -/
def resolveDefault (self : Class) : Operation (Option Carrier) := do
  if self.isSpecializable then return some (← resolve (.ofClass self) none)
  else return none

variable (host : Host)

/-- The carrier of the direct superclass, found anew. A class that maps its supertype has to map it
to its direct superclass; otherwise the superclass takes its defaults. -/
def findDirectSupertype (functions : Registry) (carrier : Carrier) (superclass : Class) :
    Operation (Option Carrier) := do
  let self := carrier.owner
  match self.analysis.superMapping with
  | none => resolveDefault superclass
  | some constant =>
    let mapping ← self.accessorValue host functions constant carrier
    match mapping.asSpecies? with
    | none =>
      throw (.constants (.linkage Action.supertype.text [mapping.text] .supertypeSpecies))
    | some (raw, parameters) =>
      if raw = superclass.descriptor then
        return some (← resolve (.ofClass superclass) (some parameters))
      else throw (.supertypeMismatch self.descriptor superclass.descriptor raw)

/-- The carrier of the direct superclass, remembered for each carrier. -/
def directSupertype (functions : Registry) (carrier : Carrier) (superclass : Class) :
    Operation (Option Carrier) := do
  let key := (carrier.id, superclass.id)
  match (← get).store.supertypes.lookup key with
  | some found => return some found
  | none =>
    match ← findDirectSupertype host functions carrier superclass with
    | some found =>
      Operation.modifyStore fun store =>
        { store with supertypes := (key, found) :: store.supertypes }
      return some found
    | none => return none

/-- Climbs a chain of superclasses. Above a class without carrier the next specializable one takes
its defaults. -/
def climb (functions : Registry) : Option Carrier → List Class → Operation (Option Carrier)
  | current, [] => return current
  | some carrier, superclass :: rest => do
    climb functions (← directSupertype host functions carrier superclass) rest
  | none, superclass :: rest => do
    climb functions (← resolveDefault superclass) rest

/-- The carrier of an ancestor as seen from a class-level carrier, `none` if the ancestor is not
specializable and nothing below maps to it. -/
def supertypeCarrier (functions : Registry) (carrier : Carrier) (ancestor : Class) :
    Operation (Option Carrier) := do
  let self := carrier.owner
  let failure := Error.notASupertype self.descriptor ancestor.descriptor
  if carrier.isClassLevel then
    match self.distanceTo? ancestor with
    | none => throw failure
    | some distance =>
      let limit := (← get).store.config.maxSupertypeDepth
      if limit < distance then throw (.supertypeDepthExceeded self.descriptor limit)
      climb host functions (some carrier) ((self.lineage.drop 1).take distance)
  else throw failure

end Specialization
