import Specialization.Config.Basic
import Specialization.Instance

/-!
The state that operations on loaded classes change: the store of carriers, the classes of the
loader, the values of constants that each class keeps, and what is ambient. An operation that fails
keeps the changes it made before it failed.
-/

namespace Specialization

/-- A carrier under the location and the erased parameters that it was made for. -/
structure Store.Entry where
  location : Location
  parameters : Value
  carrier : Carrier

/-- The specializations made so far. There is one carrier for each location with erased
parameters, and it is never replaced. -/
structure Store where
  config : Config := {}
  /-- The entries, newest first. -/
  entries : List Store.Entry := []
  /-- The carrier of the direct superclass, by the number of the carrier of the subclass and that of
  the superclass. -/
  supertypes : List ((Nat × Nat) × Carrier) := []
  /-- How many backing types have been named. -/
  backingNames : Nat := 0
  hits : Nat := 0
  misses : Nat := 0
  /-- How many carriers were made while another one took their place in the store. -/
  lostRaces : Nat := 0

namespace Store

def carriers (store : Store) : List Carrier :=
  store.entries.map Entry.carrier

/-- The carrier of a location with erased parameters. -/
def find? (store : Store) (location : Location) (parameters : Value) : Option Carrier :=
  (store.entries.find? fun entry =>
    entry.location == location && entry.parameters == parameters).map Entry.carrier

end Store

/-- The classes that can be found by their descriptor, and the functions that they can name. -/
structure Loader where
  functions : Registry := .standard
  classes : List (Descriptor × Class) := []

/-- The values that one class keeps: those fixed at link time, and those read under a carrier, by
the number of the carrier and the name of the constant. -/
structure ClassValues where
  link : Values := []
  accessors : List ((Nat × String) × Value) := []

/-- What is ambient: the carrier under which constants are read, and the constant to be read next,
by the descriptor of its class and its name. -/
structure Ambient where
  carrier : Option Carrier := none
  inFlight : Option (Descriptor × String) := none

structure World where
  /-- The number of the next class. -/
  nextClass : Nat := 0
  /-- The number of the next carrier. -/
  nextCarrier : Nat := 1
  /-- The values kept by each class, by its number, newest first. -/
  values : List (Nat × ClassValues) := []
  store : Store := {}
  loader : Loader := {}
  ambient : Ambient := {}

namespace World

def valuesOf (world : World) (self : Class) : ClassValues :=
  (world.values.lookup self.id).getD {}

def setValues (world : World) (self : Class) (values : ClassValues) : World :=
  { world with values := (self.id, values) :: world.values }

end World

/-- An operation on loaded classes. -/
abbrev Operation := ExceptT Error (StateM World)

namespace Operation

/-- An evaluation that touches no state, as an operation. -/
def ofConstants {α : Type} : Except ConstantError α → Operation α
  | .ok value => return value
  | .error error => throw (.constants error)

def modifyStore (change : Store → Store) : Operation Unit :=
  modify fun world => { world with store := change world.store }

def modifyAmbient (change : Ambient → Ambient) : Operation Unit :=
  modify fun world => { world with ambient := change world.ambient }

def functions : Operation Registry :=
  return (← get).loader.functions

end Operation

end Specialization
