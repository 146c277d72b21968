import Specialization.Evaluation
import Specialization.Location

/-!
Carriers: the context of one specialization, which is a location with erased parameters. A
class-level carrier may own a backing type, a class made only so that an instance can find its
carrier through its own runtime class.
-/

namespace Specialization

/-- What a carrier has of its backing type: the name, and the class that it stands for. -/
structure Backing where
  name : String
  raw : Class

structure Carrier where
  /-- Carriers are told apart by their number, in the order in which they were made. -/
  id : Nat
  location : Location
  classParameters : Option Value
  methodParameters : Option Value
  backing : Option Backing

/-- What anchors read for the erased parameters of a location. A method is located for parameters of
its class, which are read besides its own. -/
def Location.scope (location : Location) (parameters : Value) : Scope :=
  match location with
  | .ofClass _ => { classParameters := some parameters }
  | .method _ classParameters _ => { classParameters, methodParameters := some parameters }

namespace Carrier

/-- A new carrier of a location with erased parameters, with a backing type if that has a name. -/
def synthesize (id : Nat) (location : Location) (parameters : Value) (name : Option String) :
    Carrier where
  id
  location
  classParameters := (location.scope parameters).classParameters
  methodParameters := (location.scope parameters).methodParameters
  backing := name.map fun name => { name, raw := location.owner }

/-- Carriers are compared by identity. -/
instance : BEq Carrier := ⟨fun a b => a.id == b.id⟩

/-- The class of the location. -/
def owner (carrier : Carrier) : Class :=
  carrier.location.owner

def isClassLevel (carrier : Carrier) : Bool :=
  carrier.location.isClassLevel

def backingName? (carrier : Carrier) : Option String :=
  carrier.backing.map Backing.name

/-- The parameters that anchors read under the carrier. -/
def scope (carrier : Carrier) : Scope :=
  { classParameters := carrier.classParameters, methodParameters := carrier.methodParameters }

def text (carrier : Carrier) : String :=
  let shown (level : String) (parameters : Option Value) : String :=
    match parameters with
    | some value => " " ++ level ++ "=" ++ value.text
    | none => ""
  "carrier#" ++ Decimal.naturalText carrier.id ++ " " ++ carrier.location.text ++
    shown "class" carrier.classParameters ++ shown "method" carrier.methodParameters

def description (carrier : Carrier) : String :=
  recordText "Carrier"
    [("id", Decimal.naturalText carrier.id), ("location", Text.quoted carrier.location.text),
      ("class_parameters", Value.describeOption carrier.classParameters),
      ("method_parameters", Value.describeOption carrier.methodParameters),
      ("backing", Text.quotedOption carrier.backingName?)]

end Carrier

/-- The class that is made for one carrier. It is reached through its carrier only, and leads back
to it. -/
structure BackingType extends Backing where
  carrier : Carrier

def BackingType.description (backing : BackingType) : String :=
  "BackingType(" ++ backing.name ++ ")"

def Carrier.backingType? (carrier : Carrier) : Option BackingType :=
  carrier.backing.map fun backing => { backing with carrier }

end Specialization
