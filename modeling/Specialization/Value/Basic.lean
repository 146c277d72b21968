import Specialization.Decimal.Double

/-!
Values of constants. A function value is a native function with the trailing arguments bound to it
so far. Equality of values is structural, doubles are compared by their words, and functions by
their name and their bound arguments, whatever they compute.
-/

namespace Specialization

/-- A reified type is known by its descriptor alone. -/
abbrev Descriptor := String

/-- What a native function computes: one of the standard functions, or one that the host program
supplies under a number. -/
inductive Code where
  | intAdd
  | listConcat
  | speciesOf
  | typeDescriptor
  | host (index : Nat)
  deriving DecidableEq

structure NativeFunction where
  name : String
  arity : Nat
  code : Code
  deriving DecidableEq

inductive Value where
  | unit
  | bool (value : Bool)
  | int (value : Int32)
  | double (value : Double)
  | string (value : String)
  | type (descriptor : Descriptor)
  | list (items : List Value)
  /-- One instantiation: a raw type with its parameters. -/
  | species (raw : Descriptor) (parameters : Value)
  /-- A request to instantiate or to call. -/
  | linkage (inner : Value)
  /-- The runtime types that an argument may have. -/
  | restriction (types : List Descriptor)
  | function (native : NativeFunction) (bound : List Value)

/-- The constructor of a value, as messages name it. -/
inductive Kind where
  | unit | bool | int | double | string | type | list | species | linkage | restriction | function
  deriving DecidableEq

def Kind.text : Kind → String
  | .unit => "unit"
  | .bool => "bool"
  | .int => "int"
  | .double => "double"
  | .string => "string"
  | .type => "type"
  | .list => "list"
  | .species => "species"
  | .linkage => "linkage"
  | .restriction => "restriction"
  | .function => "function"

namespace Value

def kind : Value → Kind
  | .unit => .unit
  | .bool _ => .bool
  | .int _ => .int
  | .double _ => .double
  | .string _ => .string
  | .type _ => .type
  | .list _ => .list
  | .species _ _ => .species
  | .linkage _ => .linkage
  | .restriction _ => .restriction
  | .function _ _ => .function

mutual
def beq : Value → Value → Bool
  | .unit, .unit => true
  | .bool a, .bool b => a == b
  | .int a, .int b => a == b
  | .double a, .double b => a == b
  | .string a, .string b => a == b
  | .type a, .type b => a == b
  | .list a, .list b => beqList a b
  | .species a p, .species b q => a == b && beq p q
  | .linkage a, .linkage b => beq a b
  | .restriction a, .restriction b => a == b
  | .function f a, .function g b => f.name == g.name && beqList a b
  | _, _ => false

def beqList : List Value → List Value → Bool
  | [], [] => true
  | a :: as, b :: bs => beq a b && beqList as bs
  | _, _ => false
end

instance : BEq Value := ⟨beq⟩

def asInt? : Value → Option Int32
  | .int value => some value
  | _ => none

def asType? : Value → Option Descriptor
  | .type descriptor => some descriptor
  | _ => none

def asList? : Value → Option (List Value)
  | .list items => some items
  | _ => none

def asSpecies? : Value → Option (Descriptor × Value)
  | .species raw parameters => some (raw, parameters)
  | _ => none

def asFunction? : Value → Option (NativeFunction × List Value)
  | .function native bound => some (native, bound)
  | _ => none

theorem eq_list_of_asList? {value : Value} {items : List Value} (h : value.asList? = some items) :
    value = .list items := by
  unfold asList? at h
  split at h
  · cases h
    rfl
  · cases h

theorem eq_species_of_asSpecies? {value parameters : Value} {raw : Descriptor}
    (h : value.asSpecies? = some (raw, parameters)) : value = .species raw parameters := by
  unfold asSpecies? at h
  split at h
  · cases h
    rfl
  · cases h

theorem eq_function_of_asFunction? {value : Value} {native : NativeFunction} {bound : List Value}
    (h : value.asFunction? = some (native, bound)) : value = .function native bound := by
  unfold asFunction? at h
  split at h
  · cases h
    rfl
  · cases h

/-- Whether a value may stand in a specialization slot: only types and instantiations may, and all
else gives way to the default of the slot. -/
def isSpecializationArgument : Value → Bool
  | .type _ => true
  | .species _ _ => true
  | _ => false

end Value

end Specialization
