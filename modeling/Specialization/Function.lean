import Specialization.Error

/-!
Native functions: what the standard ones compute, how arguments are bound to a function and how it
is called, and the registry that finds a function by its name.

Arguments that are bound come after those of the call, in the order in which they were bound, and a
call has to supply exactly the arguments that are left.
-/

namespace Specialization

/-- What the functions of the host program compute, by their number. -/
abbrev Host := Nat → List Value → Except String Value

namespace NativeFunction

def addInts : List Value → Except NativeFault Value
  | [.int a, .int b] =>
    match Decimal.int32? (a.toInt + b.toInt) with
    | some sum => .ok (.int sum)
    | none => .error .integerOverflow
  | first :: second :: _ => .error (.notInts first.kind second.kind)
  | _ => .error (.notInts .unit .unit)

def concatLists : List Value → Except NativeFault Value
  | [.list a, .list b] => .ok (.list (a ++ b))
  | first :: second :: _ => .error (.notLists first.kind second.kind)
  | _ => .error (.notLists .unit .unit)

def makeSpecies : List Value → Except NativeFault Value
  | [.type raw, parameters] => .ok (.species raw parameters)
  | first :: _ => .error (.speciesRaw first.kind)
  | [] => .error (.speciesRaw .unit)

/-- The descriptor of a type or of an instantiation as text, and the type that a text describes. -/
def convertDescriptor : List Value → Except NativeFault Value
  | .type descriptor :: _ => .ok (.string descriptor)
  | .species raw _ :: _ => .ok (.string raw)
  | .string descriptor :: _ => .ok (.type descriptor)
  | other :: _ => .error (.noDescriptor other.kind)
  | [] => .error (.noDescriptor .unit)

/-- What a function computes from a full list of arguments. -/
def compute (host : Host) (native : NativeFunction) (arguments : List Value) :
    Except NativeFault Value :=
  match native.code with
  | .intAdd => addInts arguments
  | .listConcat => concatLists arguments
  | .speciesOf => makeSpecies arguments
  | .typeDescriptor => convertDescriptor arguments
  | .host index => (host index arguments).mapError .host

/-- How many arguments a call has to supply once `bound` are bound. -/
def remainingArity (native : NativeFunction) (bound : List Value) : Nat :=
  native.arity - bound.length

/-- The result of calling a function with bound arguments. -/
def invoke (host : Host) (native : NativeFunction) (bound arguments : List Value) :
    Except ConstantError Value :=
  let full := arguments ++ bound
  if full.length = native.arity then
    (native.compute host full).mapError fun fault =>
      .linkage native.name (Value.texts full) (.native fault)
  else
    .error (.linkage native.name (Value.texts full) (.arityMismatch native.arity full.length))

end NativeFunction

/-- A function with its bound arguments, as call targets hold it. -/
structure BoundFunction where
  native : NativeFunction
  bound : List Value

namespace BoundFunction

def remainingArity (function : BoundFunction) : Nat :=
  function.native.remainingArity function.bound

/-- Binds further arguments, after those already bound. -/
def bind (function : BoundFunction) (arguments : List Value) : BoundFunction :=
  { function with bound := function.bound ++ arguments }

def invoke (host : Host) (function : BoundFunction) (arguments : List Value) :
    Except ConstantError Value :=
  function.native.invoke host function.bound arguments

def toValue (function : BoundFunction) : Value :=
  .function function.native function.bound

def text (function : BoundFunction) : String :=
  function.toValue.text

end BoundFunction

/-- The native functions that constants can name. A function registered later hides those of the
same name. -/
structure Registry where
  functions : List NativeFunction

namespace Registry

def empty : Registry := ⟨[]⟩

def register (registry : Registry) (native : NativeFunction) : Registry :=
  ⟨native :: registry.functions⟩

def find? (registry : Registry) (name : String) : Option NativeFunction :=
  registry.functions.find? (·.name == name)

/-- A function by its name, with nothing bound. -/
def lookup (registry : Registry) (name : String) : Option BoundFunction :=
  (registry.find? name).map fun native => ⟨native, []⟩

def contains (registry : Registry) (name : String) : Bool :=
  (registry.find? name).isSome

/-- The functions that generated code may rely on. -/
def standard : Registry :=
  ⟨[⟨"int.add", 2, .intAdd⟩, ⟨"list.concat", 2, .listConcat⟩, ⟨"species.of", 2, .speciesOf⟩,
    ⟨"type.descriptor", 1, .typeDescriptor⟩]⟩

theorem find?_register (registry : Registry) (native : NativeFunction) (name : String) :
    (registry.register native).find? name =
      if native.name = name then some native else registry.find? name := by
  by_cases h : native.name = name <;> simp [register, find?, h]

end Registry

theorem BoundFunction.bind_bind (function : BoundFunction) (first second : List Value) :
    (function.bind first).bind second = function.bind (first ++ second) := by
  simp [bind]

end Specialization
