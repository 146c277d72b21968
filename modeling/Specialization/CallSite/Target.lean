import Specialization.Function
import Specialization.Reading
import Specialization.Restriction

/-!
Call targets: a function fitted to the arguments of a call site, with restrictions on them. The
restrictions are checked in the order in which they were attached, against the arguments of the
call site as they are given.
-/

namespace Specialization

/-- How a function is fitted to the arguments of a call site. -/
inductive Adaptation where
  | none
  /-- The parameters that the carrier has at a level come first. -/
  | insert (level : Level)
  /-- The first arguments of the call site are dropped. -/
  | dropLeading (count : Nat)

structure Target where
  function : BoundFunction
  /-- The arguments that come before those of the call. -/
  leading : List Value := []
  /-- How many arguments of the call are dropped. -/
  dropped : Nat := 0
  /-- Slots of the call with their restrictions, in the order of their checks. -/
  restrictions : List (Nat × Value) := []

namespace Target

/-- Fits a function to a call site. Only inserting parameters needs a carrier. -/
def adapt (function : BoundFunction) (adaptation : Adaptation) (carrier : Option Carrier) :
    Except Error Target :=
  match adaptation with
  | .none => .ok { function }
  | .insert level =>
    match carrier.bind fun carrier => carrier.scope.parameters level with
    | some parameters => .ok { function, leading := [parameters] }
    | .none => .error (.missingCarrierParameters level)
  | .dropLeading count => .ok { function, dropped := count }

def restrict (target : Target) (slot : Nat) (restriction : Value) : Target :=
  { target with restrictions := target.restrictions ++ [(slot, restriction)] }

/-- Checks one restriction against the arguments of a call. -/
def checkSlot (arguments : List Value) (slot : Nat) (restriction : Value) : Except Error Unit :=
  match arguments[slot]? with
  | some value => checkRestriction restriction slot value
  | .none => .error (.missingArgument slot)

def invoke (host : Host) (target : Target) (arguments : List Value) : Except Error Value := do
  target.restrictions.forM fun (slot, restriction) => checkSlot arguments slot restriction
  (target.function.invoke host (target.leading ++ arguments.drop target.dropped)).mapError
    .constants

/-- The function that a constant has as its value. -/
def expectFunction (constant : String) (value : Value) : Except Error BoundFunction :=
  match value.asFunction? with
  | some (native, bound) => .ok { native, bound }
  | .none => .error (.constants (.linkage constant [value.text] (.callTarget value.kind)))

end Target

end Specialization
