import Specialization.Loading

/-!
Reading a constant under what is ambient. A guard makes a carrier ambient and, when it ends,
restores what was ambient when it was made. The constant to be read is marked first, and a read
takes the mark whether it succeeds or not.
-/

namespace Specialization

/-- What makes a carrier ambient, with what was ambient before. -/
structure Guard where
  carrier : Carrier
  previous : Option Carrier

def enter (carrier : Carrier) : Operation Guard := do
  let previous := (← get).ambient.carrier
  Operation.modifyAmbient fun ambient => { ambient with carrier := some carrier }
  return { carrier, previous }

/-- Ends a guard. Guards may end in any order. -/
def Guard.exit (guard : Guard) : Operation Unit :=
  Operation.modifyAmbient fun ambient => { ambient with carrier := guard.previous }

def currentCarrier : Operation (Option Carrier) :=
  return (← get).ambient.carrier

/-- Marks the constant that is read next. -/
def markInFlight (descriptor : Descriptor) (constant : String) : Operation Unit :=
  Operation.modifyAmbient fun ambient => { ambient with inFlight := some (descriptor, constant) }

/-- The marked constant; the mark is gone afterwards. -/
def takeInFlight : Operation (Descriptor × String) := do
  let marked := (← get).ambient.inFlight
  Operation.modifyAmbient fun ambient => { ambient with inFlight := none }
  match marked with
  | some marked => return marked
  | none => throw .noConstantInFlight

variable (host : Host)

/-- The carrier under which a constant of a class is read, starting from a carrier: that carrier if
it belongs to the class that declares the anchor, and else the carrier of that class as its
superclass. -/
def scopedCarrier (self : Class) (constant : String) (carrier : Carrier) : Operation Carrier := do
  match self.carrierClass? constant with
  | none => return carrier
  | some expected =>
    let found := carrier.owner
    if found.descriptor = expected then return carrier
    let mismatch := Error.carrierMismatch constant expected found.descriptor
    match (← get).loader.classes.lookup expected with
    | none => throw mismatch
    | some ancestor =>
      if carrier.isClassLevel && (found.distanceTo? ancestor).isSome then
        match ← supertypeCarrier host (← Operation.functions) carrier ancestor with
        | some own => return own
        | none => throw mismatch
      else throw mismatch

/-- The value of the marked constant. One that is fixed at link time needs no carrier. -/
def resolveAmbientConstant : Operation Value := do
  let (descriptor, constant) ← takeInFlight
  let self ← findClass descriptor
  let functions ← Operation.functions
  if !self.analysis.contains constant then
    throw (.constants (.unresolvedReference self.descriptor constant))
  if self.analysis.needsAccessor constant then
    match ← currentCarrier with
    | none => throw (.noAmbientCarrier constant)
    | some carrier =>
      self.accessorValue host functions constant (← scopedCarrier host self constant carrier)
  else self.evaluate host functions constant .unbound

end Specialization
