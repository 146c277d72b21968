import Specialization.CallSite.InlineCache

/-!
Call sites that are guarded by the runtime class of the receiver, and by the carrier it holds where
the class alone does not tell the carrier. The method is looked up in the class of the receiver and
in its superclasses.
-/

namespace Specialization

structure ReceiverGuard where
  runtimeClass : RuntimeClass
  carrier : Option Carrier

namespace ReceiverGuard

def of (receiver : Instance) : ReceiverGuard :=
  { runtimeClass := receiver.runtimeClass
    carrier := match receiver.runtimeClass with
      | .raw _ => receiver.carrier?
      | .backing _ => none }

instance : GuardKey ReceiverGuard where
  admits a b := a.runtimeClass == b.runtimeClass && a.carrier == b.carrier

end ReceiverGuard

structure ReceiverCallSite where
  method : String
  adaptation : Adaptation := .none
  cache : InlineCache ReceiverGuard := {}

namespace ReceiverCallSite

variable (host : Host)

/-- The carrier of the class that declares the method, as seen from the receiver. A receiver without
carrier takes the defaults of that class. -/
def declaringCarrier (receiver : Instance) (declaring : Class) : Operation (Option Carrier) := do
  match receiver.carrier? with
  | some own =>
    if declaring == receiver.owner then return some own
    else supertypeCarrier host (← Operation.functions) own declaring
  | none => resolveDefault declaring

def resolve (site : ReceiverCallSite) (receiver : Instance) : Operation Target := do
  match receiver.owner.findMethod? site.method with
  | none => throw (.unknownMethod receiver.owner.descriptor site.method)
  | some (declaring, method) =>
    let constant := method.implementation
    let functions ← Operation.functions
    match ← declaringCarrier host receiver declaring with
    | some own =>
      let carrier ← scopedCarrier host declaring constant own
      let value ← declaring.accessorValue host functions constant carrier
      let function ← liftExcept (Target.expectFunction constant value)
      liftExcept (Target.adapt function site.adaptation (some carrier))
    | none =>
      let value ← declaring.evaluate host functions constant .unbound
      let function ← liftExcept (Target.expectFunction constant value)
      liftExcept (Target.adapt function site.adaptation none)

/-- Calls the method on a receiver; the result comes with the site as it is afterwards. -/
def invoke (site : ReceiverCallSite) (receiver : Instance) (arguments : List Value) :
    StateM World (Except Error Value × ReceiverCallSite) := do
  let (result, cache) ←
    site.cache.invoke host (ReceiverGuard.of receiver) arguments (site.resolve host receiver)
  return (result, { site with cache })

end ReceiverCallSite

end Specialization
