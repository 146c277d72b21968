import Specialization.CallSite.InlineCache

/-!
Call sites that are guarded by the identity of a carrier. The target is a function-valued constant
of the class of the site, read under the carrier.
-/

namespace Specialization

instance : GuardKey Carrier := ⟨fun a b => a == b⟩

structure SpecializedCallSite where
  owner : Class
  constant : String
  adaptation : Adaptation := .none
  /-- Slots with the constants that restrict them. -/
  restrictions : List (Nat × String) := []
  cache : InlineCache Carrier := {}

namespace SpecializedCallSite

variable (host : Host)

/-- The value of a constant of the owner, with the carrier under which it was read. -/
def read (site : SpecializedCallSite) (constant : String) (carrier : Carrier) :
    Operation (Value × Carrier) := do
  let own ← scopedCarrier host site.owner constant carrier
  let value ← site.owner.accessorValue host (← Operation.functions) constant own
  return (value, own)

def resolve (site : SpecializedCallSite) (carrier : Carrier) : Operation Target := do
  let (value, own) ← site.read host site.constant carrier
  let function ← liftExcept (Target.expectFunction site.constant value)
  let target ← liftExcept (Target.adapt function site.adaptation (some own))
  site.restrictions.foldlM (fun target (slot, constant) => do
    let (restriction, _) ← site.read host constant carrier
    return target.restrict slot restriction) target

/-- Calls the site under a carrier; the result comes with the site as it is afterwards. -/
def invoke (site : SpecializedCallSite) (carrier : Carrier) (arguments : List Value) :
    StateM World (Except Error Value × SpecializedCallSite) := do
  let (result, cache) ← site.cache.invoke host carrier arguments (site.resolve host carrier)
  return (result, { site with cache })

end SpecializedCallSite

end Specialization
