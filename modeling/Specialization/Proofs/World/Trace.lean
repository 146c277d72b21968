import Specialization.Proofs.World.Effect

/-!
Traces of a store. Whatever a program does, it adds carriers to the store only by resolving them,
so what happens to the store is told by the resolutions that succeed, one after the other. They
count wherever they occur: a lookup of a supertype, an instantiation or a call may resolve several
carriers, and an operation that fails keeps those that it resolved before.
-/

namespace Specialization

/-- A resolution that succeeded. -/
structure Resolution where
  location : Location
  requested : Option Value
  carrier : Carrier

/-- What the requested parameters are erased to. -/
def Resolution.erased (resolution : Resolution) : Option Value :=
  resolution.location.defaults.map fun default => erase resolution.requested default

namespace World

/-- Between two worlds no carrier is added and none is counted. Supertypes may be remembered. -/
def Quiet (before after : World) : Prop :=
  after.store = { before.store with supertypes := after.store.supertypes }

theorem Quiet.of_store {before after : World} (h : after.store = before.store) :
    before.Quiet after := by
  rw [Quiet, h]

/-- From one world to another, with the resolutions that succeed between them. -/
inductive Traced : World → List Resolution → World → Prop
  | quiet {before after : World} (h : before.Quiet after) : Traced before [] after
  | resolved {before after : World} {location : Location} {requested : Option Value}
      {carrier : Carrier} (h : exec (resolve location requested) before = (.ok carrier, after)) :
      Traced before [⟨location, requested, carrier⟩] after
  | append {first second third : World} {trace later : List Resolution}
      (h : Traced first trace second) (h' : Traced second later third) :
      Traced first (trace ++ later) third

end World

namespace Scene

variable {host : Host} {scene next : Scene}

/-- Of all effects only resolutions add carriers, or count them. -/
theorem Effect.traced (h : scene.Effect host next) :
    ∃ trace, scene.world.Traced trace next.world := by
  cases h with
  | @resolved location howner requested =>
      rw [after]
      rcases hrun : exec (resolve location requested) scene.world with ⟨error | carrier, after⟩
      · obtain ⟨hnone, _⟩ := exec_resolve_eq_error.mp (congrArg Prod.fst hrun)
        rw [resolve, hnone] at hrun
        cases hrun
        exact ⟨[], .quiet (.of_store rfl)⟩
      · exact ⟨_, .resolved hrun⟩
  | evaluated functions hself constant scope =>
      exact ⟨[], .quiet (.of_store (Class.leaves_evaluate host (Class.apart_store _) functions
        constant scope _))⟩
  | read functions hself constant carrier =>
      exact ⟨[], .quiet (.of_store (Class.leaves_accessorValue host (Class.apart_store _) functions
        constant carrier _))⟩
  | remembered => exact ⟨[], .quiet rfl⟩
  | _ => exact ⟨[], .quiet (.of_store rfl)⟩

end Scene

end Specialization
