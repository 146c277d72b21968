import Mathlib.Logic.Relation
import Specialization.Proofs.CallSite.InlineCache
import Specialization.Proofs.CallSite.Resolution
import Specialization.Proofs.World.Loading

/-!
Runs of a program. A program moves from one scene to the next by any operation on classes and
carriers that it holds, in any order, and operations that fail are moves too. Every scene that it
reaches is sound.
-/

namespace Specialization

/-- An instance is made for a carrier of the class with that descriptor. -/
theorem instantiate_eq (descriptor : Descriptor) (requested : Option Value) :
    instantiate descriptor requested =
      (findClass descriptor >>= fun self => resolve (.ofClass self) requested) >>= fun carrier =>
        pure (.ofCarrier carrier) := by
  rw [instantiate, bind_assoc]

variable (host : Host)

namespace Scene

variable {scene : Scene}

/-- A guard remembers the carrier that was ambient before. -/
theorem safe_enter (hsound : scene.Sound) {carrier : Carrier} (hcarrier : scene.Knows carrier) :
    scene.Safe (enter carrier) fun scene guard =>
      ∀ previous, guard.previous = some previous → scene.Knows previous := by
  have hgrows : scene.Grows (scene.after (enter carrier)) := by
    apply Grows.of_ambient
    rintro other ⟨⟩
    exact hcarrier
  refine ⟨hgrows, ?_⟩
  rintro guard ⟨⟩ previous hprevious
  exact (hsound.ambient previous hprevious).grow hgrows

theorem safe_exit {guard : Guard}
    (hprevious : ∀ carrier, guard.previous = some carrier → scene.Knows carrier) :
    scene.Safe guard.exit fun _ _ => True :=
  ⟨Grows.of_ambient _ hprevious, fun _ _ => trivial⟩

theorem safe_mark (hsound : scene.Sound) (descriptor : Descriptor) (constant : String) :
    scene.Safe (markInFlight descriptor constant) fun _ _ => True :=
  ⟨Grows.of_ambient _ hsound.ambient, fun _ _ => trivial⟩

theorem safe_takeInFlight (hsound : scene.Sound) :
    scene.Safe takeInFlight fun _ _ => True := by
  refine ⟨?_, fun _ _ => trivial⟩
  have htaken : scene.Grows { scene with world := { scene.world with
      ambient := { scene.world.ambient with inFlight := none } } } :=
    Grows.of_ambient _ hsound.ambient
  rw [after]
  unfold takeInFlight
  rw [exec_bind_ok (exec_get scene.world)]
  cases scene.world.ambient.inFlight with
  | none => exact htaken
  | some marked => exact htaken

theorem safe_currentCarrier (hsound : scene.Sound) :
    scene.Safe currentCarrier fun scene found =>
      ∀ carrier, found = some carrier → scene.Knows carrier := by
  refine ⟨Grows.refl scene, ?_⟩
  rintro found ⟨⟩ carrier hcarrier
  exact hsound.ambient carrier hcarrier

theorem safe_resolveAmbientConstant (hsound : scene.Sound) :
    scene.Safe (resolveAmbientConstant host) fun _ _ => True := by
  unfold resolveAmbientConstant
  apply (safe_takeInFlight hsound).bind
  rintro ⟨descriptor, constant⟩ htaken _
  have hsound := htaken.sound hsound
  apply (settled_findClass hsound descriptor).here.bind
  intro self hfound hself
  have hsound := hfound.sound hsound
  apply settled_functions.here.bind
  intro functions hread _
  have hsound := hread.sound hsound
  have hself := hread.classes self hself
  by_cases hdeclared : self.analysis.contains constant
  · simp only [hdeclared, Bool.not_true, Bool.false_eq_true, if_false]
    split
    · apply (safe_currentCarrier hsound).bind
      intro current hcurrent hknown
      have hsound := hcurrent.sound hsound
      have hself := hcurrent.classes self hself
      split
      · exact (Settled.fail _).here
      · rename_i carrier
        apply (settled_scopedCarrier host hsound self constant (hknown carrier rfl)).here.bind
        intro own hown _
        exact (settled_accessorValue host (hown.classes self hself) functions constant own).here
    · exact (settled_evaluate host hself functions constant .unbound).here
  · simp only [hdeclared]
    exact (Settled.fail _).here

/-- The carrier of the class with a descriptor is found again. -/
theorem settled_carrierNamed (hsound : scene.Sound) (descriptor : Descriptor)
    (requested : Option Value) :
    scene.Settled (findClass descriptor >>= fun self => resolve (.ofClass self) requested)
      fun scene carrier => carrier ∈ scene.world.store.carriers := by
  apply (settled_findClass hsound descriptor).bind
  intro later self _ hself
  exact settled_resolve (.ofClass self) hself requested

theorem settled_instantiate (hsound : scene.Sound) (descriptor : Descriptor)
    (requested : Option Value) :
    scene.Settled (instantiate descriptor requested) fun scene self =>
      ∃ carrier ∈ scene.world.store.carriers, self = .ofCarrier carrier := by
  rw [instantiate_eq]
  apply (settled_carrierNamed hsound descriptor requested).bind
  intro later carrier _ hcarrier
  exact Settled.pure fun last hlast => ⟨carrier, hlast.world.carriers carrier hcarrier, rfl⟩

theorem settled_link (hsound : scene.Sound) (request : Value) :
    scene.Settled (link request) fun scene carrier => carrier ∈ scene.world.store.carriers := by
  unfold link
  split
  · exact settled_carrierNamed hsound _ _
  · exact Settled.fail _

theorem settled_supertypeCarrierNamed (hsound : scene.Sound) {carrier : Carrier}
    (hcarrier : scene.Knows carrier) (descriptor : Descriptor) :
    scene.Settled (supertypeCarrierNamed host carrier descriptor) fun scene found =>
      ∀ above, found = some above → scene.Knows above := by
  unfold supertypeCarrierNamed
  apply (settled_findClass hsound descriptor).bind
  intro first ancestor hfirst _
  apply settled_functions.bind
  intro second functions hsecond _
  have hlater := hfirst.trans hsecond
  exact settled_supertypeCarrier host (hlater.sound hsound) functions (hcarrier.grow hlater)
    ancestor

end Scene

/-- How the targets of a call site of a class are resolved: the guard is the carrier itself. -/
def SpecializedCallSite.resolver (site : SpecializedCallSite) : Resolver Carrier Carrier where
  guard := id
  resolve := site.resolve host
  Known scene carrier := site.owner ∈ scene.classes ∧ scene.Knows carrier

theorem SpecializedCallSite.resolver_lawful (site : SpecializedCallSite) :
    (site.resolver host).Lawful where
  grow h hgrows := ⟨hgrows.classes _ h.1, h.2.grow hgrows⟩
  settled hsound h := Scene.settled_specialized host hsound h.1 h.2
  admits hsound ha hb hadmits := by
    rw [hsound.eq_of_admits ha.2 hb.2 hadmits]

/-- How the targets of a call site on receivers are resolved. -/
def ReceiverCallSite.resolver (site : ReceiverCallSite) : Resolver Instance ReceiverGuard where
  guard := ReceiverGuard.of
  resolve := site.resolve host
  Known scene receiver := scene.KnowsInstance receiver

theorem ReceiverCallSite.resolver_lawful (site : ReceiverCallSite) :
    (site.resolver host).Lawful where
  grow h hgrows := h.grow hgrows
  settled hsound h := Scene.settled_receiver host hsound site h
  admits hsound ha hb hadmits := by
    obtain ⟨howner, hcarrier⟩ := hsound.same_of_admits ha hb hadmits
    exact site.resolve_congr host howner hcarrier

/-- A call lets the scene grow, whatever is in the cache. -/
theorem Resolver.call_grows {ι κ : Type} [GuardKey κ] {resolver : Resolver ι κ}
    (hlawful : resolver.Lawful) {scene : Scene} (hsound : scene.Sound) {input : ι}
    (hknown : resolver.Known scene input) (arguments : List Value) (cache : InlineCache κ) :
    scene.Grows { scene with world :=
      (resolver.call host arguments cache input scene.world).2 } := by
  have hgrows := (hlawful.settled hsound hknown).grows
  simp only [Resolver.call, InlineCache.run_invoke]
  split
  · exact Scene.Grows.refl scene
  · rw [Scene.after] at hgrows
    split
    · rename_i hrun
      rw [hrun] at hgrows
      exact hgrows
    · rename_i hrun
      rw [hrun] at hgrows
      exact hgrows

namespace Scene

/-- One operation on what a program holds. -/
inductive Move (scene : Scene) : Scene → Prop
  | define (spec : ClassSpec) : Move scene (scene.defineClass spec)
  | load (spec : ClassSpec) {superclass : Option Class}
      (hsuperclass : ∀ above, superclass = some above → above ∈ scene.classes) :
      Move scene (scene.loadClass spec superclass)
  | forge {location : Location} (howner : location.owner ∈ scene.classes) (parameters : Value)
      (backing : Option String) : Move scene (scene.forge location parameters backing)
  | resolve {location : Location} (howner : location.owner ∈ scene.classes)
      (requested : Option Value) : Move scene (scene.after (resolve location requested))
  | instantiate (descriptor : Descriptor) (requested : Option Value) :
      Move scene (scene.after (instantiate descriptor requested))
  | link (request : Value) : Move scene (scene.after (link request))
  | supertype (functions : Registry) {carrier : Carrier} (hcarrier : scene.Knows carrier)
      (ancestor : Class) :
      Move scene (scene.after (supertypeCarrier host functions carrier ancestor))
  | supertypeNamed {carrier : Carrier} (hcarrier : scene.Knows carrier)
      (descriptor : Descriptor) :
      Move scene (scene.after (supertypeCarrierNamed host carrier descriptor))
  | evaluate (functions : Registry) {self : Class} (hself : self ∈ scene.classes)
      (constant : String) (scope : Scope) :
      Move scene (scene.after (self.evaluate host functions constant scope))
  | accessor (functions : Registry) {self : Class} (hself : self ∈ scene.classes)
      (constant : String) (carrier : Carrier) :
      Move scene (scene.after (self.accessorValue host functions constant carrier))
  | enter {carrier : Carrier} (hcarrier : scene.Knows carrier) :
      Move scene (scene.after (enter carrier))
  | exit {guard : Guard}
      (hprevious : ∀ carrier, guard.previous = some carrier → scene.Knows carrier) :
      Move scene (scene.after guard.exit)
  | mark (descriptor : Descriptor) (constant : String) :
      Move scene (scene.after (markInFlight descriptor constant))
  | read : Move scene (scene.after (resolveAmbientConstant host))
  | specialized (site : SpecializedCallSite) (howner : site.owner ∈ scene.classes)
      {carrier : Carrier} (hcarrier : scene.Knows carrier) (arguments : List Value) :
      Move scene { scene with world := ((site.invoke host carrier arguments).run scene.world).2 }
  | receiver (site : ReceiverCallSite) {receiver : Instance}
      (hreceiver : scene.KnowsInstance receiver) (arguments : List Value) :
      Move scene { scene with world := ((site.invoke host receiver arguments).run scene.world).2 }

variable {host} {scene next : Scene}

theorem Move.grows (h : scene.Move host next) (hsound : scene.Sound) : scene.Grows next := by
  cases h with
  | define spec => exact defineClass_grows hsound spec
  | load spec hsuperclass => exact loadClass_grows hsound spec hsuperclass
  | forge howner parameters backing => exact Grows.forge howner parameters backing
  | resolve howner requested => exact (settled_resolve _ howner requested).grows
  | instantiate descriptor requested =>
      exact (settled_instantiate hsound descriptor requested).grows
  | link request => exact (settled_link hsound request).grows
  | supertype functions hcarrier ancestor =>
      exact (settled_supertypeCarrier host hsound functions hcarrier ancestor).grows
  | supertypeNamed hcarrier descriptor =>
      exact (settled_supertypeCarrierNamed host hsound hcarrier descriptor).grows
  | evaluate functions hself constant scope =>
      exact (settled_evaluate host hself functions constant scope).grows
  | accessor functions hself constant carrier =>
      exact (settled_accessorValue host hself functions constant carrier).grows
  | enter hcarrier => exact (safe_enter hsound hcarrier).grows
  | exit hprevious => exact (safe_exit hprevious).grows
  | mark descriptor constant => exact (safe_mark hsound descriptor constant).grows
  | read => exact (safe_resolveAmbientConstant host hsound).grows
  | specialized site howner hcarrier arguments =>
      exact Resolver.call_grows host (site.resolver_lawful host) hsound ⟨howner, hcarrier⟩
        arguments site.cache
  | receiver site hreceiver arguments =>
      exact Resolver.call_grows host (site.resolver_lawful host) hsound hreceiver arguments
        site.cache

/-- A scene in which nothing was done yet. -/
def start (config : Config) (functions : Registry) : Scene where
  world := { store := { config }, loader := { functions } }

theorem start_sound (config : Config) (functions : Registry) : (start config functions).Sound where
  class_unique _ ha := nomatch ha
  class_fresh _ h := nomatch h
  lineage _ h := nomatch h
  loader _ h := nomatch h
  carrier_unique _ _ ha := by rcases ha with ha | ha <;> cases ha
  carrier_fresh _ h := by rcases h with h | h <;> cases h
  owner _ h := by rcases h with h | h <;> cases h
  entries _ h := nomatch h
  foreign _ h := nomatch h
  supertypes _ h := nomatch h
  ambient _ h := nomatch h
  values _ h := nomatch h

/-- The scenes that a program can reach. -/
def Reachable (host : Host) (scene : Scene) : Prop :=
  ∃ config functions, Relation.ReflTransGen (Move host) (start config functions) scene

theorem Reachable.tail (h : scene.Reachable host) (hmove : scene.Move host next) :
    next.Reachable host := by
  obtain ⟨config, functions, hmoves⟩ := h
  exact ⟨config, functions, hmoves.tail hmove⟩

theorem Reachable.sound (h : scene.Reachable host) : scene.Sound := by
  obtain ⟨config, functions, hmoves⟩ := h
  induction hmoves with
  | refl => exact start_sound config functions
  | tail _ hmove ih => exact (hmove.grows ih).sound ih

end Scene

end Specialization
