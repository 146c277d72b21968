import Specialization.Proofs.World.Run

/-!
What a loader knows. A class becomes known only by a definition that succeeds; every other operation
leaves the loader as it is, and so does a definition that fails, whatever else they change.
-/

namespace Specialization

variable (host : Host)

theorem leaves_loader_resolve (location : Location) (requested : Option Value) :
    Leaves World.loader (resolve location requested) :=
  (leaves_resolve location requested).narrow fun parts => parts.2.2.1

theorem leaves_loader_resolveDefault (self : Class) :
    Leaves World.loader (resolveDefault self) := by
  unfold resolveDefault
  split
  · exact (leaves_loader_resolve _ none).bind fun carrier => Leaves.pure (some carrier)
  · exact Leaves.pure none

theorem leaves_loader_liftExcept {α : Type} (x : Except Error α) :
    Leaves World.loader (liftExcept x : Operation α) := by
  cases x with
  | error error => exact Leaves.throw error
  | ok a => exact Leaves.pure a

theorem leaves_loader_findDirectSupertype (functions : Registry) (carrier : Carrier)
    (superclass : Class) :
    Leaves World.loader (findDirectSupertype host functions carrier superclass) := by
  unfold findDirectSupertype
  dsimp only
  split
  · exact leaves_loader_resolveDefault superclass
  · apply (Class.leaves_accessorValue host carrier.owner.apart_loader functions _ carrier).bind
    intro mapping
    split
    · exact Leaves.throw _
    · split
      · exact (leaves_loader_resolve _ _).bind fun found => Leaves.pure (some found)
      · exact Leaves.throw _

theorem leaves_loader_directSupertype (functions : Registry) (carrier : Carrier)
    (superclass : Class) :
    Leaves World.loader (directSupertype host functions carrier superclass) := by
  unfold directSupertype
  apply Leaves.get.bind
  intro world
  split
  · exact Leaves.pure _
  · apply (leaves_loader_findDirectSupertype host functions carrier superclass).bind
    rintro (_ | found)
    · exact Leaves.pure none
    · apply Leaves.bind
      · exact Leaves.change fun _ => rfl
      · exact fun _ => Leaves.pure (some found)

theorem leaves_loader_climb (functions : Registry) (way : List Class) (current : Option Carrier) :
    Leaves World.loader (climb host functions current way) := by
  induction way generalizing current with
  | nil => cases current <;> exact Leaves.pure _
  | cons superclass rest ih =>
      cases current with
      | none => exact (leaves_loader_resolveDefault superclass).bind ih
      | some carrier =>
          exact (leaves_loader_directSupertype host functions carrier superclass).bind ih

theorem leaves_loader_supertypeCarrier (functions : Registry) (carrier : Carrier)
    (ancestor : Class) :
    Leaves World.loader (supertypeCarrier host functions carrier ancestor) := by
  unfold supertypeCarrier
  dsimp only
  split
  · split
    · exact Leaves.throw _
    · apply Leaves.get.bind
      intro world
      split
      · exact Leaves.throw _
      · exact leaves_loader_climb host functions _ _
  · exact Leaves.throw _

theorem leaves_loader_findClass (descriptor : Descriptor) :
    Leaves World.loader (findClass descriptor) :=
  (leaves_findClass descriptor).narrow World.loader

theorem leaves_loader_functions : Leaves World.loader Operation.functions :=
  leaves_functions.narrow World.loader

theorem leaves_loader_instantiate (descriptor : Descriptor) (requested : Option Value) :
    Leaves World.loader (instantiate descriptor requested) :=
  (leaves_loader_findClass descriptor).bind fun _ =>
    (leaves_loader_resolve _ requested).bind fun _ => Leaves.pure _

theorem leaves_loader_link (request : Value) : Leaves World.loader (link request) := by
  unfold link
  split
  · exact (leaves_loader_findClass _).bind fun _ => leaves_loader_resolve _ _
  · exact Leaves.throw _

theorem leaves_loader_supertypeCarrierNamed (carrier : Carrier) (descriptor : Descriptor) :
    Leaves World.loader (supertypeCarrierNamed host carrier descriptor) :=
  (leaves_loader_findClass descriptor).bind fun ancestor =>
    leaves_loader_functions.bind fun functions =>
      leaves_loader_supertypeCarrier host functions carrier ancestor

theorem leaves_loader_scopedCarrier (self : Class) (constant : String) (carrier : Carrier) :
    Leaves World.loader (scopedCarrier host self constant carrier) := by
  unfold scopedCarrier
  split
  · exact Leaves.pure carrier
  · dsimp only
    split
    · exact Leaves.pure carrier
    · apply Leaves.get.bind
      intro world
      split
      · exact Leaves.throw _
      · split
        · apply leaves_loader_functions.bind
          intro functions
          apply (leaves_loader_supertypeCarrier host functions carrier _).bind
          intro found
          split
          · exact Leaves.pure _
          · exact Leaves.throw _
        · exact Leaves.throw _

theorem leaves_loader_takeInFlight : Leaves World.loader takeInFlight := by
  unfold takeInFlight
  apply Leaves.get.bind
  intro world
  apply Leaves.bind
  · exact Leaves.change fun _ => rfl
  · intro _
    split
    · exact Leaves.pure _
    · exact Leaves.throw _

theorem leaves_loader_resolveAmbientConstant :
    Leaves World.loader (resolveAmbientConstant host) := by
  unfold resolveAmbientConstant
  apply leaves_loader_takeInFlight.bind
  rintro ⟨descriptor, constant⟩
  apply (leaves_loader_findClass descriptor).bind
  intro self
  apply leaves_loader_functions.bind
  intro functions
  by_cases hdeclared : self.analysis.contains constant
  · simp only [hdeclared, Bool.not_true, Bool.false_eq_true, if_false]
    split
    · apply (Leaves.get.bind fun _ => Leaves.pure _ : Leaves World.loader currentCarrier).bind
      intro current
      split
      · exact Leaves.throw _
      · rename_i carrier
        exact (leaves_loader_scopedCarrier host self constant carrier).bind fun own =>
          Class.leaves_accessorValue host self.apart_loader functions constant own
    · exact Class.leaves_evaluate host self.apart_loader functions constant .unbound
  · simp only [hdeclared]
    exact Leaves.throw _

theorem leaves_loader_read (site : SpecializedCallSite) (constant : String) (carrier : Carrier) :
    Leaves World.loader (site.read host constant carrier) :=
  (leaves_loader_scopedCarrier host site.owner constant carrier).bind fun own =>
    leaves_loader_functions.bind fun functions =>
      (Class.leaves_accessorValue host site.owner.apart_loader functions constant own).bind
        fun _ => Leaves.pure _

theorem leaves_loader_specialized (site : SpecializedCallSite) (carrier : Carrier) :
    Leaves World.loader (site.resolve host carrier) := by
  unfold SpecializedCallSite.resolve
  apply (leaves_loader_read host site site.constant carrier).bind
  rintro ⟨value, own⟩
  apply (leaves_loader_liftExcept _).bind
  intro function
  apply (leaves_loader_liftExcept _).bind
  intro target
  generalize site.restrictions = restrictions
  induction restrictions generalizing target with
  | nil => exact Leaves.pure target
  | cons restriction rest ih =>
      rw [List.foldlM_cons]
      apply Leaves.bind
      · exact (leaves_loader_read host site restriction.2 carrier).bind fun _ => Leaves.pure _
      · exact ih

theorem leaves_loader_declaringCarrier (receiver : Instance) (declaring : Class) :
    Leaves World.loader (ReceiverCallSite.declaringCarrier host receiver declaring) := by
  unfold ReceiverCallSite.declaringCarrier
  split
  · split
    · exact Leaves.pure _
    · exact leaves_loader_functions.bind fun functions =>
        leaves_loader_supertypeCarrier host functions _ declaring
  · exact leaves_loader_resolveDefault declaring

theorem leaves_loader_receiver (site : ReceiverCallSite) (receiver : Instance) :
    Leaves World.loader (site.resolve host receiver) := by
  unfold ReceiverCallSite.resolve
  split
  · exact Leaves.throw _
  · rename_i declaring method _
    apply leaves_loader_functions.bind
    intro functions
    apply (leaves_loader_declaringCarrier host receiver declaring).bind
    intro found
    split
    · apply (leaves_loader_scopedCarrier host declaring _ _).bind
      intro carrier
      apply (Class.leaves_accessorValue host declaring.apart_loader functions _ carrier).bind
      intro value
      exact (leaves_loader_liftExcept _).bind fun _ => leaves_loader_liftExcept _
    · apply (Class.leaves_evaluate host declaring.apart_loader functions _ .unbound).bind
      intro value
      exact (leaves_loader_liftExcept _).bind fun _ => leaves_loader_liftExcept _

theorem loader_call {ι κ : Type} [GuardKey κ] {resolver : Resolver ι κ} {input : ι}
    (h : Leaves World.loader (resolver.resolve input)) (arguments : List Value)
    (cache : InlineCache κ) (world : World) :
    (resolver.call host arguments cache input world).2.loader = world.loader := by
  have hresolve := h world
  simp only [Resolver.call, InlineCache.run_invoke]
  split
  · rfl
  · split
    · rename_i hrun
      rwa [hrun] at hresolve
    · rename_i hrun
      rwa [hrun] at hresolve

theorem leaves_loader_load (spec : ClassSpec) (superclass : Option Class) :
    Leaves World.loader (load spec superclass) := by
  intro world
  rw [exec_load]
  split <;> rfl

/-- The superclass of a spec is the class that is known under its name. -/
theorem lookup_of_superclass {spec : ClassSpec} {world next : World} {above : Class}
    (h : exec (spec.superclass.mapM findClass) world = (.ok (some above), next)) :
    ∃ name, spec.superclass = some name ∧ world.loader.classes.lookup name = some above := by
  cases hname : spec.superclass with
  | none =>
      rw [hname] at h
      cases h
  | some name =>
      refine ⟨name, rfl, ?_⟩
      rw [hname] at h
      replace h : exec (findClass name >>= fun self => pure (some self)) world =
          (.ok (some above), next) := h
      cases hfound : world.loader.classes.lookup name with
      | none =>
          rw [exec_bind_error (exec_findClass_of_none hfound)] at h
          cases h
      | some self =>
          rw [exec_bind_ok (exec_findClass hfound)] at h
          cases h
          rfl

/-- A definition that succeeds adds its class in front, under a descriptor that was not known. The
superclass is what was known under its name before. -/
theorem define_eq_ok {spec : ClassSpec} {world next : World} {self : Class}
    (h : exec (define spec) world = (.ok self, next)) :
    (∃ definition superclass, Definition.ofSpec world.nextClass spec = .ok definition ∧
      self = Class.under definition superclass ∧
      ∀ above, superclass = some above →
        ∃ name, spec.superclass = some name ∧ world.loader.classes.lookup name = some above) ∧
    world.loader.classes.lookup self.descriptor = none ∧
    next.loader = { world.loader with
      classes := (self.descriptor, self) :: world.loader.classes } := by
  rw [Scene.exec_define] at h
  have hleaves := Scene.leaves_superclass spec world
  rcases hfound : exec (spec.superclass.mapM findClass) world with ⟨error | superclass, first⟩
  · rw [hfound] at h
    cases h
  · rw [hfound] at h hleaves
    obtain rfl : first = world := hleaves
    simp only [exec_load] at h
    cases hdefinition : Definition.ofSpec first.nextClass spec with
    | error error =>
        rw [hdefinition] at h
        cases h
    | ok definition =>
        simp only [hdefinition] at h
        cases hknown : first.loader.classes.lookup (Class.under definition superclass).descriptor with
        | some other =>
            rw [hknown] at h
            cases h
        | none =>
            rw [hknown] at h
            cases h
            refine ⟨⟨definition, superclass, rfl, rfl, ?_⟩, hknown, rfl⟩
            rintro above rfl
            exact lookup_of_superclass hfound

/-- A definition that fails leaves the loader as it is. -/
theorem define_eq_error {spec : ClassSpec} {world next : World} {error : Error}
    (h : exec (define spec) world = (.error error, next)) : next.loader = world.loader := by
  rw [Scene.exec_define] at h
  have hleaves := Scene.leaves_superclass spec world
  rcases hfound : exec (spec.superclass.mapM findClass) world with ⟨_ | superclass, first⟩
  · rw [hfound] at h hleaves
    cases h
    exact congrArg World.loader hleaves
  · rw [hfound] at h hleaves
    obtain rfl : first = world := hleaves
    have hload := leaves_loader_load spec superclass first
    rcases hloaded : exec (load spec superclass) first with ⟨_ | self, last⟩
    · rw [hloaded] at hload
      simp only [hloaded] at h
      cases h
      exact hload
    · rw [hloaded] at hload
      simp only [hloaded] at h
      split at h
      · cases h
        exact hload
      · cases h

namespace Scene

variable {host} {scene next : Scene}

/-- Whatever a program does, the loader is what it was, unless a class was defined. -/
theorem Move.loader (h : scene.Move host next) :
    next.world.loader = scene.world.loader ∨
      ∃ spec self, scene.result (Specialization.define spec) = .ok self ∧ next = scene.defineClass spec := by
  cases h with
  | define spec =>
      rcases hexec : exec (Specialization.define spec) scene.world with ⟨error | self, last⟩
      · left
        simp only [defineClass, result, after, hexec]
        exact define_eq_error hexec
      · exact Or.inr ⟨spec, self, congrArg Prod.fst hexec, rfl⟩
  | @load spec superclass hsuperclass =>
      left
      have hleaves := leaves_loader_load spec superclass scene.world
      rw [loadClass]
      split <;> exact hleaves
  | forge howner parameters backing => exact Or.inl rfl
  | resolve howner requested => exact Or.inl (leaves_loader_resolve _ requested _)
  | instantiate descriptor requested =>
      exact Or.inl (leaves_loader_instantiate descriptor requested _)
  | link request => exact Or.inl (leaves_loader_link request _)
  | supertype functions hcarrier ancestor =>
      exact Or.inl (leaves_loader_supertypeCarrier host functions _ ancestor _)
  | supertypeNamed hcarrier descriptor =>
      exact Or.inl (leaves_loader_supertypeCarrierNamed host _ descriptor _)
  | @evaluate functions self hself constant scope =>
      exact Or.inl (Class.leaves_evaluate host self.apart_loader functions constant scope _)
  | @accessor functions self hself constant carrier =>
      exact Or.inl (Class.leaves_accessorValue host self.apart_loader functions constant carrier _)
  | enter hcarrier => exact Or.inl rfl
  | exit hprevious => exact Or.inl rfl
  | mark descriptor constant => exact Or.inl rfl
  | read => exact Or.inl (leaves_loader_resolveAmbientConstant host _)
  | @specialized site howner carrier hcarrier arguments =>
      have hresolve : Leaves World.loader ((site.resolver host).resolve carrier) :=
        leaves_loader_specialized host site carrier
      exact Or.inl (loader_call host hresolve arguments site.cache _)
  | @receiver site receiver hreceiver arguments =>
      have hresolve : Leaves World.loader ((site.resolver host).resolve receiver) :=
        leaves_loader_receiver host site receiver
      exact Or.inl (loader_call host hresolve arguments site.cache _)

end Scene

end Specialization
