import Specialization.CallSite.Receiver
import Specialization.CallSite.Specialized
import Specialization.Proofs.World.Loading

/-!
What operations cannot see. A disguise changes worlds, and carriers, in parts that no operation
looks at: carriers keep their number, their location and their parameters, and all that can be
looked up in a world is what was there before, disguised. An operation in a disguised world does
what it does in the original one, disguised.
-/

namespace Specialization

/-- A change of worlds and carriers that operations do not notice. -/
structure Disguise where
  world : World → World
  carrier : Carrier → Carrier
  number : ∀ known, (carrier known).id = known.id
  location : ∀ known, (carrier known).location = known.location
  scope : ∀ known, (carrier known).scope = known.scope
  loader : ∀ before, (world before).loader = before.loader
  nextClass : ∀ before, (world before).nextClass = before.nextClass
  values : ∀ before, (world before).values = before.values
  limit : ∀ before,
    (world before).store.config.maxSupertypeDepth = before.store.config.maxSupertypeDepth
  found : ∀ before location parameters, (world before).store.find? location parameters =
    (before.store.find? location parameters).map carrier
  above : ∀ before key, (world before).store.supertypes.lookup key =
    (before.store.supertypes.lookup key).map carrier
  loads : ∀ before next, world { before with nextClass := next } =
    { world before with nextClass := next }
  publishes : ∀ before loader, world { before with loader } = { world before with loader }
  keeps : ∀ before values, world { before with values } = { world before with values }
  hits : ∀ before : World, world { before with store := { before.store with
      hits := before.store.hits + 1 } } =
    { world before with store := { (world before).store with
      hits := (world before).store.hits + 1 } }
  misses : ∀ before : World, world { before with store := { before.store with
      misses := before.store.misses + 1 } } =
    { world before with store := { (world before).store with
      misses := (world before).store.misses + 1 } }
  adds : ∀ before location parameters, (world before).addCarrier location parameters =
    (carrier (before.addCarrier location parameters).1,
      world (before.addCarrier location parameters).2)
  remembers : ∀ (before : World) key known, world { before with store := { before.store with
      supertypes := (key, known) :: before.store.supertypes } } =
    { world before with store := { (world before).store with
      supertypes := (key, carrier known) :: (world before).store.supertypes } }

variable (disguise : Disguise) (host : Host) {α β γ δ : Type}

/-- An operation does in a disguised world what another one does in the original world. -/
def Disguise.Mirrors (f : α → β) (operation : Operation α) (disguised : Operation β) : Prop :=
  ∀ world, exec disguised (disguise.world world) =
    ((exec operation world).1.map f, disguise.world (exec operation world).2)

namespace Disguise

variable {disguise}

namespace Mirrors

variable {f : α → β} {g : γ → δ}

theorem pure {a : α} {b : β} (h : f a = b) :
    disguise.Mirrors f (Pure.pure a : Operation α) (Pure.pure b) := by
  intro world
  rw [← h]
  rfl

theorem throw (error : Error) : disguise.Mirrors f
    (MonadExcept.throw error : Operation α) (MonadExcept.throw error) :=
  fun _ => rfl

theorem lift (x : Except Error α) :
    disguise.Mirrors id (liftExcept x : Operation α) (liftExcept x) := by
  cases x with
  | error error => exact throw error
  | ok a => exact pure rfl

theorem bind {x : Operation α} {x' : Operation β} {k : α → Operation γ} {k' : β → Operation δ}
    (hx : disguise.Mirrors f x x') (hk : ∀ a, disguise.Mirrors g (k a) (k' (f a))) :
    disguise.Mirrors g (x >>= k) (x' >>= k') := by
  intro world
  have hfirst := hx world
  rcases hrun : exec x world with ⟨error | a, next⟩
  · rw [hrun] at hfirst
    rw [exec_bind_error hrun, exec_bind_error hfirst]
    rfl
  · rw [hrun] at hfirst
    rw [exec_bind_ok hrun, exec_bind_ok hfirst]
    exact hk a next

/-- What is made of a mirrored result in one world may be mirrored by what is known of it there. -/
theorem map_at {x : Operation α} {x' : Operation β} (hx : disguise.Mirrors f x x') (world : World)
    {make : α → γ} {make' : β → δ}
    (hmake : ∀ a, (exec x world).1 = .ok a → g (make a) = make' (f a)) :
    exec (x' >>= fun b => Pure.pure (make' b)) (disguise.world world) =
      ((exec (x >>= fun a => Pure.pure (make a)) world).1.map g,
        disguise.world (exec (x >>= fun a => Pure.pure (make a)) world).2) := by
  have hdisguised := hx world
  rcases hrun : exec x world with ⟨error | a, later⟩
  · rw [hrun] at hdisguised
    rw [exec_bind_error hrun]
    exact exec_bind_error hdisguised
  · rw [hrun] at hdisguised hmake
    rw [exec_bind_ok hrun, exec_bind_ok hdisguised, ← hmake a rfl]
    rfl

/-- What is read of a world is read of the disguised world. -/
theorem get {k : World → Operation γ} {k' : World → Operation δ}
    (h : ∀ world, disguise.Mirrors g (k world) (k' (disguise.world world))) :
    disguise.Mirrors g (MonadState.get >>= k) (MonadState.get >>= k') := by
  intro world
  rw [exec_bind_ok (exec_get world), exec_bind_ok (exec_get (disguise.world world))]
  exact h world world

theorem change {change change' : World → World}
    (h : ∀ world, disguise.world (change world) = change' (disguise.world world)) :
    disguise.Mirrors id (modify change : Operation PUnit) (modify change') :=
  fun world => congrArg (Prod.mk (Except.ok PUnit.unit)) (h world).symm

end Mirrors

@[simp]
theorem owner (carrier : Carrier) : (disguise.carrier carrier).owner = carrier.owner := by
  rw [Carrier.owner, disguise.location, Carrier.owner]

@[simp]
theorem isClassLevel (carrier : Carrier) :
    (disguise.carrier carrier).isClassLevel = carrier.isClassLevel := by
  rw [Carrier.isClassLevel, disguise.location, Carrier.isClassLevel]

@[simp]
theorem valuesOf (world : World) (self : Class) :
    (disguise.world world).valuesOf self = world.valuesOf self := by
  rw [World.valuesOf, disguise.values, World.valuesOf]

theorem setValues (world : World) (self : Class) (values : ClassValues) :
    disguise.world (world.setValues self values) =
      (disguise.world world).setValues self values := by
  rw [World.setValues, disguise.keeps, World.setValues, disguise.values]

theorem mirrors_findClass (descriptor : Descriptor) :
    disguise.Mirrors id (findClass descriptor) (findClass descriptor) := by
  apply Mirrors.get
  intro world
  rw [disguise.loader]
  split
  · exact Mirrors.pure rfl
  · exact Mirrors.throw _

theorem mirrors_functions :
    disguise.Mirrors id Operation.functions Operation.functions := by
  apply Mirrors.get
  intro world
  rw [disguise.loader]
  exact Mirrors.pure rfl

theorem mirrors_evaluate (functions : Registry) (self : Class) (constant : String)
    (scope : Scope) :
    disguise.Mirrors id (self.evaluate host functions constant scope)
      (self.evaluate host functions constant scope) := by
  intro world
  rcases hrun : exec ((self.evaluator host functions scope).evaluate constant)
    { cache := some (world.valuesOf self).link } with ⟨result, pass⟩
  have hdisguised := hrun
  rw [← disguise.valuesOf world self] at hdisguised
  rw [Class.exec_evaluate host functions self constant scope world hrun,
    Class.exec_evaluate host functions self constant scope _ hdisguised, disguise.setValues,
    disguise.valuesOf]
  simp

/-- All that a constant reads of a carrier is its number, its class and its scope. -/
theorem accessorValue_eq (functions : Registry) (self : Class) (constant : String)
    (carrier : Carrier) :
    self.accessorValue host functions constant (disguise.carrier carrier) =
      self.accessorValue host functions constant carrier := by
  simp only [Class.accessorValue, Class.checkCarrier, owner, disguise.number, disguise.scope]

theorem mirrors_accessorValue (functions : Registry) (self : Class) (constant : String)
    (carrier : Carrier) :
    disguise.Mirrors id (self.accessorValue host functions constant carrier)
      (self.accessorValue host functions constant (disguise.carrier carrier)) := by
  have hcheck : disguise.Mirrors id (self.checkCarrier constant carrier)
      (self.checkCarrier constant carrier) := by
    unfold Class.checkCarrier
    split
    · dsimp only
      split
      · exact Mirrors.pure rfl
      · exact Mirrors.throw _
    · exact Mirrors.pure rfl
  rw [accessorValue_eq, Class.accessorValue_eq]
  apply hcheck.bind
  intro _
  apply Mirrors.get
  intro world
  rw [disguise.valuesOf]
  dsimp only
  split
  · exact Mirrors.pure rfl
  · apply (mirrors_evaluate host functions self constant carrier.scope).bind
    intro value
    refine Mirrors.bind (Mirrors.change fun next => ?_) fun _ => Mirrors.pure rfl
    rw [disguise.setValues, disguise.valuesOf]
    rfl

theorem mirrors_resolve (location : Location) (requested : Option Value) :
    disguise.Mirrors disguise.carrier (resolve location requested)
      (resolve location requested) := by
  intro world
  cases hdefaults : location.defaults with
  | none =>
      simp only [resolve, hdefaults, exec_throw]
      rfl
  | some default =>
      rw [exec_resolve location requested hdefaults, exec_resolve location requested hdefaults,
        disguise.found]
      cases world.store.find? location (erase requested default) with
      | some known =>
          rw [disguise.hits]
          rfl
      | none =>
          have hmissed := disguise.misses world
          have hadds := disguise.adds { world with store := { world.store with
            misses := world.store.misses + 1 } } location (erase requested default)
          rw [hmissed] at hadds
          dsimp only [Option.map_none]
          rw [hadds]
          rfl

theorem mirrors_resolveDefault (self : Class) :
    disguise.Mirrors (Option.map disguise.carrier) (resolveDefault self)
      (resolveDefault self) := by
  unfold resolveDefault
  split
  · exact (mirrors_resolve _ none).bind fun _ => Mirrors.pure rfl
  · exact Mirrors.pure rfl

theorem mirrors_findDirectSupertype (functions : Registry) (carrier : Carrier)
    (superclass : Class) :
    disguise.Mirrors (Option.map disguise.carrier)
      (findDirectSupertype host functions carrier superclass)
      (findDirectSupertype host functions (disguise.carrier carrier) superclass) := by
  unfold findDirectSupertype
  rw [owner]
  dsimp only
  split
  · exact mirrors_resolveDefault superclass
  · apply (mirrors_accessorValue host functions carrier.owner _ carrier).bind
    intro mapping
    dsimp only [id]
    split
    · exact Mirrors.throw _
    · split
      · exact (mirrors_resolve _ _).bind fun _ => Mirrors.pure rfl
      · exact Mirrors.throw _

theorem mirrors_directSupertype (functions : Registry) (carrier : Carrier) (superclass : Class) :
    disguise.Mirrors (Option.map disguise.carrier)
      (directSupertype host functions carrier superclass)
      (directSupertype host functions (disguise.carrier carrier) superclass) := by
  unfold directSupertype
  apply Mirrors.get
  intro world
  rw [disguise.number, disguise.above]
  cases world.store.supertypes.lookup (carrier.id, superclass.id) with
  | some known => exact Mirrors.pure rfl
  | none =>
      apply (mirrors_findDirectSupertype host functions carrier superclass).bind
      rintro (_ | found)
      · exact Mirrors.pure rfl
      · refine Mirrors.bind (Mirrors.change fun world => ?_) fun _ => Mirrors.pure rfl
        exact disguise.remembers world _ found

theorem mirrors_climb (functions : Registry) (current : Option Carrier) (way : List Class) :
    disguise.Mirrors (Option.map disguise.carrier) (climb host functions current way)
      (climb host functions (current.map disguise.carrier) way) := by
  induction way generalizing current with
  | nil =>
      cases current with
      | none => exact Mirrors.pure rfl
      | some carrier => exact Mirrors.pure rfl
  | cons superclass rest ih =>
      cases current with
      | none => exact (mirrors_resolveDefault superclass).bind ih
      | some carrier => exact (mirrors_directSupertype host functions carrier superclass).bind ih

theorem mirrors_supertypeCarrier (functions : Registry) (carrier : Carrier) (ancestor : Class) :
    disguise.Mirrors (Option.map disguise.carrier)
      (supertypeCarrier host functions carrier ancestor)
      (supertypeCarrier host functions (disguise.carrier carrier) ancestor) := by
  unfold supertypeCarrier
  rw [owner, isClassLevel]
  dsimp only
  split
  · split
    · exact Mirrors.throw _
    · apply Mirrors.get
      intro world
      rw [disguise.limit]
      split
      · exact Mirrors.throw _
      · exact mirrors_climb host functions (some carrier) _
  · exact Mirrors.throw _

theorem mirrors_supertypeCarrierNamed (carrier : Carrier) (descriptor : Descriptor) :
    disguise.Mirrors (Option.map disguise.carrier)
      (supertypeCarrierNamed host carrier descriptor)
      (supertypeCarrierNamed host (disguise.carrier carrier) descriptor) := by
  apply (mirrors_findClass descriptor).bind
  intro ancestor
  apply mirrors_functions.bind
  intro functions
  exact mirrors_supertypeCarrier host functions carrier ancestor

theorem mirrors_scopedCarrier (self : Class) (constant : String) (carrier : Carrier) :
    disguise.Mirrors disguise.carrier (scopedCarrier host self constant carrier)
      (scopedCarrier host self constant (disguise.carrier carrier)) := by
  unfold scopedCarrier
  rw [owner, isClassLevel]
  split
  · exact Mirrors.pure rfl
  · dsimp only
    split
    · exact Mirrors.pure rfl
    · apply Mirrors.get
      intro world
      rw [disguise.loader]
      split
      · exact Mirrors.throw _
      · split
        · apply mirrors_functions.bind
          intro functions
          apply (mirrors_supertypeCarrier host functions carrier _).bind
          rintro (_ | own)
          · exact Mirrors.throw _
          · exact Mirrors.pure rfl
        · exact Mirrors.throw _

theorem mirrors_link (request : Value) :
    disguise.Mirrors disguise.carrier (link request) (link request) := by
  unfold link
  split
  · exact (mirrors_findClass _).bind fun self => mirrors_resolve (.ofClass self) _
  · exact Mirrors.throw _

theorem mirrors_load (spec : ClassSpec) (superclass : Option Class) :
    disguise.Mirrors id (load spec superclass) (load spec superclass) := by
  intro world
  rw [exec_load, exec_load, disguise.nextClass]
  split
  · exact congrArg (Prod.mk (Except.ok _)) (disguise.loads world _).symm
  · rfl

theorem mirrors_define (spec : ClassSpec) :
    disguise.Mirrors id (define spec) (define spec) := by
  have hsuperclass : disguise.Mirrors id (spec.superclass.mapM findClass)
      (spec.superclass.mapM findClass) := by
    cases spec.superclass with
    | none => exact Mirrors.pure rfl
    | some descriptor => exact (mirrors_findClass descriptor).bind fun _ => Mirrors.pure rfl
  refine hsuperclass.bind fun superclass => (mirrors_load spec superclass).bind fun self => ?_
  intro world
  rw [exec_bind_ok (exec_get world), exec_bind_ok (exec_get (disguise.world world)),
    disguise.loader]
  dsimp only [id]
  split
  · rfl
  · exact congrArg (Prod.mk (Except.ok self)) (disguise.publishes world _).symm

theorem mirrors_read (site : SpecializedCallSite) (constant : String) (carrier : Carrier) :
    disguise.Mirrors (Prod.map id disguise.carrier) (site.read host constant carrier)
      (site.read host constant (disguise.carrier carrier)) := by
  apply (mirrors_scopedCarrier host site.owner constant carrier).bind
  intro own
  apply mirrors_functions.bind
  intro functions
  exact (mirrors_accessorValue host functions site.owner constant own).bind
    fun value => Mirrors.pure rfl

theorem mirrors_restrict (site : SpecializedCallSite) (carrier : Carrier)
    (restrictions : List (Nat × String)) (target : Target) :
    disguise.Mirrors id (restrictions.foldlM (fun target (slot, constant) => do
        let (restriction, _) ← site.read host constant carrier
        return target.restrict slot restriction) target)
      (restrictions.foldlM (fun target (slot, constant) => do
        let (restriction, _) ← site.read host constant (disguise.carrier carrier)
        return target.restrict slot restriction) target) := by
  induction restrictions generalizing target with
  | nil => exact Mirrors.pure rfl
  | cons restriction rest ih =>
      rw [List.foldlM_cons, List.foldlM_cons]
      have hstep : disguise.Mirrors id
          (site.read host restriction.2 carrier >>= fun found =>
            pure (target.restrict restriction.1 found.1))
          (site.read host restriction.2 (disguise.carrier carrier) >>= fun found =>
            pure (target.restrict restriction.1 found.1)) :=
        (mirrors_read host site restriction.2 carrier).bind fun _ => Mirrors.pure rfl
      exact hstep.bind ih

@[simp]
theorem adapt (function : BoundFunction) (adaptation : Adaptation) (carrier : Carrier) :
    Target.adapt function adaptation (some (disguise.carrier carrier)) =
      Target.adapt function adaptation (some carrier) := by
  simp only [Target.adapt, Option.bind_some, disguise.scope]

theorem mirrors_specialized (site : SpecializedCallSite) (carrier : Carrier) :
    disguise.Mirrors id (site.resolve host carrier)
      (site.resolve host (disguise.carrier carrier)) := by
  apply (mirrors_read host site site.constant carrier).bind
  rintro ⟨value, own⟩
  apply (Mirrors.lift _).bind
  intro function
  dsimp only [id]
  rw [adapt]
  apply (Mirrors.lift _).bind
  intro target
  exact mirrors_restrict host site carrier site.restrictions target

/-- All that a call on a receiver reads of it is its class and its carrier. -/
theorem mirrors_receiver (site : ReceiverCallSite) {receiver disguised : Instance}
    (howner : disguised.owner = receiver.owner)
    (hcarrier : disguised.carrier? = receiver.carrier?.map disguise.carrier) :
    disguise.Mirrors id (site.resolve host receiver) (site.resolve host disguised) := by
  have hdeclaring : ∀ declaring, disguise.Mirrors (Option.map disguise.carrier)
      (ReceiverCallSite.declaringCarrier host receiver declaring)
      (ReceiverCallSite.declaringCarrier host disguised declaring) := by
    intro declaring
    unfold ReceiverCallSite.declaringCarrier
    rw [howner, hcarrier]
    cases receiver.carrier? with
    | none => exact mirrors_resolveDefault declaring
    | some own =>
        dsimp only [Option.map_some]
        split
        · exact Mirrors.pure rfl
        · apply mirrors_functions.bind
          intro functions
          exact mirrors_supertypeCarrier host functions own declaring
  unfold ReceiverCallSite.resolve
  rw [howner]
  split
  · exact Mirrors.throw _
  · rename_i declaring method _
    apply mirrors_functions.bind
    intro functions
    apply (hdeclaring declaring).bind
    rintro (_ | own)
    · apply (mirrors_evaluate host functions declaring _ .unbound).bind
      intro value
      exact (Mirrors.lift _).bind fun function => Mirrors.lift _
    · apply (mirrors_scopedCarrier host declaring method.implementation own).bind
      intro carrier
      apply (mirrors_accessorValue host functions declaring _ carrier).bind
      intro value
      refine (Mirrors.lift _).bind fun function => ?_
      dsimp only [id]
      rw [adapt]
      exact Mirrors.lift _

end Disguise

end Specialization
