import Specialization.Proofs.Evaluation.Step
import Specialization.Proofs.World.Settled

/-!
Reading constants and resolving carriers settle. A constant that was read is read again from what
is kept, or computed again from values fixed at link time; a carrier that was resolved is found
again in the store, and a climb takes the same way again.
-/

namespace Specialization

theorem leaves_findClass (descriptor : Descriptor) : Leaves id (findClass descriptor) := by
  unfold findClass
  apply Leaves.get.bind
  intro world
  split
  · exact Leaves.pure _
  · exact Leaves.throw _

theorem exec_findClass {descriptor : Descriptor} {world : World} {self : Class}
    (h : world.loader.classes.lookup descriptor = some self) :
    exec (findClass descriptor) world = (.ok self, world) := by
  simp only [findClass, exec_bind, exec_get, h]
  rfl

theorem exec_findClass_of_none {descriptor : Descriptor} {world : World}
    (h : world.loader.classes.lookup descriptor = none) :
    exec (findClass descriptor) world = (.error (.unknownClass descriptor), world) := by
  simp only [findClass, exec_bind, exec_get, h]
  rfl

theorem leaves_functions : Leaves id Operation.functions :=
  Leaves.get.bind fun _ => Leaves.pure _

namespace Scene

variable {base : Scene}

theorem settled_findClass (hbase : base.Sound) (descriptor : Descriptor) :
    base.Settled (findClass descriptor) fun scene self => self ∈ scene.classes := by
  apply Settled.lookup (fun world => world.loader.classes.lookup descriptor) pure
  · exact fun world hnone => exec_findClass_of_none hnone
  · exact fun world self hfound => exec_findClass hfound
  · intro scene later self _ hgrows hfound
    exact hgrows.world.classes descriptor self hfound
  · intro scene self hscene hfound
    apply Settled.pure
    intro later hlater
    have hknown := (hscene.sound hbase).loader (descriptor, self) (mem_of_lookup hfound)
    exact hlater.classes self hknown

theorem settled_functions :
    base.Settled Operation.functions fun _ functions => functions = base.world.loader.functions :=
  Settled.read (fun world => world.loader.functions) pure (fun _ => rfl)
    (fun _ hscene => hscene.world.functions) (Settled.pure fun _ _ => rfl)

end Scene

theorem exec_resolve (location : Location) (requested : Option Value) {default : Value}
    (hdefaults : location.defaults = some default) (world : World) :
    exec (resolve location requested) world =
      match world.store.find? location (erase requested default) with
      | some carrier =>
        (.ok carrier, { world with store := { world.store with hits := world.store.hits + 1 } })
      | none =>
        let counted := { world with store := { world.store with misses := world.store.misses + 1 } }
        let made := counted.addCarrier location (erase requested default)
        (.ok made.1, made.2) := by
  simp only [resolve, hdefaults]
  rw [exec_bind_ok (exec_get world)]
  cases hfound : world.store.find? location (erase requested default) with
  | some carrier => rfl
  | none =>
      -- The store is asked again once the carrier is made, and has got no other meanwhile.
      let counted := { world with store := { world.store with misses := world.store.misses + 1 } }
      let made := World.makeCarrier counted location (erase requested default)
      have hagain : made.2.store.find? location (erase requested default) = none := hfound
      have hcount : exec (Operation.modifyStore fun store =>
          { store with misses := store.misses + 1 }) world = (.ok (), counted) := rfl
      have hmake : exec (modifyGet fun world : World =>
          world.makeCarrier location (erase requested default) : Operation Carrier) counted =
            (.ok made.1, made.2) := rfl
      dsimp only
      rw [exec_bind_ok hcount, exec_bind_ok hmake, exec_bind_ok (exec_get made.2), hagain]
      rfl

/-- A resolution finds its carrier, or makes it. -/
theorem exec_resolve_eq_ok {location : Location} {requested : Option Value} {before after : World}
    {carrier : Carrier} (h : exec (resolve location requested) before = (.ok carrier, after)) :
    ∃ parameters, location.defaults.map (fun default => erase requested default) =
        some parameters ∧
      ((before.store.find? location parameters = some carrier ∧
          after = { before with store := { before.store with hits := before.store.hits + 1 } }) ∨
        (before.store.find? location parameters = none ∧
          (carrier, after) = World.addCarrier { before with store := { before.store with
            misses := before.store.misses + 1 } } location parameters)) := by
  cases hdefaults : location.defaults with
  | none =>
      rw [resolve, hdefaults] at h
      cases h
  | some default =>
      rw [exec_resolve location requested hdefaults] at h
      refine ⟨erase requested default, rfl, ?_⟩
      split at h
      · rename_i found hfound
        cases h
        exact Or.inl ⟨hfound, rfl⟩
      · rename_i hnone
        cases h
        exact Or.inr ⟨hnone, rfl⟩

/-- A resolution fails exactly for want of defaults, and changes nothing then. -/
theorem exec_resolve_eq_error {location : Location} {requested : Option Value} {world : World}
    {error : Error} : (exec (resolve location requested) world).1 = .error error ↔
      location.defaults = none ∧ error = .notSpecializable location.text := by
  cases hdefaults : location.defaults with
  | none =>
      simp only [resolve, hdefaults, exec_throw, true_and]
      exact ⟨fun h => by cases h; rfl, fun h => by rw [h]⟩
  | some default =>
      rw [exec_resolve location requested hdefaults]
      split <;> simp

theorem find?_addCarrier (world : World) (location : Location) (parameters : Value) :
    (world.addCarrier location parameters).2.store.find? location parameters =
      some (world.addCarrier location parameters).1 := by
  simp [Store.find?]

namespace Scene

variable {base : Scene}

/-- Carriers are found again, since a new carrier is kept under the location and the parameters that
it is looked up by. -/
theorem settled_resolve (location : Location) (howner : location.owner ∈ base.classes)
    (requested : Option Value) :
    base.Settled (resolve location requested) fun scene carrier =>
      carrier ∈ scene.world.store.carriers := by
  cases hdefaults : location.defaults with
  | none =>
      have hfail : resolve location requested = throw (.notSpecializable location.text) := by
        simp only [resolve, hdefaults]
      rw [hfail]
      exact Settled.fail _
  | some default =>
      have hrun := exec_resolve location requested hdefaults
      apply Settled.kept (fun world => world.store.find? location (erase requested default))
      · exact fun scene later carrier hgrows => hgrows.world.found location _ carrier
      · intro scene carrier hfound
        rw [result, after, hrun, hfound]
        exact ⟨rfl, Grows.of_store _ rfl rfl rfl⟩
      · intro scene hscene hnone
        let counted : Scene := { scene with world := { scene.world with
          store := { scene.world.store with misses := scene.world.store.misses + 1 } } }
        let made := counted.world.addCarrier location (erase requested default)
        have hcounted : scene.Grows counted := Grows.of_store _ rfl rfl rfl
        have hmade : counted.Grows { counted with world := made.2 } :=
          Grows.addCarrier (hscene.classes _ howner) hnone
        rw [result, after, hrun, hnone]
        refine ⟨hcounted.trans hmade, ?_⟩
        rintro carrier ⟨⟩
        exact find?_addCarrier counted.world location (erase requested default)
      · exact fun _ _ _ hfound => Store.mem_of_find? hfound

theorem settled_resolveDefault {self : Class} (hself : self ∈ base.classes) :
    base.Settled (resolveDefault self) fun scene found =>
      (∀ carrier, found = some carrier → carrier ∈ scene.world.store.carriers) ∧
        (found = none ↔ ¬ self.isSpecializable) := by
  unfold resolveDefault
  split
  · rename_i hspecializable
    apply (settled_resolve (.ofClass self) hself none).bind
    intro scene carrier hscene hcarrier
    apply Settled.pure
    intro later hlater
    refine ⟨?_, by simp [hspecializable]⟩
    rintro other ⟨⟩
    exact hlater.world.carriers carrier hcarrier
  · rename_i hplain
    exact Settled.pure fun _ _ => ⟨fun _ h => (nomatch h), by simp [hplain]⟩

end Scene

namespace Class

variable (host : Host)

/-- What the values of the constants of a class depend on, once a scope is given. -/
def evaluator (self : Class) (functions : Registry) (scope : Scope) : Evaluator :=
  { host, functions, analysis := self.analysis, scope }

@[simp]
theorem exec_ofConstants {α : Type} (x : Except ConstantError α) (world : World) :
    exec (Operation.ofConstants x) world = (x.mapError .constants, world) := by
  cases x with
  | error error => rfl
  | ok a => rfl

/-- Reading a constant runs a pass on the values that the class shares, and keeps what the pass adds
to them. -/
theorem exec_evaluate (functions : Registry) (self : Class) (constant : String) (scope : Scope)
    (world : World) {result : Except ConstantError Value} {pass : Pass}
    (hrun : exec ((self.evaluator host functions scope).evaluate constant)
      { cache := some (world.valuesOf self).link } = (result, pass)) :
    exec (self.evaluate host functions constant scope) world = (result.mapError .constants,
      world.setValues self { world.valuesOf self with
        link := pass.cache.getD (world.valuesOf self).link }) := by
  have hunfold : exec (self.evaluate host functions constant scope) world =
      let run := exec ((self.evaluator host functions scope).evaluate constant)
        { cache := some (world.valuesOf self).link }
      exec (Operation.ofConstants run.1) (world.setValues self { world.valuesOf self with
        link := run.2.cache.getD (world.valuesOf self).link }) := rfl
  rw [hunfold, hrun]
  exact exec_ofConstants result _

/-- Reading a constant leaves what was read under carriers. -/
theorem accessors_evaluate (functions : Registry) (self : Class) (constant : String)
    (scope : Scope) (world : World) :
    ((exec (self.evaluate host functions constant scope) world).2.valuesOf self).accessors =
      (world.valuesOf self).accessors := by
  rcases hrun : exec ((self.evaluator host functions scope).evaluate constant)
    { cache := some (world.valuesOf self).link } with ⟨result, pass⟩
  rw [exec_evaluate host functions self constant scope world hrun, World.valuesOf_setValues,
    if_pos rfl]

/-- What is kept under a carrier, read if nothing is kept yet. -/
def keptValue (functions : Registry) (self : Class) (constant : String) (carrier : Carrier) :
    Operation Value := do
  let key := (carrier.id, constant)
  match ((← get).valuesOf self).accessors.lookup key with
  | some value => return value
  | none =>
    let value ← self.evaluate host functions constant carrier.scope
    modify fun world =>
      let values := world.valuesOf self
      world.setValues self { values with accessors := (key, value) :: values.accessors }
    return value

theorem accessorValue_eq (functions : Registry) (self : Class) (constant : String)
    (carrier : Carrier) :
    self.accessorValue host functions constant carrier =
      self.checkCarrier constant carrier >>= fun _ =>
        self.keptValue host functions constant carrier := rfl

theorem exec_keptValue_of_some (functions : Registry) {self : Class} {constant : String}
    {carrier : Carrier} {world : World} {value : Value}
    (h : (world.valuesOf self).accessors.lookup (carrier.id, constant) = some value) :
    exec (self.keptValue host functions constant carrier) world = (.ok value, world) := by
  simp only [keptValue, exec_bind, exec_get, h]
  rfl

theorem exec_keptValue_of_none (functions : Registry) {self : Class} {constant : String}
    {carrier : Carrier} {world : World}
    (h : (world.valuesOf self).accessors.lookup (carrier.id, constant) = none) :
    exec (self.keptValue host functions constant carrier) world =
      exec (self.evaluate host functions constant carrier.scope >>= fun value => do
        modify fun world => world.setValues self { world.valuesOf self with
          accessors := ((carrier.id, constant), value) :: (world.valuesOf self).accessors }
        return value) world := by
  rw [keptValue, exec_bind_ok (exec_get world)]
  simp only [h]

theorem exec_checkCarrier (self : Class) (constant : String) (carrier : Carrier) :
    ∃ checked : Except Error Unit, ∀ world,
      exec (self.checkCarrier constant carrier) world = (checked, world) := by
  unfold checkCarrier
  split
  · dsimp only
    split
    · exact ⟨.ok (), fun world => rfl⟩
    · exact ⟨.error _, fun world => rfl⟩
  · exact ⟨.ok (), fun world => rfl⟩

/-- A part of the world that does not hold what a class keeps. -/
def Apart {γ : Type} (self : Class) (part : World → γ) : Prop :=
  ∀ world values, part (world.setValues self values) = part world

theorem apart_store (self : Class) : self.Apart World.store :=
  fun _ _ => rfl

theorem apart_loader (self : Class) : self.Apart World.loader :=
  fun _ _ => rfl

theorem apart_valuesOf {self other : Class} (h : other.id ≠ self.id) :
    self.Apart fun world => world.valuesOf other := by
  intro world values
  dsimp only
  rw [World.valuesOf_setValues, if_neg h]

theorem leaves_evaluate {γ : Type} {part : World → γ} {self : Class} (h : self.Apart part)
    (functions : Registry) (constant : String) (scope : Scope) :
    Leaves part (self.evaluate host functions constant scope) := by
  intro world
  rcases hrun : exec ((self.evaluator host functions scope).evaluate constant)
    { cache := some (world.valuesOf self).link } with ⟨result, pass⟩
  rw [exec_evaluate host functions self constant scope world hrun]
  exact h world _

theorem leaves_accessorValue {γ : Type} {part : World → γ} {self : Class} (h : self.Apart part)
    (functions : Registry) (constant : String) (carrier : Carrier) :
    Leaves part (self.accessorValue host functions constant carrier) := by
  obtain ⟨checked, hchecked⟩ := exec_checkCarrier self constant carrier
  have hcheck : Leaves part (self.checkCarrier constant carrier) := by
    intro world
    rw [hchecked]
  rw [accessorValue_eq]
  apply hcheck.bind
  intro _
  apply Leaves.get.bind
  intro world
  dsimp only
  split
  · exact Leaves.pure _
  · apply (leaves_evaluate host h functions constant carrier.scope).bind
    intro value
    apply Leaves.bind
    · exact Leaves.change fun next => h next _
    · intro _
      exact Leaves.pure value

end Class

/-- What neither reads nor resolutions change: the classes and functions that can be found, the
settings, and the carrier that is ambient. -/
def World.setting (world : World) : Loader × Config × Option Carrier :=
  (world.loader, world.store.config, world.ambient.carrier)

theorem leaves_resolve (location : Location) (requested : Option Value) :
    Leaves (fun world => (world.store.supertypes, world.values, world.setting))
      (resolve location requested) := by
  intro world
  cases hdefaults : location.defaults with
  | none => simp only [resolve, hdefaults, exec_throw]
  | some default =>
      rw [exec_resolve location requested hdefaults]
      split
      · rfl
      · rfl

theorem leaves_resolveDefault (self : Class) :
    Leaves (fun world => (world.store.supertypes, world.values)) (resolveDefault self) := by
  unfold resolveDefault
  split
  · have hresolve := (leaves_resolve (.ofClass self) none).narrow fun parts => (parts.1, parts.2.1)
    apply hresolve.bind
    intro carrier
    exact Leaves.pure (some carrier)
  · exact Leaves.pure none

namespace Scene

variable (host : Host) {base : Scene}

theorem settled_evaluate {self : Class} (hself : self ∈ base.classes) (functions : Registry)
    (constant : String) (scope : Scope) :
    base.Settled (self.evaluate host functions constant scope) fun _ _ => True := by
  apply Settled.of_forall
  intro scene hscene
  rcases hrun : exec ((self.evaluator host functions scope).evaluate constant)
    { cache := some (scene.world.valuesOf self).link } with ⟨found, pass⟩
  have hexec := Class.exec_evaluate host functions self constant scope scene.world hrun
  -- The pass adds to the values that are shared, and takes none of them away.
  have hgrown := Evaluator.evaluate_grows (self.evaluator host functions scope) constant
    { cache := some (scene.world.valuesOf self).link }
  rw [hrun] at hgrown
  obtain ⟨link, hlink, hextends⟩ := hgrown.cache _ rfl
  dsimp only at hlink
  rw [hlink, Option.getD_some] at hexec
  have hgrows : scene.Grows (scene.after (self.evaluate host functions constant scope)) := by
    rw [after, hexec]
    exact Grows.setValues (hscene.classes self hself) hextends (Extends.refl _)
  refine ⟨hgrows, fun value hvalue => ⟨trivial, fun later hlater => ?_⟩⟩
  rw [result, hexec] at hvalue
  have hok : found = .ok value := mapError_eq_ok.mp hvalue
  subst hok
  have hshared : Extends link (later.world.valuesOf self).link := by
    have hsince := hlater.world.link self
    rw [after, hexec, World.valuesOf_setValues, if_pos rfl] at hsince
    exact hsince
  have hagain := Evaluator.evaluate_again hrun hlink hshared
  rcases hrun' : exec ((self.evaluator host functions scope).evaluate constant)
    { cache := some (later.world.valuesOf self).link } with ⟨found', pass'⟩
  rw [hrun'] at hagain
  have hexec' := Class.exec_evaluate host functions self constant scope later.world hrun'
  dsimp only at hagain
  rw [result, hexec', hagain]
  rfl

theorem settled_checkCarrier (self : Class) (constant : String) (carrier : Carrier) :
    base.Settled (self.checkCarrier constant carrier) fun _ _ => True := by
  obtain ⟨checked, hrun⟩ := Class.exec_checkCarrier self constant carrier
  apply Settled.of_forall
  intro scene _
  simp only [after, result, hrun]
  exact ⟨Grows.refl scene, fun a ha => ⟨trivial, fun _ _ => ha⟩⟩

/-- A value that was read under a carrier is kept, and found there from then on. -/
theorem settled_keptValue {self : Class} (hself : self ∈ base.classes) (functions : Registry)
    (constant : String) (carrier : Carrier) :
    base.Settled (self.keptValue host functions constant carrier) fun _ _ => True := by
  apply Settled.kept fun world =>
    (world.valuesOf self).accessors.lookup (carrier.id, constant)
  · exact fun scene later value hgrows => hgrows.world.accessors self _ value
  · intro scene value hfound
    rw [result, after, Class.exec_keptValue_of_some host functions hfound]
    exact ⟨rfl, Grows.refl scene⟩
  · intro scene hscene hnone
    have hexec := Class.exec_keptValue_of_none host functions hnone
    let middle := scene.after (self.evaluate host functions constant carrier.scope)
    have hmiddle : scene.Grows middle :=
      ((settled_evaluate host hself functions constant carrier.scope).safe scene hscene).grows
    have haccessors : (middle.world.valuesOf self).accessors =
        (scene.world.valuesOf self).accessors :=
      Class.accessors_evaluate host functions self constant carrier.scope scene.world
    cases hread : scene.result (self.evaluate host functions constant carrier.scope) with
    | error error =>
        rw [exec_bind_error (Prod.ext hread rfl)] at hexec
        rw [result, after, hexec]
        refine ⟨hmiddle, ?_⟩
        rintro a ⟨⟩
    | ok value =>
        rw [exec_bind_ok (Prod.ext hread rfl)] at hexec
        let values : ClassValues := { middle.world.valuesOf self with
          accessors := ((carrier.id, constant), value) :: (middle.world.valuesOf self).accessors }
        have hmade : exec (self.keptValue host functions constant carrier) scene.world =
            (.ok value, middle.world.setValues self values) := hexec
        have hkept : middle.Grows { middle with world := middle.world.setValues self values } := by
          apply Grows.setValues (hmiddle.classes self (hscene.classes self hself))
          · exact Extends.refl _
          · apply Extends.cons
            rw [haccessors]
            exact hnone
        rw [result, after, hmade]
        refine ⟨hmiddle.trans hkept, ?_⟩
        rintro a ⟨⟩
        rw [World.valuesOf_setValues, if_pos rfl]
        exact List.lookup_cons_self
  · exact fun _ _ _ _ => trivial

theorem settled_accessorValue {self : Class} (hself : self ∈ base.classes) (functions : Registry)
    (constant : String) (carrier : Carrier) :
    base.Settled (self.accessorValue host functions constant carrier) fun _ _ => True := by
  rw [Class.accessorValue_eq]
  apply (settled_checkCarrier self constant carrier).bind
  intro scene _ hscene _
  exact settled_keptValue host (hscene.classes self hself) functions constant carrier

end Scene

end Specialization
