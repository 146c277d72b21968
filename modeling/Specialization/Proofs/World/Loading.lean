import Specialization.Proofs.Analysis.Accepted
import Specialization.Proofs.World.Supertype

/-!
Loading makes a scene grow by the class that is loaded. Its number is new, its superclasses are
loaded already, and its analysis accepts what it declares.
-/

namespace Specialization

theorem Definition.of_ofSpec {id : Nat} {spec : ClassSpec} {definition : Definition}
    (h : Definition.ofSpec id spec = .ok definition) :
    definition.id = id ∧ definition.descriptor = spec.descriptor ∧
      ∃ imported, AnchorTable.ofList (spec.importedAnchors.map (·.anchor)) = .ok imported ∧
        analyze spec.declarations imported = .ok definition.analysis := by
  simp only [Definition.ofSpec, bind_eq_ok] at h
  obtain ⟨imported, himported, analysis, hanalysis, h⟩ := h
  split at h
  · cases h
  · cases h
    exact ⟨rfl, rfl, imported, himported, hanalysis⟩

theorem Definition.defaults_of_ofSpec {id : Nat} {spec : ClassSpec} {definition : Definition}
    (h : Definition.ofSpec id spec = .ok definition) :
    definition.defaults = defaultParameters spec.defaults ∧
      definition.methods = spec.methods.map Method.ofSpec := by
  simp only [Definition.ofSpec, bind_eq_ok] at h
  obtain ⟨imported, _, analysis, _, h⟩ := h
  split at h
  · cases h
  · cases h
    exact ⟨rfl, rfl⟩

/-- The class of a definition under a superclass. -/
def Class.under (definition : Definition) (superclass : Option Class) : Class where
  definition
  ancestors := match superclass with
    | some above => above.definition :: above.ancestors
    | none => []

theorem Class.lineage_under (definition : Definition) (superclass : Option Class) :
    (Class.under definition superclass).lineage =
      Class.under definition superclass :: (superclass.map Class.lineage).getD [] := by
  cases superclass with
  | none => rfl
  | some above => rfl

theorem exec_load (spec : ClassSpec) (superclass : Option Class) (world : World) :
    exec (load spec superclass) world =
      match Definition.ofSpec world.nextClass spec with
      | .ok definition => (.ok (Class.under definition superclass),
          { world with nextClass := world.nextClass + 1 })
      | .error error => (.error (.constants error), world) := by
  unfold load
  rw [exec_bind_ok (exec_get world)]
  cases hdefinition : Definition.ofSpec world.nextClass spec with
  | error error => rfl
  | ok definition => rfl

theorem Class.accepted_of_load {self : Class} {spec : ClassSpec} {superclass : Option Class}
    {world : World} (h : (exec (load spec superclass) world).1 = .ok self) :
    self.analysis.Accepted := by
  rw [exec_load] at h
  split at h
  · rename_i definition hdefinition
    cases h
    obtain ⟨_, _, imported, _, hanalysis⟩ := Definition.of_ofSpec hdefinition
    exact ⟨_, _, hanalysis⟩
  · cases h

namespace Scene

variable {scene : Scene}

/-- The scene after a class was loaded, or refused. -/
def loadClass (scene : Scene) (spec : ClassSpec) (superclass : Option Class) : Scene :=
  match scene.result (load spec superclass) with
  | .ok self => { scene.after (load spec superclass) with
      classes := self :: scene.classes }
  | .error _ => scene.after (load spec superclass)

/-- The scene after a class was loaded and made known, or refused. -/
def defineClass (scene : Scene) (spec : ClassSpec) : Scene :=
  match scene.result (define spec) with
  | .ok self => { scene.after (define spec) with classes := self :: scene.classes }
  | .error _ => scene.after (define spec)

theorem Grows.addLoaded (hsound : scene.Sound) {spec : ClassSpec} {definition : Definition}
    (hdefinition : Definition.ofSpec scene.world.nextClass spec = .ok definition)
    {superclass : Option Class} (hsuperclass : ∀ above, superclass = some above →
      above ∈ scene.classes) :
    scene.Grows { scene with
      world := { scene.world with nextClass := scene.world.nextClass + 1 }
      classes := Class.under definition superclass :: scene.classes } := by
  have hid : (Class.under definition superclass).id = scene.world.nextClass :=
    (Definition.of_ofSpec hdefinition).1
  apply Grows.addClass hid
  intro above habove
  rw [Class.lineage_under] at habove
  rcases List.mem_cons.mp habove with rfl | hrest
  · exact Or.inl rfl
  · cases superclass with
    | none => cases hrest
    | some next => exact Or.inr (hsound.lineage next (hsuperclass next rfl) above hrest)

theorem loadClass_grows (hsound : scene.Sound) (spec : ClassSpec) {superclass : Option Class}
    (hsuperclass : ∀ above, superclass = some above → above ∈ scene.classes) :
    scene.Grows (scene.loadClass spec superclass) := by
  have hexec := exec_load spec superclass scene.world
  cases hdefinition : Definition.ofSpec scene.world.nextClass spec with
  | error error =>
      rw [hdefinition] at hexec
      simp only [loadClass, result, after, hexec]
      exact Grows.refl scene
  | ok definition =>
      rw [hdefinition] at hexec
      simp only [loadClass, result, after, hexec]
      exact Grows.addLoaded hsound hdefinition hsuperclass

theorem exec_define (spec : ClassSpec) (world : World) :
    exec (define spec) world =
      match exec (spec.superclass.mapM findClass) world with
      | (.error error, next) => (.error error, next)
      | (.ok superclass, next) =>
        match exec (load spec superclass) next with
        | (.error error, last) => (.error error, last)
        | (.ok self, last) =>
          match last.loader.classes.lookup self.descriptor with
          | some _ => (.error (.duplicateClass self.descriptor), last)
          | none => (.ok self, { last with loader := { last.loader with
              classes := (self.descriptor, self) :: last.loader.classes } }) := by
  unfold define
  rcases hfound : exec (spec.superclass.mapM findClass) world with ⟨error | superclass, next⟩
  · exact exec_bind_error hfound
  · rw [exec_bind_ok hfound]
    dsimp only
    rcases hload : exec (load spec superclass) next with ⟨error | self, last⟩
    · exact exec_bind_error hload
    · rw [exec_bind_ok hload, exec_bind_ok (exec_get last)]
      dsimp only
      cases last.loader.classes.lookup self.descriptor with
      | none => rfl
      | some other => rfl

theorem leaves_superclass (spec : ClassSpec) : Leaves id (spec.superclass.mapM findClass) := by
  cases spec.superclass with
  | none => exact Leaves.pure none
  | some descriptor => exact (leaves_findClass descriptor).bind fun _ => Leaves.pure _

theorem safe_superclass (hsound : scene.Sound) (spec : ClassSpec) :
    scene.Safe (spec.superclass.mapM findClass) fun scene superclass =>
      ∀ above, superclass = some above → above ∈ scene.classes := by
  cases spec.superclass with
  | none => exact (Settled.pure fun _ _ _ h => nomatch h).here
  | some descriptor =>
      have hfind := (settled_findClass hsound descriptor).here
      apply hfind.bind
      intro self _ hself
      apply (Settled.pure ?_).here
      rintro later hlater above ⟨⟩
      exact hlater.classes self hself

theorem leaves_store_load (spec : ClassSpec) (superclass : Option Class) :
    Leaves World.store (load spec superclass) := by
  intro world
  rw [exec_load]
  split
  · rfl
  · rfl

theorem leaves_store_define (spec : ClassSpec) : Leaves World.store (define spec) := by
  apply ((leaves_superclass spec).narrow World.store).bind
  intro superclass
  apply (leaves_store_load spec superclass).bind
  intro self world
  rw [exec_bind_ok (exec_get world)]
  dsimp only
  split
  · rfl
  · rfl

theorem world_defineClass (scene : Scene) (spec : ClassSpec) :
    (scene.defineClass spec).world = (scene.after (Specialization.define spec)).world := by
  rw [defineClass]
  split <;> rfl

/-- What a definition comes down to: nothing, a number that is lost, or a class that is loaded and
made known. -/
theorem defineClass_cases (hsound : scene.Sound) (spec : ClassSpec) :
    scene.defineClass spec = scene ∨
    scene.defineClass spec = { scene with world := { scene.world with
      nextClass := scene.world.nextClass + 1 } } ∨
    ∃ definition superclass, Definition.ofSpec scene.world.nextClass spec = .ok definition ∧
      (∀ above, superclass = some above → above ∈ scene.classes) ∧
      let self := Class.under definition superclass
      scene.world.loader.classes.lookup self.descriptor = none ∧
        scene.defineClass spec = { scene with
          world := { scene.world with
            nextClass := scene.world.nextClass + 1
            loader := { scene.world.loader with
              classes := (self.descriptor, self) :: scene.world.loader.classes } }
          classes := self :: scene.classes } := by
  have hexec := exec_define spec scene.world
  have hleaves := leaves_superclass spec scene.world
  obtain ⟨_, hknown⟩ := safe_superclass hsound spec
  rcases hfound : exec (spec.superclass.mapM findClass) scene.world with
    ⟨error | superclass, next⟩
  · rw [hfound] at hexec hleaves
    obtain rfl : next = scene.world := hleaves
    left
    simp only [defineClass, result, after, hexec]
  · rw [hfound] at hexec hleaves
    obtain rfl : next = scene.world := hleaves
    have hsuperclass := hknown superclass (by rw [result, hfound])
    rw [after, hfound] at hsuperclass
    have hload := exec_load spec superclass scene.world
    cases hdefinition : Definition.ofSpec scene.world.nextClass spec with
    | error error =>
        simp only [hload, hdefinition] at hexec
        left
        simp only [defineClass, result, after, hexec]
    | ok definition =>
        simp only [hload, hdefinition] at hexec
        right
        let self := Class.under definition superclass
        cases hlookup : scene.world.loader.classes.lookup self.descriptor with
        | some other =>
            simp only [self, hlookup] at hexec
            left
            simp only [defineClass, result, after, hexec]
        | none =>
            simp only [self, hlookup] at hexec
            right
            refine ⟨definition, superclass, rfl, hsuperclass, hlookup, ?_⟩
            simp only [defineClass, result, after, hexec]

theorem defineClass_grows (hsound : scene.Sound) (spec : ClassSpec) :
    scene.Grows (scene.defineClass spec) := by
  rcases defineClass_cases hsound spec with hsame | hskipped |
    ⟨definition, superclass, hdefinition, hsuperclass, hnew, hdefined⟩
  · rw [hsame]
    exact Grows.refl scene
  · rw [hskipped]
    exact Grows.skipClass
  · rw [hdefined]
    exact (Grows.addLoaded hsound hdefinition hsuperclass).trans
      (Grows.publish List.mem_cons_self hnew)

end Scene

end Specialization
