import Specialization.Proofs.Analysis.Roots
import Specialization.Proofs.Evaluation.Link
import Specialization.Proofs.World.Effect

/-!
What the classes of a running program keep under carriers. Every class was analyzed when it was
loaded, and keeps values of constants that it declares only; those that are fixed at link time are
shared as well, so that reads without a carrier find the same values.
-/

namespace Specialization

variable (host : Host)

namespace Class

/-- A class whose definition was read from a spec. -/
def Analyzed (self : Class) : Prop :=
  ∃ id spec, Definition.ofSpec id spec = .ok self.definition

theorem Analyzed.accepted {self : Class} (h : self.Analyzed) : self.analysis.Accepted := by
  obtain ⟨id, spec, hdefinition⟩ := h
  obtain ⟨_, _, imported, _, hanalysis⟩ := Definition.of_ofSpec hdefinition
  exact ⟨_, _, hanalysis⟩

/-- Errors about the constants of a class name the class itself. -/
theorem Analyzed.descriptor {self : Class} (h : self.Analyzed) :
    self.analysis.descriptor = self.descriptor := by
  obtain ⟨id, spec, hdefinition⟩ := h
  obtain ⟨_, hdescriptor, imported, _, hanalysis⟩ := Definition.of_ofSpec hdefinition
  exact (Analysis.stages_of_analyze hanalysis).descriptor.trans hdescriptor.symm

/-- A value that may be kept of a constant: the constant is declared, and the value is shared if it
is fixed at link time. -/
structure MayKeep (owner : Class) (link : Values) (constant : String) (value : Value) : Prop where
  declared : owner.analysis.contains constant
  shared : ¬ owner.analysis.isAnchored constant → owner.analysis.Shares link constant value

theorem MayKeep.extend {self : Class} {link larger : Values} {constant : String} {value : Value}
    (h : self.MayKeep link constant value) (hextends : Extends link larger) :
    self.MayKeep larger constant value :=
  ⟨h.declared, fun hplain => (h.shared hplain).extend hextends⟩

/-- All that a class keeps under carriers may be kept. -/
def Keeps (self : Class) (values : ClassValues) : Prop :=
  ∀ entry ∈ values.accessors, self.MayKeep values.link entry.1.2 entry.2

variable {self : Class} {scene : Scene}

/-- A value that was evaluated may be kept. -/
theorem mayKeep_of_evaluate (haccepted : self.analysis.Accepted) {functions : Registry}
    {constant : String} {scope : Scope} {before after : World} {value : Value}
    (h : exec (self.evaluate host functions constant scope) before = (.ok value, after)) :
    self.MayKeep (after.valuesOf self).link constant value := by
  rcases hrun : exec ((self.evaluator host functions scope).evaluate constant)
    { cache := some (before.valuesOf self).link } with ⟨found, pass⟩
  rw [exec_evaluate host functions self constant scope before hrun] at h
  obtain ⟨hfound, rfl⟩ := Prod.mk.inj h
  obtain rfl : found = .ok value := mapError_eq_ok.mp hfound
  rw [World.valuesOf_setValues, if_pos rfl]
  constructor
  · by_contra hundeclared
    rw [Evaluator.evaluate_undeclared hundeclared] at hrun
    cases hrun
  · intro hplain
    obtain ⟨_, link, hlink, hshares⟩ := Evaluator.evaluate_shares haccepted hplain hrun
    rw [hlink]
    exact hshares

theorem Keeps.evaluate (h : self.Keeps (scene.world.valuesOf self)) (hself : self ∈ scene.classes)
    (functions : Registry) (constant : String) (scope : Scope) :
    self.Keeps
      ((scene.after (self.evaluate host functions constant scope)).world.valuesOf self) := by
  have hsettled := Scene.settled_evaluate host hself functions constant scope
  have hgrows := hsettled.grows
  intro entry hentry
  rw [Scene.after, accessors_evaluate] at hentry
  exact (h entry hentry).extend (hgrows.world.link self)

theorem Keeps.keptValue (h : self.Keeps (scene.world.valuesOf self)) (hself : self ∈ scene.classes)
    (haccepted : self.analysis.Accepted) (functions : Registry) (constant : String)
    (carrier : Carrier) :
    self.Keeps
      ((scene.after (self.keptValue host functions constant carrier)).world.valuesOf self) := by
  cases hfound : (scene.world.valuesOf self).accessors.lookup (carrier.id, constant) with
  | some value =>
      rw [Scene.after, exec_keptValue_of_some host functions hfound]
      exact h
  | none =>
      have hexec := exec_keptValue_of_none host functions hfound
      have hevaluated := h.evaluate host hself functions constant carrier.scope
      rw [Scene.after] at hevaluated ⊢
      rcases hread : exec (self.evaluate host functions constant carrier.scope) scene.world with
        ⟨error | value, next⟩
      · rw [hexec, exec_bind_error hread]
        rwa [hread] at hevaluated
      · rw [hread] at hevaluated
        have hnext : exec (self.keptValue host functions constant carrier) scene.world =
            (.ok value, next.setValues self { next.valuesOf self with accessors :=
              ((carrier.id, constant), value) :: (next.valuesOf self).accessors }) := by
          rw [hexec, exec_bind_ok hread]
          rfl
        rw [hnext, World.valuesOf_setValues, if_pos rfl]
        intro entry hentry
        rcases List.mem_cons.mp hentry with rfl | hold
        · exact mayKeep_of_evaluate host haccepted hread
        · exact hevaluated entry hold

theorem Keeps.accessorValue (h : self.Keeps (scene.world.valuesOf self))
    (hself : self ∈ scene.classes) (haccepted : self.analysis.Accepted) (functions : Registry)
    (constant : String) (carrier : Carrier) :
    self.Keeps
      ((scene.after (self.accessorValue host functions constant carrier)).world.valuesOf self) := by
  obtain ⟨checked, hcheck⟩ := exec_checkCarrier self constant carrier
  rw [Scene.after, accessorValue_eq]
  cases checked with
  | error error =>
      rw [exec_bind_error (hcheck scene.world)]
      exact h
  | ok checked =>
      rw [exec_bind_ok (hcheck scene.world)]
      exact h.keptValue host hself haccepted functions constant carrier

end Class

namespace Scene

/-- Every class was analyzed, and keeps only what it may. -/
structure Keeping (scene : Scene) : Prop where
  analyzed : ∀ self ∈ scene.classes, self.Analyzed
  keeps : ∀ self ∈ scene.classes, self.Keeps (scene.world.valuesOf self)

variable {host} {scene next : Scene}

/-- A class is loaded already, or it was analyzed just now and has the next number. -/
theorem Effect.classes (h : scene.Effect host next) {self : Class} (hself : self ∈ next.classes) :
    self ∈ scene.classes ∨ self.Analyzed ∧ self.id = scene.world.nextClass ∧
      next.world.values = scene.world.values := by
  cases h with
  | loaded hdefinition _ =>
      rcases List.mem_cons.mp hself with rfl | hold
      · exact Or.inr ⟨⟨_, _, hdefinition⟩, (Definition.of_ofSpec hdefinition).1, rfl⟩
      · exact Or.inl hold
  | _ => exact Or.inl hself

/-- Only a read of its own constants changes what a class keeps. -/
theorem Effect.values (h : scene.Effect host next) (hsound : scene.Sound) {self : Class}
    (hself : self ∈ scene.classes) :
    next.world.valuesOf self = scene.world.valuesOf self ∨
      (∃ functions constant scope,
        next = scene.after (self.evaluate host functions constant scope)) ∨
      ∃ functions constant carrier,
        next = scene.after (self.accessorValue host functions constant carrier) := by
  cases h with
  | @resolved location _ requested =>
      have hvalues := (leaves_resolve location requested).narrow (fun parts => parts.2.1)
        scene.world
      exact Or.inl (congrArg (fun values => (values.lookup self.id).getD {}) hvalues)
  | @evaluated functions other hother constant scope =>
      by_cases hid : self.id = other.id
      · obtain rfl := hsound.class_unique self hself other hother hid
        exact Or.inr (Or.inl ⟨functions, constant, scope, rfl⟩)
      · have hapart := Class.apart_valuesOf hid
        exact Or.inl (Class.leaves_evaluate host hapart functions constant scope scene.world)
  | @read functions other hother constant carrier =>
      by_cases hid : self.id = other.id
      · obtain rfl := hsound.class_unique self hself other hother hid
        exact Or.inr (Or.inr ⟨functions, constant, carrier, rfl⟩)
      · have hapart := Class.apart_valuesOf hid
        exact Or.inl (Class.leaves_accessorValue host hapart functions constant carrier scene.world)
  | _ => exact Or.inl rfl

theorem Effect.keeping (h : scene.Effect host next) (hsound : scene.Sound)
    (hkeeping : scene.Keeping) : next.Keeping := by
  have hclasses : ∀ self ∈ next.classes, self.Analyzed ∧ self.Keeps (next.world.valuesOf self) := by
    intro self hself
    rcases h.classes hself with hold | ⟨hanalyzed, hid, hvalues⟩
    · have hanalyzed := hkeeping.analyzed self hold
      have hkeeps := hkeeping.keeps self hold
      refine ⟨hanalyzed, ?_⟩
      rcases h.values hsound hold with hsame | ⟨functions, constant, scope, rfl⟩ |
        ⟨functions, constant, carrier, rfl⟩
      · rwa [hsame]
      · exact hkeeps.evaluate host hold functions constant scope
      · exact hkeeps.accessorValue host hold hanalyzed.accepted functions constant carrier
    · have hnothing : next.world.valuesOf self = {} := by
        rw [World.valuesOf, hvalues]
        exact hsound.valuesOf_new hid
      refine ⟨hanalyzed, ?_⟩
      rw [hnothing]
      exact fun _ hentry => absurd hentry List.not_mem_nil
  exact ⟨fun self hself => (hclasses self hself).1, fun self hself => (hclasses self hself).2⟩

theorem Reachable.keeping (h : scene.Reachable host) : scene.Keeping :=
  h.induction (fun _ _ => ⟨nofun, nofun⟩) fun _ _ hscene hkeeping heffect =>
    heffect.keeping hscene.sound hkeeping

end Scene

end Specialization
