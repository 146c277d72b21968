import Specialization.Proofs.World.Ascent
import Specialization.Proofs.World.Loader

/-!
The hierarchy of the classes that a loader knows. Each class stands under its own descriptor, and
above it stands the class that was known under the descriptor of its superclass before. So going up
from a class goes back in the history of the loader, never meets a descriptor twice, and comes to an
end after no more classes than the loader knows.
-/

namespace Specialization

variable {host : Host} {known older : List (Descriptor × Class)} {self above : Class}

namespace Class

/-- A class with its superclass. -/
def Extending (self above : Class) : Prop :=
  self.superclass? = some above

/-- Goes up from a class, one superclass after the other, until something is found. The classes
passed are counted, and there is no answer if there are more of them than rounds. -/
def searchUp {α : Type} (found : Nat → Class → Option α) :
    (rounds passed : Nat) → Class → Option (Option α)
  | 0, _, _ => none
  | rounds + 1, passed, self =>
    match found passed self with
    | some a => some (some a)
    | none =>
      match self.superclass? with
      | none => some none
      | some above => searchUp found rounds (passed + 1) above

theorem lineage_of_root {self : Class} (h : self.superclass? = none) : self.lineage = [self] := by
  obtain ⟨definition, ancestors⟩ := self
  cases ancestors with
  | nil => rfl
  | cons above rest => cases h

/-- A search that may pass the whole chain finds what comes first on it. -/
theorem searchUp_eq {α : Type} (found : Nat → Class → Option α) {rounds : Nat} (passed : Nat)
    {self : Class} (hrounds : self.lineage.length ≤ rounds) :
    searchUp found rounds passed self =
      some ((self.lineage.zipIdx passed).findSome? fun entry => found entry.2 entry.1) := by
  induction rounds generalizing self passed with
  | zero =>
      obtain ⟨rest, hlineage⟩ := self.lineage_eq_cons
      rw [hlineage] at hrounds
      cases hrounds
  | succ rounds ih =>
      rw [searchUp]
      cases hsuperclass : self.superclass? with
      | none =>
          rw [lineage_of_root hsuperclass, List.zipIdx_cons, List.findSome?_cons]
          cases found passed self <;> rfl
      | some above =>
          have hlineage := lineage_of_superclass hsuperclass
          rw [hlineage, List.length_cons, Nat.add_le_add_iff_right] at hrounds
          rw [hlineage, List.zipIdx_cons, List.findSome?_cons]
          dsimp only
          rw [ih (passed + 1) hrounds]
          cases found passed self <;> rfl

/-- The loop that looks for a method. -/
def findMethodWithin (rounds : Nat) (self : Class) (name : String) :
    Option (Option (Class × Method)) :=
  searchUp (fun _ declaring => (declaring.method? name).map fun method => (declaring, method))
    rounds 0 self

/-- The loop that counts the steps to an ancestor. -/
def distanceWithin (rounds : Nat) (self ancestor : Class) : Option (Option Nat) :=
  searchUp (fun passed other => if other == ancestor then some passed else none) rounds 0 self

theorem findMethodWithin_eq {rounds : Nat} {self : Class} (hrounds : self.lineage.length ≤ rounds)
    (name : String) : findMethodWithin rounds self name = some (self.findMethod? name) := by
  rw [findMethodWithin, searchUp_eq _ 0 hrounds, findMethod?]
  conv_rhs => rw [← List.zipIdx_map_fst 0 self.lineage, List.findSome?_map]
  rfl

theorem distanceWithin_eq {rounds : Nat} {self : Class} (hrounds : self.lineage.length ≤ rounds)
    (ancestor : Class) : distanceWithin rounds self ancestor = some (self.distanceTo? ancestor) := by
  rw [distanceWithin, searchUp_eq _ 0 hrounds, distanceTo?, List.findIdx?_eq_findSome?_zipIdx]

end Class

variable (host) in
/-- The loop that climbs to supertypes, with one round for each step. -/
def climbSteps (functions : Registry) : Nat → Class → Option Carrier → Operation (Option Carrier)
  | 0, _, current => return current
  | steps + 1, self, current =>
    match self.superclass? with
    | none => return current
    | some above => do
      let next ← match current with
        | some carrier => directSupertype host functions carrier above
        | none => resolveDefault above
      climbSteps functions steps above next

theorem climbSteps_eq (functions : Registry) (steps : Nat) (self : Class)
    (current : Option Carrier) :
    climbSteps host functions steps self current =
      climb host functions current ((self.lineage.drop 1).take steps) := by
  induction steps generalizing self current with
  | zero => cases current <;> rfl
  | succ steps ih =>
      cases hsuperclass : self.superclass? with
      | none =>
          rw [climbSteps, Class.lineage_of_root hsuperclass, hsuperclass]
          cases current <;> rfl
      | some above =>
          obtain ⟨rest, hlineage⟩ := above.lineage_eq_cons
          have htake : (self.lineage.drop 1).take (steps + 1) =
              above :: (above.lineage.drop 1).take steps := by
            rw [Class.lineage_of_superclass hsuperclass, hlineage]
            rfl
          rw [climbSteps, htake, hsuperclass]
          cases current with
          | none => simp only [climb, ih]
          | some carrier => simp only [climb, ih]

variable (host) in
/-- Looking for the carrier of an ancestor by loops with at most so many rounds. -/
def supertypeWithin (functions : Registry) (rounds : Nat) (carrier : Carrier) (ancestor : Class) :
    Option (Operation (Option Carrier)) :=
  let self := carrier.owner
  let failure := Error.notASupertype self.descriptor ancestor.descriptor
  if carrier.isClassLevel then
    (self.distanceWithin rounds ancestor).map fun
      | none => throw failure
      | some distance => do
        let limit := (← get).store.config.maxSupertypeDepth
        if limit < distance then throw (.supertypeDepthExceeded self.descriptor limit)
        climbSteps host functions distance self (some carrier)
  else some (throw failure)

theorem supertypeWithin_eq (functions : Registry) {rounds : Nat} {carrier : Carrier}
    (hrounds : carrier.owner.lineage.length ≤ rounds) (ancestor : Class) :
    supertypeWithin host functions rounds carrier ancestor =
      some (supertypeCarrier host functions carrier ancestor) := by
  rw [supertypeWithin, supertypeCarrier, Class.distanceWithin_eq hrounds]
  dsimp only
  split
  · cases carrier.owner.distanceTo? ancestor with
    | none => rfl
    | some distance => simp only [Option.map_some, climbSteps_eq]
  · rfl

/-- The classes that a loader knows, newest first: each was defined under a superclass that was known
before, and under a descriptor that was not. -/
inductive Founded : List (Descriptor × Class) → Prop
  | empty : Founded []
  | define {older : List (Descriptor × Class)} {self : Class} (holder : Founded older)
      (hnew : older.lookup self.descriptor = none)
      (hsuperclass : ∀ above, self.Extending above → older.lookup above.descriptor = some above)
      (himplemented : ∀ method ∈ self.methods, self.analysis.contains method.implementation) :
      Founded ((self.descriptor, self) :: older)

namespace Founded

theorem keyed (h : Founded known) : ∀ entry ∈ known, entry.1 = entry.2.descriptor := by
  induction h with
  | empty => exact fun _ hentry => nomatch hentry
  | define _ _ _ _ ih => exact List.forall_mem_cons.mpr ⟨rfl, ih⟩

theorem nodup (h : Founded known) : (known.map Prod.fst).Nodup := by
  induction h with
  | empty => exact List.nodup_nil
  | @define older self _ hnew _ _ ih =>
      refine List.nodup_cons.mpr ⟨?_, ih⟩
      rw [List.mem_map]
      rintro ⟨entry, hentry, hkey⟩
      simpa [hkey] using List.lookup_eq_none_iff.mp hnew entry hentry

/-- What was known when a class was defined. -/
theorem at_definition (h : Founded known) {newer : List (Descriptor × Class)}
    (hsplit : known = newer ++ (self.descriptor, self) :: older) : Founded older ∧
      (∀ above, self.Extending above → older.lookup above.descriptor = some above) ∧
      ∀ method ∈ self.methods, self.analysis.contains method.implementation := by
  induction h generalizing newer with
  | empty => simp at hsplit
  | define holder _ hsuperclass himplemented ih =>
      cases newer with
      | nil =>
          obtain ⟨hentry, rfl⟩ := List.cons.inj hsplit
          obtain ⟨_, rfl⟩ := Prod.mk.inj hentry
          exact ⟨holder, hsuperclass, himplemented⟩
      | cons entry newer => exact ih (List.cons.inj hsplit).2

/-- The chain of a class goes back in the history of the loader. -/
theorem lineage_sublist (h : Founded known) (hself : known.lookup self.descriptor = some self) :
    (self.lineage.map fun above => (above.descriptor, above)).Sublist known := by
  induction h generalizing self with
  | empty => cases hself
  | @define older newest holder _ hsuperclass _ ih =>
      by_cases hsame : self.descriptor = newest.descriptor
      · rw [hsame, List.lookup_cons_self] at hself
        obtain rfl := Option.some.inj hself
        cases habove : newest.superclass? with
        | none =>
            rw [Class.lineage_of_root habove]
            exact (List.nil_sublist older).cons_cons _
        | some above =>
            rw [Class.lineage_of_superclass habove]
            exact (ih (hsuperclass above habove)).cons_cons _
      · rw [lookup_cons_of_ne hsame] at hself
        exact (ih hself).cons _

theorem lookup_of_mem (h : Founded known) (hself : (self.descriptor, self) ∈ known) :
    known.lookup self.descriptor = some self := by
  induction h with
  | empty => cases hself
  | define _ hnew _ _ ih =>
      rcases List.mem_cons.mp hself with hsame | hold
      · obtain ⟨_, rfl⟩ := Prod.mk.inj hsame
        exact List.lookup_cons_self
      · exact Extends.cons hnew _ _ _ (ih hold)

end Founded

/-- Whatever is above a class lies on its chain, behind the class itself. -/
theorem Class.mem_tail_of_above (h : Relation.TransGen Extending self above) :
    above ∈ self.lineage.tail := by
  induction h using Relation.TransGen.head_induction_on with
  | single hsuperclass =>
      rw [lineage_of_superclass hsuperclass]
      exact above.mem_lineage_self
  | head hsuperclass _ ih =>
      rw [lineage_of_superclass hsuperclass]
      exact List.mem_of_mem_tail ih

variable (host) in
/-- What is known of a class, with the classes that were known when it was defined. -/
structure Grounded (known older : List (Descriptor × Class)) (self : Class) : Prop where
  superclass : ∀ above, self.Extending above → older.lookup above.descriptor = some above
  registered : ∀ above ∈ self.lineage, known.lookup above.descriptor = some above
  distinct : (self.lineage.map Class.descriptor).Nodup
  acyclic : ∀ above, Relation.TransGen Class.Extending self above →
    above.descriptor ≠ self.descriptor
  bounded : ∀ way top, self.Climbs way top → way.length < known.length
  findMethod : ∀ name, self.findMethodWithin known.length name = some (self.findMethod? name)
  distanceTo : ∀ ancestor,
    self.distanceWithin known.length ancestor = some (self.distanceTo? ancestor)
  supertypeCarrier : ∀ functions carrier ancestor, carrier.owner = self →
    supertypeWithin host functions known.length carrier ancestor =
      some (supertypeCarrier host functions carrier ancestor)
  implemented : ∀ method ∈ self.methods, self.analysis.contains method.implementation

theorem Founded.grounded_at (h : Founded known) {newer : List (Descriptor × Class)}
    (hsplit : known = newer ++ (self.descriptor, self) :: older) :
    Grounded host known older self := by
  obtain ⟨_, hsuperclass, himplemented⟩ := h.at_definition hsplit
  have hself : known.lookup self.descriptor = some self := h.lookup_of_mem (by simp [hsplit])
  have hchain := h.lineage_sublist hself
  have hlength : self.lineage.length ≤ known.length := by simpa using hchain.length_le
  have hdistinct : (self.lineage.map Class.descriptor).Nodup := by
    simpa [Function.comp_def] using (hchain.map Prod.fst).nodup h.nodup
  refine ⟨hsuperclass, ?_, hdistinct, ?_, ?_, Class.findMethodWithin_eq hlength,
    Class.distanceWithin_eq hlength, ?_, himplemented⟩
  · intro above habove
    exact h.lookup_of_mem (hchain.subset (List.mem_map_of_mem habove))
  · intro above habove hsame
    obtain ⟨rest, hlineage⟩ := self.lineage_eq_cons
    have hmem := Class.mem_tail_of_above habove
    rw [hlineage] at hmem hdistinct
    exact (List.nodup_cons.mp hdistinct).1 (hsame ▸ List.mem_map_of_mem hmem)
  · intro way top hway
    obtain ⟨rest, hlineage⟩ := hway.lineage_eq
    rw [hlineage] at hlength
    simp only [List.length_append, List.length_cons] at hlength
    omega
  · rintro functions carrier ancestor rfl
    exact supertypeWithin_eq functions hlength ancestor

theorem Definition.implemented_of_ofSpec {id : Nat} {spec : ClassSpec} {definition : Definition}
    (h : Definition.ofSpec id spec = .ok definition) :
    ∀ method ∈ definition.methods, definition.analysis.contains method.implementation := by
  simp only [Definition.ofSpec, bind_eq_ok] at h
  obtain ⟨imported, _, analysis, _, h⟩ := h
  split at h
  · cases h
  · rename_i hnone
    cases h
    rw [unimplemented?, List.find?_eq_none] at hnone
    intro method hmethod
    obtain ⟨spec, hspec, rfl⟩ := List.mem_map.mp hmethod
    have hcontains := hnone spec hspec
    rw [Bool.not_eq_true, Bool.not_eq_false'] at hcontains
    exact hcontains

namespace Scene

variable {scene next : Scene}

/-- A move adds at most one class to those that the loader knows, in front of them. -/
theorem Move.founded (h : scene.Move host next) (hfounded : Founded scene.world.loader.classes) :
    Founded next.world.loader.classes ∧
      scene.world.loader.classes <:+ next.world.loader.classes := by
  rcases h.loader with hsame | ⟨spec, self, hdefine, rfl⟩
  · rw [hsame]
    exact ⟨hfounded, List.suffix_refl _⟩
  · obtain ⟨⟨definition, superclass, hdefinition, rfl, hnamed⟩, hnew, hloader⟩ :=
      define_eq_ok (Prod.ext hdefine rfl)
    have hclasses : (scene.defineClass spec).world.loader.classes =
        (definition.descriptor, Class.under definition superclass) ::
          scene.world.loader.classes := by
      rw [defineClass, hdefine]
      exact congrArg Loader.classes hloader
    rw [hclasses]
    refine ⟨.define hfounded hnew ?_ (Definition.implemented_of_ofSpec hdefinition),
      List.suffix_cons _ _⟩
    intro above habove
    have hsuperclass : superclass = some above := by
      cases superclass with
      | none => cases habove
      | some other => exact habove
    obtain ⟨name, _, hknown⟩ := hnamed above hsuperclass
    obtain rfl : name = above.descriptor := hfounded.keyed _ (mem_of_lookup hknown)
    exact hknown

theorem founded_of_moves {first last : Scene} (hfirst : Founded first.world.loader.classes)
    (h : Relation.ReflTransGen (Move host) first last) :
    Founded last.world.loader.classes ∧
      first.world.loader.classes <:+ last.world.loader.classes := by
  induction h with
  | refl => exact ⟨hfirst, List.suffix_refl _⟩
  | tail _ hmove ih =>
      obtain ⟨hnext, hadded⟩ := hmove.founded ih.1
      exact ⟨hnext, ih.2.trans hadded⟩

/-- Wherever a program gets, the classes that its loader knows stand under their own descriptors,
each above what was known before it, and whatever is done from then on, failing or not, they stay
where they are. -/
theorem Reachable.grounded (h : scene.Reachable host) :
    let known := scene.world.loader.classes
    (∀ entry ∈ known, entry.1 = entry.2.descriptor) ∧
    (known.map Prod.fst).Nodup ∧
    (∀ newer entry older, known = newer ++ entry :: older → Grounded host known older entry.2) ∧
    ∀ later, Relation.ReflTransGen (Move host) scene later →
      known <:+ later.world.loader.classes ∧ Extends known later.world.loader.classes := by
  have hfounded : Founded scene.world.loader.classes := by
    obtain ⟨config, functions, hmoves⟩ := h
    exact (founded_of_moves .empty hmoves).1
  refine ⟨hfounded.keyed, hfounded.nodup, ?_, ?_⟩
  · rintro newer ⟨descriptor, self⟩ older hsplit
    obtain rfl : descriptor = self.descriptor :=
      hfounded.keyed (descriptor, self) (by simp [hsplit])
    exact hfounded.grounded_at hsplit
  · intro later hmoves
    obtain ⟨hgrows, _⟩ := grows_of_effects (effects_of_moves h.recalling hmoves) h.recalling
    exact ⟨(founded_of_moves hfounded hmoves).2, hgrows.world.classes⟩

/-- Two classes are defined. Then a class that extends itself is refused, since nothing is known
under its name yet, and one that extends a class of its own name, since the name is taken. -/
def rejectingScene : Scene :=
  afterLoading [
    { descriptor := "Box"
      defaults := ["Object"]
      anchors := [{ name := "T", level := .ofClass }]
      constants := [
        { name := "T", action := "anchor" },
        { name := "describe", action := "function", operands := [.string "type.descriptor"] }]
      methods := [{ name := "describe", implementation := "describe" }] },
    { descriptor := "Crate", superclass := some "Box", defaults := ["Object"] },
    { descriptor := "Own", superclass := some "Own" },
    { descriptor := "Crate", superclass := some "Crate" }]
    none

theorem grounded_rejecting :
    ∃ (host : Host) (crate box : Class), rejectingScene.Reachable host ∧
      rejectingScene.world.loader.classes = [("Crate", crate), ("Box", box)] ∧
      crate.superclass? = some box ∧ box.methods.map Method.name = ["describe"] ∧
      Grounded host [("Crate", crate), ("Box", box)] [("Box", box)] crate ∧
      Grounded host [("Crate", crate), ("Box", box)] [] box := by
  let host : Host := fun _ _ => .error "absent"
  have hreachable : rejectingScene.Reachable host := afterLoading_reachable _ _
  obtain ⟨crate, box, hknown, hsuperclass, hmethods⟩ : ∃ crate box,
      rejectingScene.world.loader.classes = [("Crate", crate), ("Box", box)] ∧
        crate.superclass? = some box ∧ box.methods.map Method.name = ["describe"] :=
    ⟨_, _, rfl, rfl, rfl⟩
  obtain ⟨_, _, hgrounded, _⟩ := hreachable.grounded
  rw [hknown] at hgrounded
  exact ⟨host, crate, box, hreachable, hknown, hsuperclass, hmethods,
    hgrounded [] ("Crate", crate) [("Box", box)] rfl,
    hgrounded [("Crate", crate)] ("Box", box) [] rfl⟩

end Scene

end Specialization
