import Specialization.Proofs.CallSite.AmbientRead
import Specialization.Proofs.World.Scoping

/-!
Two kinds of call sites. A call on a receiver climbs from its carrier to the class that declares the
method, and reads the implementation under the carrier that it finds there. A call site of that
class reads the implementation under the carrier of the receiver, which is scoped by the anchor of
the constant alone. Both ways end at the carrier that the anchor belongs to, so they read the same
function, as long as the descriptor of the class that declares the anchor names one class of the
chain at most. Only for a constant fixed at link time they read it under different carriers.
-/

namespace Specialization

variable (host : Host)

namespace Class

/-- A descriptor names at most one class of a chain. -/
def NamesOnce (self : Class) (descriptor : Descriptor) : Prop :=
  ∀ a ∈ self.lineage, ∀ b ∈ self.lineage,
    a.descriptor = descriptor → b.descriptor = descriptor → a = b

theorem Climbs.lineage_subset {self top : Class} {way : List Class} (h : self.Climbs way top)
    {above : Class} (habove : above ∈ top.lineage) : above ∈ self.lineage := by
  obtain ⟨rest, hrest⟩ := climbs_of_mem habove
  exact (h.trans hrest).mem_lineage

/-- Two classes that are above each other are one. -/
theorem Climbs.antisymm {self top : Class} {way back : List Class} (h : self.Climbs way top)
    (hback : top.Climbs back self) : self = top := by
  have hlength := h.length_ancestors
  have hlength' := hback.length_ancestors
  cases h with
  | here => rfl
  | up =>
      rw [List.length_cons] at hlength
      omega

end Class

/-- Finding the carrier of a direct superclass reads constants of the class below only. -/
theorem leaves_directSupertype {other : Class} {carrier : Carrier}
    (hother : other.id ≠ carrier.owner.id) (functions : Registry) (superclass : Class) :
    Leaves (fun world => world.valuesOf other)
      (directSupertype host functions carrier superclass) := by
  let kept (values : List (Nat × ClassValues)) : ClassValues := (values.lookup other.id).getD {}
  have hresolve : ∀ location requested,
      Leaves (fun world => world.valuesOf other) (resolve location requested) :=
    fun location requested => (leaves_resolve location requested).narrow fun parts => kept parts.2.1
  have hfind : Leaves (fun world => world.valuesOf other)
      (findDirectSupertype host functions carrier superclass) := by
    unfold findDirectSupertype
    dsimp only
    split
    · exact (leaves_resolveDefault superclass).narrow fun parts => kept parts.2
    · rename_i constant _
      apply (Class.leaves_accessorValue host (Class.apart_valuesOf hother) functions constant
        carrier).bind
      intro mapping
      split
      · exact Leaves.throw _
      · split
        · exact (hresolve _ _).bind fun found => Leaves.pure (some found)
        · exact Leaves.throw _
  unfold directSupertype
  apply Leaves.get.bind
  intro world
  split
  · exact Leaves.pure _
  · apply hfind.bind
    rintro (_ | found)
    · exact Leaves.pure none
    · apply Leaves.bind
      · exact Leaves.change fun _ => rfl
      · exact fun _ => Leaves.pure (some found)

namespace Scene

variable {host} {scene : Scene}

/-- A climb reads constants of the classes that it leaves behind, and the class at the top is none
of them. -/
theorem Recalling.valuesOf_climb (h : scene.Recalling host) (functions : Registry)
    {self top : Class} {way : List Class} (hway : self.Climbs way top)
    (hself : self ∈ scene.classes) {current : Option Carrier}
    (hcurrent : ∀ carrier, current = some carrier →
      scene.Knows carrier ∧ carrier.location = .ofClass self) :
    (scene.after (climb host functions current way)).world.valuesOf top =
      scene.world.valuesOf top := by
  induction hway generalizing scene current with
  | here => cases current <;> rfl
  | @up self above top way hdirect hrest ih =>
      have habove := h.sound.superclass hself hdirect
      -- What the rest of the climb leaves, whatever the first step finds.
      have hgoes : ∀ {step : Operation (Option Carrier)}, scene.Acts host step →
          (scene.after step).world.valuesOf top = scene.world.valuesOf top →
          (∀ found, scene.result step = .ok found → ∀ carrier, found = some carrier →
            (scene.after step).Knows carrier ∧ carrier.location = .ofClass above) →
          (scene.after (step >>= fun found => climb host functions found way)).world.valuesOf top =
            scene.world.valuesOf top := by
        intro step hacts hleaves hfound
        obtain ⟨hgrows, hnext⟩ := grows_of_effects hacts h
        cases hresult : scene.result step with
        | error error =>
            rw [after_bind_error hresult]
            exact hleaves
        | ok found =>
            rw [after_bind_ok hresult, ← hleaves]
            exact ih hnext (hgrows.classes above habove) (hfound found hresult)
      cases current with
      | none =>
          apply hgoes (acts_resolveDefault host habove h)
          · have hleaves := leaves_resolveDefault above scene.world
            exact congrArg (fun parts => (parts.2.lookup top.id).getD {}) hleaves
          · intro found hfound carrier hcarrier
            exact ⟨Or.inl (((settled_resolveDefault habove).holds hfound).1 carrier hcarrier),
              (isSeen_of_resolveDefault h.sound habove hfound).location carrier hcarrier⟩
      | some carrier =>
          obtain ⟨hcarrier, hlocation⟩ := hcurrent carrier rfl
          obtain ⟨hlevel, rfl⟩ := Carrier.at_class hlocation
          have hother : top.id ≠ carrier.owner.id := by
            intro hid
            have hsame := h.sound.class_unique top
              (h.sound.mem_of_climbs hself (.up hdirect hrest)) _ hself hid
            have hlength := (Class.Climbs.up hdirect hrest).length_ancestors
            rw [hsame, List.length_cons] at hlength
            omega
          apply hgoes (acts_directSupertype host h functions hcarrier hlevel hdirect)
          · exact leaves_directSupertype host hother functions above scene.world
          · intro found hfound other hother
            exact ⟨Or.inl ((settled_directSupertype host h.sound functions hcarrier
              habove).holds hfound other hother),
              (h.isSeen_of_directSupertype hcarrier hdirect hfound).location other hother⟩

theorem Recalling.valuesOf_supertypeCarrier (h : scene.Recalling host) (functions : Registry)
    {carrier : Carrier} (hcarrier : scene.Knows carrier) {top : Class}
    (htop : top ∈ carrier.owner.lineage) :
    (scene.after (supertypeCarrier host functions carrier top)).world.valuesOf top =
      scene.world.valuesOf top := by
  obtain ⟨way, hway⟩ := Class.climbs_of_mem htop
  by_cases hlevel : carrier.isClassLevel
  · rw [after, exec_supertypeCarrier host h.sound functions hcarrier hlevel hway]
    dsimp only
    split
    · rfl
    · apply h.valuesOf_climb functions hway (h.sound.owner carrier hcarrier)
      rintro other ⟨⟩
      exact ⟨hcarrier, Carrier.isClassLevel_iff.mp hlevel⟩
  · simp only [after, supertypeCarrier, if_neg hlevel]
    rfl

/-- Scoping the carrier of a superclass, as it is seen from below, ends where scoping the carrier
below ends. -/
theorem Reachable.scopedCarrier_through (h : scene.Reachable host) {carrier : Carrier}
    (hcarrier : scene.Knows carrier) {declaring : Class}
    (hdeclaring : declaring ∈ carrier.owner.lineage) (hother : declaring ≠ carrier.owner)
    {constant : String} {expected : Descriptor}
    (hexpected : declaring.carrierClass? constant = some expected)
    (hnames : carrier.owner.NamesOnce expected) {above own own' : Carrier}
    (habove : scene.result (supertypeCarrier host scene.world.loader.functions carrier declaring) =
      .ok (some above)) :
    let passed := scene.after
      (supertypeCarrier host scene.world.loader.functions carrier declaring)
    passed.result (scopedCarrier host declaring constant above) = .ok own →
      scene.result (scopedCarrier host declaring constant carrier) = .ok own' →
      own = own' ∧ passed.after (scopedCarrier host declaring constant above) =
        scene.after (scopedCarrier host declaring constant carrier) := by
  intro passed hown hown'
  let functions := scene.world.loader.functions
  have hscene := h.recalling
  have hpassed : passed.Reachable host := h.tail (.supertype functions hcarrier declaring)
  have hsettled := settled_supertypeCarrier host hscene.sound functions hcarrier declaring
  have hgrows : scene.Grows passed := hsettled.grows
  obtain ⟨lower, hlower⟩ := Class.climbs_of_mem hdeclaring
  have hlevel : carrier.isClassLevel := by
    by_contra hmethod
    simp only [result, supertypeCarrier, if_neg hmethod] at habove
    cases habove
  have hlocation := hscene.location_of_supertypeCarrier functions hcarrier hlevel hlower habove
  obtain ⟨_, haboveOwner⟩ := Carrier.at_class hlocation
  have haboveKnown : passed.Knows above := hsettled.holds habove above rfl
  rcases scopedCarrier_eq_ok host hpassed.sound haboveKnown hexpected hown with
    ⟨hnamed, rfl, hafter⟩ | ⟨ancestor, _, hscopes, hclimb, hafter⟩
  · rw [haboveOwner] at hnamed
    rcases scopedCarrier_eq_ok host hscene.sound hcarrier hexpected hown' with ⟨hnamed', _, _⟩ |
      ⟨ancestor', _, hscopes', hclimb', hafter'⟩
    · exact absurd (hnames _ hdeclaring _ (Class.mem_lineage_self _) hnamed hnamed') hother
    · have hdescriptor := h.descriptor_of_loader _ (mem_of_lookup hscopes'.known)
      obtain rfl := hnames _ hscopes'.above _ hdeclaring hdescriptor hnamed
      rw [habove] at hclimb'
      exact ⟨Option.some.inj (Except.ok.inj hclimb'), hafter.trans hafter'.symm⟩
  · have hmem : ancestor ∈ declaring.lineage := haboveOwner ▸ hscopes.above
    have hnamed := hpassed.descriptor_of_loader _ (mem_of_lookup hscopes.known)
    obtain ⟨upper, hupper⟩ := Class.climbs_of_mem hmem
    rcases scopedCarrier_eq_ok host hscene.sound hcarrier hexpected hown' with ⟨hnamed', _, _⟩ |
      ⟨ancestor', _, hscopes', hclimb', hafter'⟩
    · obtain rfl :=
        hnames _ (hlower.lineage_subset hmem) _ (Class.mem_lineage_self _) hnamed hnamed'
      exact absurd (hlower.antisymm hupper).symm hother
    · obtain rfl := hscopes.eq (hgrows.world.classes _ _ hscopes'.known)
      obtain ⟨between, hbetween, _, _, hseen⟩ :=
        hscene.seen_through functions hcarrier hlevel hlower hupper hclimb'
      obtain rfl : some above = between := Except.ok.inj (habove.symm.trans hbetween)
      obtain ⟨_, hresult, hsame⟩ := hseen above rfl
      rw [hgrows.world.functions] at hclimb hafter
      rw [hclimb] at hresult
      exact ⟨Option.some.inj (Except.ok.inj hresult), (hafter.trans hsame).trans hafter'.symm⟩

end Scene

/-- What the call on a receiver reads once it knows the carrier of the declaring class, with the
carrier that the constant was read under. -/
def readDeclared (functions : Registry) (declaring : Class) (constant : String) :
    Option Carrier → Operation (Value × Option Carrier)
  | some above => do
    let found ← readScoped host functions declaring constant above
    return (found.1, some found.2)
  | none => return (← declaring.evaluate host functions constant .unbound, none)

namespace Scene

variable {host} {scene : Scene}

/-- A constant fixed at link time is read as it is without a carrier. -/
theorem evaluate_of_readUnder {self : Class} (hanalyzed : self.Analyzed)
    (hkeeps : self.Keeps (scene.world.valuesOf self)) {functions : Registry} {constant : String}
    (hplain : ¬ self.analysis.isAnchored constant) {carrier : Carrier} {value : Value}
    (h : scene.result (readUnder host functions self constant carrier) = .ok value) :
    scene.result (self.evaluate host functions constant .unbound) = .ok value := by
  rw [result_readUnder host hanalyzed hkeeps, readAmbient,
    hanalyzed.accepted.needsAccessor_eq, if_neg hplain] at h
  split at h
  · exact h
  · cases h

/-- A constant that varies with an anchor is not read without a carrier. -/
theorem result_evaluate_unbound {self : Class} (hanalyzed : self.Analyzed) {constant : String}
    (hanchored : self.analysis.isAnchored constant) (functions : Registry) (value : Value) :
    scene.result (self.evaluate host functions constant .unbound) ≠ .ok value := by
  rw [result_evaluate]
  intro h
  exact Evaluator.evaluate_unbound hanalyzed.accepted rfl hanchored value (mapError_eq_ok.mp h)

theorem readScoped_eq_ok {functions : Registry} {self : Class} {constant : String}
    {carrier : Carrier} {found : Value × Carrier}
    (h : scene.result (readScoped host functions self constant carrier) = .ok found) :
    scene.result (scopedCarrier host self constant carrier) = .ok found.2 ∧
      (scene.after (scopedCarrier host self constant carrier)).result
        (self.accessorValue host functions constant found.2) = .ok found.1 := by
  rw [readScoped] at h
  cases hscoped : scene.result (scopedCarrier host self constant carrier) with
  | error error =>
      rw [result_bind_error hscoped] at h
      cases h
  | ok own =>
      rw [result_bind_ok hscoped, result_bind_pure] at h
      obtain ⟨value, hvalue, rfl⟩ := map_eq_ok.mp h
      exact ⟨rfl, hvalue⟩

theorem readUnder_of_readScoped {functions : Registry} {self : Class} {constant : String}
    {carrier : Carrier} {found : Value × Carrier}
    (h : scene.result (readScoped host functions self constant carrier) = .ok found) :
    scene.result (readUnder host functions self constant carrier) = .ok found.1 := by
  rw [← result_readUnder_scoped, h]
  rfl

/-- What is read under the carrier of the declaring class is read under a carrier, or without
one. -/
theorem readDeclared_eq_ok {functions : Registry} {declaring : Class} {constant : String}
    {above : Option Carrier} {found : Value × Option Carrier}
    (h : scene.result (readDeclared host functions declaring constant above) = .ok found) :
    (∃ carrier own, above = some carrier ∧ found.2 = some own ∧
      scene.result (readScoped host functions declaring constant carrier) = .ok (found.1, own)) ∨
    above = none ∧ found.2 = none ∧
      scene.result (declaring.evaluate host functions constant .unbound) = .ok found.1 := by
  cases above with
  | none =>
      rw [readDeclared, result_bind_pure] at h
      obtain ⟨value, hvalue, rfl⟩ := map_eq_ok.mp h
      exact Or.inr ⟨rfl, rfl, hvalue⟩
  | some carrier =>
      rw [readDeclared, result_bind_pure] at h
      obtain ⟨read, hread, rfl⟩ := map_eq_ok.mp h
      exact Or.inl ⟨carrier, read.2, rfl, rfl, hread⟩

/-- Reading a constant under the carrier of a superclass, as it is seen from below, gives what
reading it from below gives. A constant of an anchor is read under the same carrier both times, and
one fixed at link time under the carrier that is given. -/
theorem Reachable.readDeclared_eq (h : scene.Reachable host) {carrier : Carrier}
    (hcarrier : scene.Knows carrier) {declaring : Class}
    (hdeclaring : declaring ∈ carrier.owner.lineage) (hother : declaring ≠ carrier.owner)
    {constant : String}
    (hnames : ∀ expected, declaring.carrierClass? constant = some expected →
      carrier.owner.NamesOnce expected) {above : Option Carrier}
    (habove : scene.result (supertypeCarrier host scene.world.loader.functions carrier declaring) =
      .ok above) {found : Value × Option Carrier} {found' : Value × Carrier} :
    let functions := scene.world.loader.functions
    let passed := scene.after (supertypeCarrier host functions carrier declaring)
    passed.result (readDeclared host functions declaring constant above) = .ok found →
      scene.result (readScoped host functions declaring constant carrier) = .ok found' →
      found.1 = found'.1 ∧
        (declaring.carrierClass? constant = none → found.2 = above ∧ found'.2 = carrier) ∧
        (declaring.carrierClass? constant ≠ none → found.2 = some found'.2) := by
  intro functions passed hread hread'
  have hpassed : passed.Reachable host := h.tail (.supertype functions hcarrier declaring)
  have hgrows : scene.Grows passed :=
    (settled_supertypeCarrier host h.sound functions hcarrier declaring).grows
  have hmem := h.sound.lineage _ (h.sound.owner carrier hcarrier) _ hdeclaring
  have hanalyzed := h.keeping.analyzed declaring hmem
  cases hexpected : declaring.carrierClass? constant with
  | none =>
      have hplain := Class.carrierClass?_eq_none.mp hexpected
      have hvalues : passed.world.valuesOf declaring = scene.world.valuesOf declaring :=
        h.recalling.valuesOf_supertypeCarrier functions hcarrier hdeclaring
      have hbelow := evaluate_of_readUnder hanalyzed (h.keeping.keeps declaring hmem) hplain
        (readUnder_of_readScoped hread')
      -- The climb left what the class keeps, so it is read above as it is below.
      have hsame : passed.result (declaring.evaluate host functions constant .unbound) =
          .ok found'.1 := by
        rw [← hbelow, result_evaluate, result_evaluate, hvalues]
      have hunscoped : ∀ {scene : Scene} {other own : Carrier},
          scene.result (scopedCarrier host declaring constant other) = .ok own → own = other := by
        intro scene other own hown
        simp only [scopedCarrier, hexpected] at hown
        exact (Except.ok.inj hown).symm
      have hbelowOwn : found'.2 = carrier := hunscoped (readScoped_eq_ok hread').1
      rcases readDeclared_eq_ok hread with ⟨other, own, rfl, hown, hscoped⟩ | ⟨rfl, hown, hvalue⟩
      · have hevaluated := evaluate_of_readUnder hanalyzed
          (hpassed.keeping.keeps declaring (hgrows.classes declaring hmem)) hplain
          (readUnder_of_readScoped hscoped)
        have haboveOwn : own = other := hunscoped (readScoped_eq_ok hscoped).1
        rw [hsame] at hevaluated
        refine ⟨(Except.ok.inj hevaluated).symm, fun _ => ⟨?_, hbelowOwn⟩, fun hnot => ?_⟩
        · rw [hown, haboveOwn]
        · exact absurd rfl hnot
      · rw [hsame] at hvalue
        exact ⟨(Except.ok.inj hvalue).symm, fun _ => ⟨hown, hbelowOwn⟩, fun hnot => absurd rfl hnot⟩
  | some expected =>
      have hanchored : declaring.analysis.isAnchored constant := by
        by_contra hplain
        rw [Class.carrierClass?_eq_none.mpr hplain] at hexpected
        cases hexpected
      rcases readDeclared_eq_ok hread with ⟨other, own, rfl, hown, hscoped⟩ | ⟨_, _, hvalue⟩
      · obtain ⟨hownAbove, hvalueAbove⟩ := readScoped_eq_ok hscoped
        obtain ⟨hownBelow, hvalueBelow⟩ := readScoped_eq_ok hread'
        obtain ⟨hsameOwn, hsameScene⟩ := h.scopedCarrier_through hcarrier hdeclaring hother
          hexpected (hnames expected hexpected) habove hownAbove hownBelow
        dsimp only at hsameOwn hvalueAbove
        rw [hsameScene, hsameOwn, hvalueBelow] at hvalueAbove
        refine ⟨(Except.ok.inj hvalueAbove).symm, fun hnone => ?_, fun _ => ?_⟩
        · cases hnone
        · rw [hown, hsameOwn]
      · exact absurd hvalue (result_evaluate_unbound hanalyzed hanchored functions found.1)

end Scene

theorem liftExcept_bind {α β : Type} (x : Except Error α) (f : α → Except Error β) :
    (liftExcept x >>= fun a => liftExcept (f a) : Operation β) = liftExcept (x >>= f) := by
  cases x with
  | error error => rfl
  | ok a => rfl

/-- The target of a call site, once the function was read and it is known under which carrier. -/
def Target.fit (constant : String) (adaptation : Adaptation) (found : Value × Option Carrier) :
    Except Error Target := do
  adapt (← expectFunction constant found.1) adaptation found.2

/-- A call site without restrictions fits what it reads. -/
theorem SpecializedCallSite.resolve_eq (self : Class) (constant : String) (adaptation : Adaptation)
    (carrier : Carrier) :
    let site : SpecializedCallSite := { owner := self, constant, adaptation }
    site.resolve host carrier = site.read host constant carrier >>= fun found =>
      liftExcept (Target.fit constant adaptation (found.1, some found.2)) := by
  intro site
  unfold SpecializedCallSite.resolve
  congr 1
  funext found
  simp only [site, List.foldlM_nil, bind_pure, Target.fit]
  exact liftExcept_bind _ _

/-- A call on a receiver fits what it reads under the carrier of the declaring class. -/
theorem ReceiverCallSite.resolve_eq (site : ReceiverCallSite) {receiver : Instance}
    {declaring : Class} {method : Method}
    (hmethod : receiver.owner.findMethod? site.method = some (declaring, method)) :
    site.resolve host receiver = Operation.functions >>= fun functions =>
      declaringCarrier host receiver declaring >>= fun above =>
        readDeclared host functions declaring method.implementation above >>= fun found =>
          liftExcept (Target.fit method.implementation site.adaptation found) := by
  unfold ReceiverCallSite.resolve
  simp only [hmethod]
  congr 1
  funext functions
  congr 1
  funext above
  cases above with
  | none =>
      simp only [readDeclared, bind_assoc, pure_bind, Target.fit]
      congr 1
      funext value
      exact liftExcept_bind _ _
  | some own =>
      simp only [readDeclared, readScoped, bind_assoc, pure_bind, Target.fit]
      congr 1
      funext carrier
      congr 1
      funext value
      exact liftExcept_bind _ _

namespace Scene

variable {host} {scene : Scene}

theorem target_of_specialized (hscene : scene.Recalling host) {self : Class} {constant : String}
    {adaptation : Adaptation} {carrier : Carrier} (hcarrier : scene.Knows carrier)
    {target : Target}
    (h : scene.result (SpecializedCallSite.resolve host { owner := self, constant, adaptation }
      carrier) = .ok target) :
    ∃ found, scene.result (readScoped host scene.world.loader.functions self constant carrier) =
        .ok found ∧
      Target.fit constant adaptation (found.1, some found.2) = .ok target := by
  rw [SpecializedCallSite.resolve_eq, result_bind_lift, result_readScoped host hscene _ _ hcarrier]
    at h
  exact bind_eq_ok.mp h

theorem target_of_receiver {site : ReceiverCallSite} {receiver : Instance} {declaring : Class}
    {method : Method}
    (hmethod : receiver.owner.findMethod? site.method = some (declaring, method))
    {target : Target} (h : scene.result (site.resolve host receiver) = .ok target) :
    let climbing := ReceiverCallSite.declaringCarrier host receiver declaring
    ∃ above found, scene.result climbing = .ok above ∧
      (scene.after climbing).result (readDeclared host scene.world.loader.functions declaring
        method.implementation above) = .ok found ∧
      Target.fit method.implementation site.adaptation found = .ok target := by
  intro climbing
  have hfunctions : scene.result Operation.functions = .ok scene.world.loader.functions := rfl
  have hstill : scene.after Operation.functions = scene := rfl
  rw [ReceiverCallSite.resolve_eq host site hmethod, result_bind_ok hfunctions, hstill] at h
  cases habove : scene.result climbing with
  | error error =>
      rw [result_bind_error habove] at h
      cases h
  | ok above =>
      rw [result_bind_ok habove, result_bind_lift] at h
      obtain ⟨found, hfound, htarget⟩ := bind_eq_ok.mp h
      exact ⟨above, found, rfl, hfound, htarget⟩

variable (host) in
/-- A receiver of the class that declares the method has its carrier already. -/
theorem Sound.exec_declaringCarrier_own (hsound : scene.Sound) {carrier : Carrier}
    (hcarrier : scene.Knows carrier) {declaring : Class} (hown : declaring = carrier.owner)
    (world : World) :
    exec (ReceiverCallSite.declaringCarrier host (.ofCarrier carrier) declaring) world =
      (.ok (some carrier), world) := by
  have hid : (declaring == (Instance.ofCarrier carrier).owner) = true := by
    rw [hsound.owner_ofCarrier hcarrier, Class.beq_iff, hown]
  simp only [ReceiverCallSite.declaringCarrier, Instance.carrier?_ofCarrier, hid, if_true]
  rfl

section Declaring

variable (h : scene.Reachable host) {carrier : Carrier} (hcarrier : scene.Knows carrier)
  {declaring : Class} (hdeclaring : declaring ∈ carrier.owner.lineage)

include h hcarrier hdeclaring

/-- The carrier of another class that declares a method is climbed to. -/
theorem Reachable.exec_declaringCarrier (hother : declaring ≠ carrier.owner) :
    exec (ReceiverCallSite.declaringCarrier host (.ofCarrier carrier) declaring) scene.world =
      exec (supertypeCarrier host scene.world.loader.functions carrier declaring) scene.world := by
  have howner := h.sound.owner carrier hcarrier
  have hid : (declaring == (Instance.ofCarrier carrier).owner) = false := by
    rw [← Bool.not_eq_true, h.sound.owner_ofCarrier hcarrier, Class.beq_iff]
    exact fun hid => hother
      (h.sound.class_unique _ (h.sound.lineage _ howner _ hdeclaring) _ howner hid)
  simp only [ReceiverCallSite.declaringCarrier, Instance.carrier?_ofCarrier, hid,
    Bool.false_eq_true, if_false]
  exact exec_bind_ok rfl

/-- The carrier of another class that declares a method is class-level. -/
theorem Reachable.methodParameters_above (hother : declaring ≠ carrier.owner) {above : Carrier}
    (habove : scene.result (ReceiverCallSite.declaringCarrier host (.ofCarrier carrier) declaring) =
      .ok (some above)) : above.methodParameters = none := by
  rw [result, h.exec_declaringCarrier hcarrier hdeclaring hother] at habove
  have hlevel : carrier.isClassLevel := by
    by_contra hmethod
    simp only [supertypeCarrier, if_neg hmethod] at habove
    cases habove
  obtain ⟨way, hway⟩ := Class.climbs_of_mem hdeclaring
  have hclimb := settled_supertypeCarrier host h.sound scene.world.loader.functions hcarrier
    declaring
  obtain ⟨_, hmade⟩ := (hclimb.grows.sound h.sound).madeFor (hclimb.holds habove above rfl)
  have hscope := hmade.scope
  rw [h.recalling.location_of_supertypeCarrier _ hcarrier hlevel hway habove] at hscope
  exact congrArg Scope.methodParameters hscope

/-- A call on a receiver that was made for a carrier reads what a call site of the declaring class
reads under that carrier. -/
theorem Reachable.reads_agree {constant : String}
    (hnames : ∀ expected, declaring.carrierClass? constant = some expected →
      carrier.owner.NamesOnce expected) {above : Option Carrier}
    (habove : scene.result (ReceiverCallSite.declaringCarrier host (.ofCarrier carrier) declaring) =
      .ok above) {found : Value × Option Carrier} {found' : Value × Carrier} :
    let functions := scene.world.loader.functions
    let passed := scene.after
      (ReceiverCallSite.declaringCarrier host (.ofCarrier carrier) declaring)
    passed.result (readDeclared host functions declaring constant above) = .ok found →
      scene.result (readScoped host functions declaring constant carrier) = .ok found' →
      found.1 = found'.1 ∧
        (declaring.carrierClass? constant = none → found.2 = above ∧ found'.2 = carrier) ∧
        (declaring = carrier.owner ∨ declaring.carrierClass? constant ≠ none →
          found.2 = some found'.2) := by
  intro functions passed hread hread'
  by_cases hown : declaring = carrier.owner
  · have hexec := h.sound.exec_declaringCarrier_own host hcarrier hown scene.world
    simp only [passed, after, hexec] at hread
    rw [result, hexec] at habove
    obtain rfl : some carrier = above := Except.ok.inj habove
    obtain ⟨other, own, hother, hfound, hscoped⟩ | ⟨hnone, _⟩ := readDeclared_eq_ok hread
    · obtain rfl := Option.some.inj hother
      obtain rfl := Except.ok.inj (hread'.symm.trans hscoped)
      refine ⟨rfl, fun hplain => ?_, fun _ => hfound⟩
      have hstays : scene.result (scopedCarrier host declaring constant carrier) = .ok carrier := by
        simp only [scopedCarrier, hplain]
        rfl
      obtain rfl : carrier = own :=
        Except.ok.inj (hstays.symm.trans (readScoped_eq_ok hscoped).1)
      exact ⟨hfound, rfl⟩
    · cases hnone
  · have hexec := h.exec_declaringCarrier hcarrier hdeclaring hown
    simp only [passed, after, hexec] at hread
    rw [result, hexec] at habove
    obtain ⟨hvalue, hplain, hanchored⟩ :=
      h.readDeclared_eq hcarrier hdeclaring hown hnames habove hread hread'
    exact ⟨hvalue, hplain, fun hor => hanchored (hor.resolve_left hown)⟩

end Declaring

end Scene

namespace Target

/-- Only inserting parameters needs a carrier, and it inserts those of the carrier. -/
theorem fit_insert {constant : String} {level : Level} {found : Value × Option Carrier}
    {target : Target} (h : fit constant (.insert level) found = .ok target) :
    ∃ function carrier parameters, expectFunction constant found.1 = .ok function ∧
      found.2 = some carrier ∧ carrier.scope.parameters level = some parameters ∧
        target = { function, leading := [parameters] } := by
  obtain ⟨function, hfunction, hadapt⟩ := bind_eq_ok.mp h
  simp only [adapt] at hadapt
  split at hadapt
  · rename_i parameters hparameters
    obtain ⟨carrier, hcarrier, hlevel⟩ := Option.bind_eq_some_iff.mp hparameters
    cases hadapt
    exact ⟨function, carrier, parameters, hfunction, hcarrier, hlevel, rfl⟩
  · cases hadapt

theorem fit_congr {constant : String} {adaptation : Adaptation}
    (h : ∀ level, adaptation ≠ .insert level) {found found' : Value × Option Carrier}
    (hvalue : found.1 = found'.1) :
    fit constant adaptation found = fit constant adaptation found' := by
  rw [fit, fit, hvalue]
  cases adaptation with
  | none => rfl
  | insert level => exact absurd rfl (h level)
  | dropLeading count => rfl

end Target

namespace Scene

variable {host} {scene : Scene}

/-- A call on a receiver and a call under the carrier of the receiver, with the same adaptation,
give the same once both are linked, if the descriptor of the class that declares the anchor of the
implementation names no two classes of the chain. The exception are class parameters inserted for
an inherited method that is fixed at link time: the call on the receiver inserts those that the
declaring class has as seen from the carrier, and the other call inserts those of the carrier. -/
theorem Reachable.received_eq_returned (h : scene.Reachable host) {carrier : Carrier}
    (hcarrier : scene.Knows carrier) {name : String} {declaring : Class} {method : Method}
    (hmethod : carrier.owner.findMethod? name = some (declaring, method))
    (hnames : ∀ expected, declaring.carrierClass? method.implementation = some expected →
      carrier.owner.NamesOnce expected) (adaptation : Adaptation) (arguments : List Value) :
    let receiver : Instance := .ofCarrier carrier
    let constant := method.implementation
    let onReceiver : ReceiverCallSite := { method := name, adaptation }
    let underCarrier : SpecializedCallSite := { owner := declaring, constant, adaptation }
    let received := ((onReceiver.invoke host receiver arguments).run scene.world).1.1
    let returned := ((underCarrier.invoke host carrier arguments).run scene.world).1.1
    (∃ target, scene.result (onReceiver.resolve host receiver) = .ok target) →
    (∃ target, scene.result (underCarrier.resolve host carrier) = .ok target) →
      ((adaptation = .insert .ofClass → declaring.carrierClass? constant = none →
        declaring = carrier.owner) → received = returned) ∧
      (adaptation = .insert .ofClass → declaring.carrierClass? constant = none →
        ∃ above function parameters own,
          scene.result (ReceiverCallSite.declaringCarrier host receiver declaring) =
            .ok (some above) ∧
          above.classParameters = some parameters ∧ carrier.classParameters = some own ∧
          received = (BoundFunction.invoke host function (parameters :: arguments)).mapError
            .constants ∧
          returned = (BoundFunction.invoke host function (own :: arguments)).mapError
            .constants) := by
  intro receiver constant onReceiver underCarrier received returned
  rintro ⟨target, htarget⟩ ⟨target', htarget'⟩
  have hdeclaring : declaring ∈ carrier.owner.lineage := Class.mem_lineage_of_findMethod? hmethod
  have hreceived : received = target.invoke host arguments := by
    have hfresh : received = _ := InlineCache.result_fresh host (ReceiverGuard.of receiver)
      arguments (onReceiver.resolve host receiver) scene
    rw [hfresh, htarget]
    rfl
  have hreturned : returned = target'.invoke host arguments := by
    have hfresh : returned = _ := InlineCache.result_fresh host carrier arguments
      (underCarrier.resolve host carrier) scene
    rw [hfresh, htarget']
    rfl
  have hmethod' : receiver.owner.findMethod? onReceiver.method = some (declaring, method) := by
    rw [h.sound.owner_ofCarrier hcarrier]
    exact hmethod
  obtain ⟨above, found, habove, hread, hfit⟩ := target_of_receiver hmethod' htarget
  obtain ⟨found', hread', hfit'⟩ := target_of_specialized h.recalling hcarrier htarget'
  obtain ⟨hvalue, hplain, hsame⟩ := h.reads_agree hcarrier hdeclaring hnames habove hread hread'
  constructor
  · intro hinserts
    suffices hfits : Target.fit constant adaptation found =
        Target.fit constant adaptation (found'.1, some found'.2) by
      obtain rfl : target = target' := Except.ok.inj (hfit.symm.trans (hfits.trans hfit'))
      exact hreceived.trans hreturned.symm
    by_cases hscoped : declaring = carrier.owner ∨ declaring.carrierClass? constant ≠ none
    · rw [← hvalue, ← hsame hscoped]
    · obtain ⟨hother, hlink⟩ := not_or.mp hscoped
      have hlink := not_not.mp hlink
      apply Target.fit_congr ?_ hvalue
      rintro (_ | _) rfl
      · exact hother (hinserts rfl hlink)
      · obtain ⟨_, own, parameters, _, hown, hparameters, _⟩ := Target.fit_insert hfit
        rw [← (hplain hlink).1, hown] at habove
        have hnone := h.methodParameters_above hcarrier hdeclaring hother habove
        exact nomatch hparameters.symm.trans hnone
  · rintro rfl hlink
    obtain ⟨function, own, parameters, hfunction, hown, hparameters, rfl⟩ := Target.fit_insert hfit
    obtain ⟨function', own', parameters', hfunction', hown', hparameters', rfl⟩ :=
      Target.fit_insert hfit'
    obtain ⟨habove', hbelow⟩ := hplain hlink
    rw [← hvalue, hfunction] at hfunction'
    obtain rfl := Except.ok.inj hfunction'
    obtain rfl := habove'.symm.trans hown
    obtain rfl : carrier = own' := hbelow.symm.trans (Option.some.inj hown')
    exact ⟨own, function, parameters, parameters', habove, hparameters, hparameters', hreceived,
      hreturned⟩

/-- A class whose method reads its parameters. -/
def pairingBox : ClassSpec where
  descriptor := "Box"
  defaults := ["Object"]
  methods := [{ name := "describe", implementation := "describe" },
    { name := "pair", implementation := "pair" }]
  anchors := [{ name := "T", level := .ofClass }]
  constants := [
    { name := "T", action := "anchor" },
    { name := "describe", action := "function", operands := [.function "type.descriptor"] },
    { name := "pair", action := "function", operands := [.function "species.of", .ref "T"] }]

/-- A class that extends the box of integers, whatever its own parameters are. -/
def crateScene : Scene :=
  afterLoading [pairingBox,
    { descriptor := "Crate"
      superclass := some "Box"
      defaults := ["Object"]
      constants := [
        { name := "box", action := "type", operands := [.type "Box"] },
        { name := "content", action := "type", operands := [.type "Integer"] },
        { name := "extended", action := "species", operands := [.ref "box", .ref "content"] },
        { name := "above", action := "super", operands := [.ref "extended"] }] }]
    (some (.type "String"))

def crateCarrier : Carrier :=
  crateScene.world.store.carriers.head (List.cons_ne_nil _ _)

/-- The inherited method is given the parameters that both ways read it under. -/
theorem received_eq_returned_crate :
    ∃ (host : Host) (declaring : Class) (method : Method),
      crateCarrier.owner.findMethod? "pair" = some (declaring, method) ∧
        declaring ≠ crateCarrier.owner ∧
        let adaptation : Adaptation := .insert .ofClass
        let onReceiver : ReceiverCallSite := { method := "pair", adaptation }
        let underCarrier : SpecializedCallSite :=
          { owner := declaring, constant := method.implementation, adaptation }
        ((onReceiver.invoke host (.ofCarrier crateCarrier) []).run crateScene.world).1.1 =
            .ok (.species "Integer" (.type "Integer")) ∧
          ((underCarrier.invoke host crateCarrier []).run crateScene.world).1.1 =
            .ok (.species "Integer" (.type "Integer")) := by
  let host : Host := fun _ _ => .error "absent"
  let declaring : Class := crateCarrier.owner.superclass?.get rfl
  let method : Method := (declaring.method? "pair").get rfl
  have hmethod : crateCarrier.owner.findMethod? "pair" = some (declaring, method) := rfl
  have hanchored : declaring.carrierClass? method.implementation ≠ none := nofun
  have hreachable : crateScene.Reachable host := afterLoading_reachable _ _
  have hknown : crateScene.Knows crateCarrier := Or.inl (List.head_mem _)
  have hnames : ∀ expected, crateCarrier.owner.NamesOnce expected := by
    intro expected a ha b hb hnamed hnamed'
    have hlineage : crateCarrier.owner.lineage = [crateCarrier.owner, declaring] := rfl
    rw [hlineage, List.mem_pair] at ha hb
    obtain rfl | rfl := ha <;> obtain rfl | rfl := hb
    · rfl
    · exact absurd (hnamed.trans hnamed'.symm) (by decide)
    · exact absurd (hnamed.trans hnamed'.symm) (by decide)
    · rfl
  obtain ⟨hsame, _⟩ := hreachable.received_eq_returned hknown hmethod
    (fun expected _ => hnames expected) (.insert .ofClass) [] ⟨_, rfl⟩ ⟨_, rfl⟩
  have hreceived := hsame fun _ hlink => absurd hlink hanchored
  have hother : declaring ≠ crateCarrier.owner := fun hown =>
    absurd (congrArg Class.descriptor hown) (by decide)
  exact ⟨host, declaring, method, hmethod, hother, rfl, hreceived.symm.trans rfl⟩

/-- A box below a class of the same name, which is known to the program but not to the loader. -/
def hiddenScene : Scene :=
  let defined := (start { synthesizeBackingTypes := false } .standard).defineClass pairingBox
  let loaded := defined.loadClass { descriptor := "Box", defaults := ["Object"] }
    defined.classes.head?
  match loaded.classes with
  | hidden :: _ => loaded.after (resolve (.ofClass hidden) (some (.type "String")))
  | [] => loaded

def hiddenCarrier : Carrier :=
  hiddenScene.world.store.carriers.head (List.cons_ne_nil _ _)

theorem hiddenScene_reachable (host : Host) : hiddenScene.Reachable host := by
  let defined := (start { synthesizeBackingTypes := false } .standard).defineClass pairingBox
  have hdefined : defined.Reachable host := ⟨_, _, .single (.define pairingBox)⟩
  have hloaded := hdefined.tail
    (.load { descriptor := "Box", defaults := ["Object"] } fun _ => List.mem_of_head? )
  exact hloaded.tail (.resolve List.mem_cons_self _)

/-- Both exceptions arise. An inherited method that is fixed at link time is given the parameters of
the box by one call, and those of the crate by the other. Where two classes of a chain have one
name, one call reads the parameters of the upper class and the other those of the lower one. -/
theorem received_ne_returned :
    ∃ (host : Host) (box : Class),
      let received (scene : Scene) (carrier : Carrier) (name : String) (adaptation : Adaptation)
          (arguments : List Value) : Except Error Value :=
        ((ReceiverCallSite.invoke host { method := name, adaptation } (.ofCarrier carrier)
          arguments).run scene.world).1.1
      let returned (scene : Scene) (carrier : Carrier) (constant : String)
          (adaptation : Adaptation) (arguments : List Value) : Except Error Value :=
        ((SpecializedCallSite.invoke host { owner := box, constant, adaptation } carrier
          arguments).run scene.world).1.1
      crateScene.Reachable host ∧ crateCarrier ∈ crateScene.world.store.carriers ∧
        (crateCarrier.owner.findMethod? "describe").map
          (fun found => (found.1, found.2.implementation)) = some (box, "describe") ∧
        received crateScene crateCarrier "describe" (.insert .ofClass) [] =
          .ok (.string "Integer") ∧
        returned crateScene crateCarrier "describe" (.insert .ofClass) [] =
          .ok (.string "String") ∧
      hiddenScene.Reachable host ∧ hiddenCarrier ∈ hiddenScene.world.store.carriers ∧
        (hiddenCarrier.owner.findMethod? "pair").map
          (fun found => (found.1, found.2.implementation)) = some (box, "pair") ∧
        received hiddenScene hiddenCarrier "pair" .none [.type "List"] =
          .ok (.species "List" (.type "Object")) ∧
        returned hiddenScene hiddenCarrier "pair" .none [.type "List"] =
          .ok (.species "List" (.type "String")) :=
  ⟨fun _ _ => .error "absent", crateCarrier.owner.superclass?.get rfl,
    afterLoading_reachable _ _, List.head_mem _, rfl, rfl, rfl,
    hiddenScene_reachable _, List.head_mem _, rfl, rfl, rfl⟩

end Scene

end Specialization
