import Specialization.Proofs.World.Ascent

/-!
Mappings of supertypes. A specializable class that maps its superclass is heard from every carrier
below it: the superclass is seen as the carrier that the mapping names. The mapping of a class
without specializations is never read, since nothing is seen of the class under which to read it.
-/

namespace Specialization

variable (host : Host)

theorem climb_some_single (functions : Registry) (carrier : Carrier) (superclass : Class) :
    climb host functions (some carrier) [superclass] =
      directSupertype host functions carrier superclass := by
  simp only [climb, bind_pure]

theorem climb_none_single (functions : Registry) (superclass : Class) :
    climb host functions none [superclass] = resolveDefault superclass := by
  simp only [climb, bind_pure]

/-- A carrier that was found for a direct superclass is remembered. -/
theorem lookup_directSupertype (functions : Registry) {carrier found : Carrier}
    {superclass : Class} {before after : World}
    (h : exec (directSupertype host functions carrier superclass) before =
      (.ok (some found), after)) :
    after.store.supertypes.lookup (carrier.id, superclass.id) = some found := by
  cases hlookup : before.store.supertypes.lookup (carrier.id, superclass.id) with
  | some known =>
      rw [exec_directSupertype_of_some host functions hlookup] at h
      cases h
      exact hlookup
  | none =>
      rw [exec_directSupertype_of_none host functions hlookup] at h
      rcases hrun : exec (findDirectSupertype host functions carrier superclass) before with
        ⟨error | _ | other, next⟩
      · rw [hrun] at h
        cases h
      · rw [hrun] at h
        cases h
      · rw [hrun] at h
        cases h
        exact List.lookup_cons_self

namespace Scene

variable {host} {scene : Scene}

/-- A carrier that is known before it is resolved was found and not made. -/
theorem find?_of_knows (h : scene.Sound) {location : Location} {requested : Option Value}
    {carrier : Carrier} (hcarrier : scene.Knows carrier)
    (hresolve : scene.result (resolve location requested) = .ok carrier) :
    ∃ default, location.defaults = some default ∧
      scene.world.store.find? location (erase requested default) = some carrier := by
  obtain ⟨parameters, herased, hcases⟩ := exec_resolve_eq_ok (Prod.ext hresolve rfl)
  obtain ⟨default, hdefault, rfl⟩ := Option.map_eq_some_iff.mp herased
  rcases hcases with ⟨hfound, _⟩ | ⟨_, hmade⟩
  · exact ⟨default, hdefault, hfound⟩
  · have hnew : carrier.id = scene.world.nextCarrier := congrArg (fun made => made.1.id) hmade
    have hold := h.carrier_fresh carrier hcarrier
    omega

/-- What is found by a mapping is what the mapping names, before it is read and afterwards. -/
theorem resolve_of_findDirectSupertype (h : scene.Sound) {functions : Registry}
    {carrier found : Carrier} {superclass : Class} {constant : String}
    (hfound : found ∈ scene.world.store.carriers)
    (hmapping : carrier.owner.analysis.superMapping = some constant)
    (howner : carrier.owner ∈ scene.classes)
    (hfind : scene.result (findDirectSupertype host functions carrier superclass) =
      .ok (some found)) :
    ∃ mapping parameters,
      scene.result (carrier.owner.accessorValue host functions constant carrier) = .ok mapping ∧
        mapping.asSpecies? = some (superclass.descriptor, parameters) ∧
        scene.result (resolve (.ofClass superclass) (some parameters)) = .ok found := by
  rcases findDirectSupertype_eq_ok host hfind with ⟨hnone, _⟩ |
    ⟨constant', mapping, parameters, above, hsome, hread, hspecies, hresolve, heq, _⟩
  · rw [hmapping] at hnone
    cases hnone
  · obtain rfl := Option.some.inj (hmapping.symm.trans hsome)
    obtain rfl := Option.some.inj heq
    refine ⟨mapping, parameters, hread, hspecies, ?_⟩
    have hsettled := settled_accessorValue host howner functions constant carrier
    have hgrows := hsettled.grows
    have hstore := Class.leaves_accessorValue host carrier.owner.apart_store functions constant
      carrier scene.world
    obtain ⟨default, hdefault, hstored⟩ := find?_of_knows (hgrows.sound h)
      (Or.inl (hgrows.world.carriers found hfound)) hresolve
    rw [after, hstore] at hstored
    rw [result, exec_resolve _ _ hdefault, hstored]

/-- One step up from a carrier whose class maps its superclass leads to the carrier that the mapping
names, and the mapping names it from then on. -/
theorem Recalling.directSupertype_mapped (h : scene.Recalling host) (functions : Registry)
    {carrier : Carrier} (hcarrier : scene.Knows carrier) (hlevel : carrier.isClassLevel)
    {above : Class} (hdirect : carrier.owner.superclass? = some above) {constant : String}
    (hmapping : carrier.owner.analysis.superMapping = some constant) {found : Option Carrier}
    (hstep : scene.result (directSupertype host functions carrier above) = .ok found)
    {later : Scene}
    (hlater : (scene.after (directSupertype host functions carrier above)).Grows later) :
    ∃ mapping parameters top,
      later.result (carrier.owner.accessorValue host functions constant carrier) = .ok mapping ∧
        mapping.asSpecies? = some (above.descriptor, parameters) ∧ found = some top ∧
        later.result (resolve (.ofClass above) (some parameters)) = .ok top := by
  have howner := h.sound.owner carrier hcarrier
  have habove := h.sound.superclass howner hdirect
  obtain ⟨hgrows, hnext⟩ :=
    grows_of_effects (acts_directSupertype host h functions hcarrier hlevel hdirect) h
  have hmapped : ¬ ¬ (carrier.owner.analysis.superMapping.isSome ∨ above.isSpecializable) := by
    simp [hmapping]
  have hfind := hstep
  rw [h.result_directSupertype functions hcarrier hdirect] at hfind
  cases found with
  | none =>
      exact absurd (((settled_findDirectSupertype host h.sound functions hcarrier
        habove).holds hfind).2.mp rfl) hmapped
  | some top =>
      have hlookup := lookup_directSupertype host functions (Prod.ext hstep rfl)
      have hrecalls := hnext.recalls (hcarrier.grow hgrows) hdirect hlookup
      have hstored := (settled_directSupertype host h.sound functions hcarrier
        habove).holds hstep top rfl
      obtain ⟨mapping, parameters, hread, hspecies, hresolve⟩ :=
        resolve_of_findDirectSupertype (hlater.sound hnext.sound)
          (hlater.world.carriers top hstored) hmapping
          ((hgrows.trans hlater).classes carrier.owner howner) (hrecalls functions later hlater)
      exact ⟨mapping, parameters, top, hread, hspecies, rfl, hresolve⟩

/-- The mapping of a specializable class above a carrier names the direct superclass, and the
carrier that it names is the one that is seen there. Above a class without specializations, whatever
it maps to, the superclass takes its defaults. -/
theorem supertypeCarrier_mapped (functions : Registry) (h : scene.Reachable host)
    {carrier : Carrier} (hcarrier : carrier ∈ scene.world.store.carriers)
    (hlevel : carrier.isClassLevel) {self above : Class} (hself : self ∈ carrier.owner.lineage)
    (hdirect : self.superclass? = some above) {constant : String}
    (hmapping : self.analysis.superMapping = some constant) {found : Option Carrier}
    (hfound : scene.result (supertypeCarrier host functions carrier above) = .ok found) :
    ∀ later, (scene.after (supertypeCarrier host functions carrier above)).Grows later →
      (self.isSpecializable → ∃ own mapping parameters top,
        later.result (supertypeCarrier host functions carrier self) = .ok (some own) ∧
          later.result (self.accessorValue host functions constant own) = .ok mapping ∧
          mapping.asSpecies? = some (above.descriptor, parameters) ∧ found = some top ∧
          later.result (resolve (.ofClass above) (some parameters)) = .ok top) ∧
      (¬ self.isSpecializable → later.result (resolveDefault above) = .ok found) := by
  intro later hlater
  have hscene := h.recalling
  have hsound := hscene.sound
  have hknown : scene.Knows carrier := Or.inl hcarrier
  obtain ⟨lower, hlower⟩ := Class.climbs_of_mem hself
  have hupper := Class.Climbs.single hdirect
  obtain ⟨_, between, hbetween, hstep, hafter⟩ :=
    hscene.passes functions hknown hlevel hlower hupper hfound
  have hseen := h.isSeen_of_supertypeCarrier functions hcarrier hlevel hlower hbetween
  obtain ⟨hgrows, hpassed⟩ :=
    grows_of_effects (acts_supertypeCarrier host hscene functions hknown self) hscene
  have hloaded := hsound.mem_of_climbs (hsound.owner carrier hknown) hlower
  have habove := hsound.superclass hloaded hdirect
  have hsettled := settled_supertypeCarrier host hsound functions hknown self
  rw [hafter] at hlater
  cases between with
  | none =>
      rw [climb_none_single] at hstep hlater
      have hplain : ¬ self.isSpecializable := hseen.none_iff.mp rfl
      refine ⟨fun hspecializable => absurd hspecializable hplain, fun _ => ?_⟩
      exact (settled_resolveDefault (hgrows.classes above habove)).again hstep hlater
  | some own =>
      rw [climb_some_single] at hstep hlater
      have hspecializable : self.isSpecializable := by
        by_contra hplain
        cases hseen.none_iff.mpr hplain
      refine ⟨fun _ => ?_, fun hplain => absurd hspecializable hplain⟩
      obtain ⟨hownLevel, rfl⟩ := Carrier.at_class (hseen.location own rfl)
      have hown := hsettled.holds hbetween own rfl
      have hupward := (settled_directSupertype host hpassed.sound functions hown
        (hgrows.classes above habove)).grows
      obtain ⟨mapping, parameters, top, hread, hspecies, rfl, hresolve⟩ :=
        hpassed.directSupertype_mapped functions hown hownLevel hdirect hmapping hstep hlater
      exact ⟨own, mapping, parameters, top, hsettled.again hbetween (hupward.trans hlater), hread,
        hspecies, rfl, hresolve⟩

/-- The lowest class of a chain maps the next one to the parameters that it has itself. -/
theorem supertypeCarrier_mapped_chain :
    ∃ (host : Host) (above : Class) (top : Carrier),
      let self := chainCarrier.owner
      let climb := supertypeCarrier host .standard chainCarrier above
      let later := chainScene.after climb
      self.superclass? = some above ∧ chainScene.result climb = .ok (some top) ∧
        later.result (self.accessorValue host .standard "above" chainCarrier) =
          .ok (.species above.descriptor (.type "String")) ∧
        later.result (resolve (.ofClass above) (some (.type "String"))) = .ok top := by
  let host : Host := fun _ _ => .error "absent"
  let self : Class := chainCarrier.owner
  let above : Class := self.superclass?.get rfl
  let later := chainScene.after (supertypeCarrier host .standard chainCarrier above)
  have hstored : chainCarrier ∈ chainScene.world.store.carriers := List.head_mem _
  have hdirect : self.superclass? = some above := rfl
  have hmapping : self.analysis.superMapping = some "above" := rfl
  obtain ⟨found, hfound⟩ : ∃ found,
      chainScene.result (supertypeCarrier host .standard chainCarrier above) = .ok found :=
    ⟨_, rfl⟩
  have hreachable : chainScene.Reachable host := afterLoading_reachable _ _
  obtain ⟨hspecialized, _⟩ := supertypeCarrier_mapped .standard hreachable hstored rfl
    self.mem_lineage_self hdirect hmapping hfound later (Grows.refl later)
  obtain ⟨own, mapping, parameters, top, hown, hread, hspecies, rfl, hresolve⟩ := hspecialized rfl
  obtain rfl : chainCarrier = own := Option.some.inj (Except.ok.inj hown)
  obtain rfl : .species above.descriptor (.type "String") = mapping := Except.ok.inj hread
  obtain rfl : .type "String" = parameters := congrArg Prod.snd (Option.some.inj hspecies)
  exact ⟨host, above, top, hdirect, hfound, hread, hresolve⟩

/-- The second class has no specializations, and maps the first one to texts. -/
def unspecializedScene : Scene :=
  afterLoading [
    { descriptor := "Base", defaults := ["Object"] },
    { descriptor := "Middle"
      superclass := some "Base"
      constants := [
        { name := "base", action := "type", operands := [.type "Base"] },
        { name := "element", action := "type", operands := [.type "String"] },
        { name := "applied", action := "species", operands := [.ref "base", .ref "element"] },
        { name := "above", action := "super", operands := [.ref "applied"] }] },
    { descriptor := "Leaf", superclass := some "Middle", defaults := ["Object"] }]
    none

def unspecializedCarrier : Carrier :=
  unspecializedScene.world.store.carriers.head (List.cons_ne_nil _ _)

/-- The mapping evaluates to the first class for texts, and yet the carrier that is seen there is
not the one for texts. -/
theorem supertypeCarrier_unmapped :
    ∃ (host : Host) (self above : Class) (found named : Carrier),
      let climb := supertypeCarrier host .standard unspecializedCarrier above
      unspecializedScene.Reachable host ∧
        unspecializedCarrier ∈ unspecializedScene.world.store.carriers ∧
        unspecializedCarrier.isClassLevel ∧ self ∈ unspecializedCarrier.owner.lineage ∧
        self.superclass? = some above ∧ self.analysis.superMapping = some "above" ∧
        ¬ self.isSpecializable ∧
        unspecializedScene.result (self.evaluate host .standard "above" .unbound) =
          .ok (.species above.descriptor (.type "String")) ∧
        unspecializedScene.result climb = .ok (some found) ∧
        (unspecializedScene.after climb).result
          (resolve (.ofClass above) (some (.type "String"))) = .ok named ∧
        found ≠ named := by
  let host : Host := fun _ _ => .error "absent"
  let self : Class := unspecializedCarrier.owner.superclass?.get rfl
  let above : Class := self.superclass?.get rfl
  have hreachable : unspecializedScene.Reachable host := afterLoading_reachable _ _
  refine ⟨host, self, above, _, _, hreachable, List.head_mem _, rfl, .tail _ (.head _), rfl, rfl,
    Bool.false_ne_true, rfl, rfl, rfl, ?_⟩
  intro hsame
  cases congrArg Carrier.id hsame

end Scene

end Specialization
