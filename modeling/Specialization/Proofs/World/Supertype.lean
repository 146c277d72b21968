import Specialization.Proofs.World.Resolution

/-!
Climbing to supertypes settles. The carrier of a direct supertype is remembered, and where there is
none to remember none can appear later: that depends on the two classes alone.
-/

namespace Specialization

variable (host : Host)

theorem leaves_findDirectSupertype (functions : Registry) (carrier : Carrier)
    (superclass : Class) :
    Leaves (fun world => world.store.supertypes)
      (findDirectSupertype host functions carrier superclass) := by
  unfold findDirectSupertype
  dsimp only
  split
  · exact (leaves_resolveDefault superclass).narrow Prod.fst
  · rename_i constant _
    have hstore := Class.leaves_accessorValue host carrier.owner.apart_store functions constant
      carrier
    apply (hstore.narrow Store.supertypes).bind
    intro mapping
    split
    · exact Leaves.throw _
    · split
      · apply ((leaves_resolve _ _).narrow Prod.fst).bind
        intro found
        exact Leaves.pure (some found)
      · exact Leaves.throw _

namespace Scene

variable {base : Scene}

/-- There is no carrier for a direct supertype only if nothing maps to it and it has no defaults. -/
theorem settled_findDirectSupertype (hbase : base.Sound) (functions : Registry) {carrier : Carrier}
    (hcarrier : base.Knows carrier) {superclass : Class} (hsuperclass : superclass ∈ base.classes) :
    base.Settled (findDirectSupertype host functions carrier superclass) fun scene found =>
      (∀ above, found = some above → above ∈ scene.world.store.carriers) ∧
        (found = none ↔
          ¬ (carrier.owner.analysis.superMapping.isSome ∨ superclass.isSpecializable)) := by
  unfold findDirectSupertype
  dsimp only
  split
  · rename_i hmapping
    apply (settled_resolveDefault hsuperclass).mono
    rintro scene found _ ⟨hstore, hnone⟩
    exact ⟨hstore, by simp [hnone, hmapping]⟩
  · rename_i constant hmapping
    have howner := hbase.owner carrier hcarrier
    apply (settled_accessorValue host howner functions constant carrier).bind
    intro scene mapping hscene _
    split
    · exact Settled.fail _
    · split
      · apply (settled_resolve (.ofClass superclass) (hscene.classes superclass hsuperclass) _).bind
        intro later above hlater habove
        apply Settled.pure
        intro last hlast
        refine ⟨?_, by simp [hmapping]⟩
        rintro other ⟨⟩
        exact hlast.world.carriers above habove
      · exact Settled.fail _

end Scene

theorem exec_directSupertype_of_some (functions : Registry) {carrier : Carrier}
    {superclass : Class} {world : World} {found : Carrier}
    (h : world.store.supertypes.lookup (carrier.id, superclass.id) = some found) :
    exec (directSupertype host functions carrier superclass) world =
      (.ok (some found), world) := by
  simp only [directSupertype, exec_bind, exec_get, h]
  rfl

theorem exec_directSupertype_of_none (functions : Registry) {carrier : Carrier}
    {superclass : Class} {world : World}
    (h : world.store.supertypes.lookup (carrier.id, superclass.id) = none) :
    exec (directSupertype host functions carrier superclass) world =
      match exec (findDirectSupertype host functions carrier superclass) world with
      | (.ok (some found), next) => (.ok (some found), { next with store := { next.store with
          supertypes := ((carrier.id, superclass.id), found) :: next.store.supertypes } })
      | (.ok none, next) => (.ok none, next)
      | (.error error, next) => (.error error, next) := by
  rw [directSupertype, exec_bind_ok (exec_get world)]
  simp only [h]
  rcases hrun : exec (findDirectSupertype host functions carrier superclass) world with
    ⟨error | found, next⟩
  · exact exec_bind_error hrun
  · rw [exec_bind_ok hrun]
    cases found with
    | none => rfl
    | some found => rfl

namespace Scene

variable {base : Scene}

/-- Where there is nothing to remember, nothing is: the entry would be one for the same classes. -/
theorem Sound.lookup_supertypes (h : base.Sound) {carrier : Carrier}
    (hcarrier : base.Knows carrier) {superclass : Class} (hsuperclass : superclass ∈ base.classes)
    (hnothing : ¬ (carrier.owner.analysis.superMapping.isSome ∨ superclass.isSpecializable)) :
    base.world.store.supertypes.lookup (carrier.id, superclass.id) = none := by
  rw [Option.eq_none_iff_forall_ne_some]
  intro found hfound
  obtain ⟨_, other, above, hother, habove, hkey, hmapped⟩ :=
    h.supertypes _ (mem_of_lookup hfound)
  obtain ⟨hcarriers, hclasses⟩ := Prod.mk.inj hkey
  obtain rfl := h.carrier_unique carrier other hcarrier hother hcarriers
  obtain rfl := h.class_unique superclass hsuperclass above habove hclasses
  exact hnothing hmapped

/-- Where nothing can be remembered there is no carrier either. -/
theorem exec_directSupertype_of_nothing (hbase : base.Sound) (functions : Registry)
    {carrier : Carrier} (hcarrier : base.Knows carrier) {superclass : Class}
    (hsuperclass : superclass ∈ base.classes)
    (hnothing : ¬ (carrier.owner.analysis.superMapping.isSome ∨ superclass.isSpecializable)) :
    exec (directSupertype host functions carrier superclass) base.world =
      (.ok none, base.world) := by
  have hlookup := hbase.lookup_supertypes hcarrier hsuperclass hnothing
  obtain ⟨hmapping, hplain⟩ := not_or.mp hnothing
  have hfind : findDirectSupertype host functions carrier superclass = pure none := by
    simp only [findDirectSupertype, resolveDefault, Option.not_isSome_iff_eq_none.mp hmapping,
      if_neg hplain]
  rw [exec_directSupertype_of_none host functions hlookup, hfind, exec_pure]

/-- Where something can be remembered, all that is found is. -/
theorem settled_directSupertype_of_mapped (hbase : base.Sound) (functions : Registry)
    {carrier : Carrier} (hcarrier : base.Knows carrier) {superclass : Class}
    (hsuperclass : superclass ∈ base.classes)
    (hmapped : carrier.owner.analysis.superMapping.isSome ∨ superclass.isSpecializable) :
    base.Settled (directSupertype host functions carrier superclass) fun scene found =>
      ∀ above, found = some above → above ∈ scene.world.store.carriers := by
  let key := (carrier.id, superclass.id)
  apply Settled.kept fun world => (world.store.supertypes.lookup key).map some
  · intro scene later found hgrows hknown
    obtain ⟨above, habove, rfl⟩ := Option.map_eq_some_iff.mp hknown
    rw [hgrows.world.supertypes key above habove]
    rfl
  · intro scene found hknown
    obtain ⟨above, habove, rfl⟩ := Option.map_eq_some_iff.mp hknown
    rw [result, after, exec_directSupertype_of_some host functions habove]
    exact ⟨rfl, Grows.refl scene⟩
  · intro scene hscene hknown
    have hnone : scene.world.store.supertypes.lookup key = none := Option.map_eq_none_iff.mp hknown
    have hexec := exec_directSupertype_of_none host functions hnone
    obtain ⟨hgrows, hholds⟩ := (settled_findDirectSupertype host hbase functions hcarrier
      hsuperclass).safe scene hscene
    have hleaves := leaves_findDirectSupertype host functions carrier superclass scene.world
    rw [after] at hgrows hholds
    rw [result] at hholds
    rcases hrun : exec (findDirectSupertype host functions carrier superclass) scene.world with
      ⟨error | _ | found, next⟩
    · rw [hrun] at hexec hgrows
      rw [result, after, hexec]
      refine ⟨hgrows, ?_⟩
      rintro a ⟨⟩
    · rw [hrun] at hholds
      exact absurd hmapped ((hholds none rfl).2.mp rfl)
    · rw [hrun] at hexec hgrows hholds hleaves
      let middle : Scene := { scene with world := next }
      have hremembered : middle.Remembers (key, found) :=
        ⟨(hholds (some found) rfl).1 found rfl, carrier, superclass,
          hcarrier.grow (hscene.trans hgrows),
          (hscene.trans hgrows).classes superclass hsuperclass, rfl, hmapped⟩
      have hunchanged : middle.world.store.supertypes.lookup key = none :=
        (congrArg (List.lookup key) hleaves).trans hnone
      rw [result, after, hexec]
      refine ⟨hgrows.trans (Grows.remember hunchanged hremembered), ?_⟩
      rintro a ⟨⟩
      exact congrArg (Option.map some) List.lookup_cons_self
  · intro scene found hscene hknown above hfound
    obtain ⟨other, hother, rfl⟩ := Option.map_eq_some_iff.mp hknown
    cases hfound
    exact ((hscene.sound hbase).supertypes _ (mem_of_lookup hother)).1

theorem settled_directSupertype (hbase : base.Sound) (functions : Registry) {carrier : Carrier}
    (hcarrier : base.Knows carrier) {superclass : Class} (hsuperclass : superclass ∈ base.classes) :
    base.Settled (directSupertype host functions carrier superclass) fun scene found =>
      ∀ above, found = some above → above ∈ scene.world.store.carriers := by
  by_cases hmapped : carrier.owner.analysis.superMapping.isSome ∨ superclass.isSpecializable
  · exact settled_directSupertype_of_mapped host hbase functions hcarrier hsuperclass hmapped
  · apply Settled.of_forall
    intro scene hscene
    have hnothing : ∀ later : Scene, base.Grows later →
        exec (directSupertype host functions carrier superclass) later.world =
          (.ok none, later.world) := by
      intro later hlater
      exact exec_directSupertype_of_nothing host (hlater.sound hbase) functions
        (hcarrier.grow hlater) (hlater.classes superclass hsuperclass) hmapped
    rw [result, after, hnothing scene hscene]
    refine ⟨Grows.refl scene, ?_⟩
    rintro a ⟨⟩
    constructor
    · rintro above ⟨⟩
    · intro later hlater
      rw [result, hnothing later (hscene.trans hlater)]

/-- Each step of a climb starts from a carrier that the steps before it found. -/
theorem settled_climb (hbase : base.Sound) (functions : Registry) (current : Option Carrier)
    (hcurrent : ∀ carrier, current = some carrier → base.Knows carrier) (above : List Class)
    (habove : ∀ superclass ∈ above, superclass ∈ base.classes) :
    base.Settled (climb host functions current above) fun scene found =>
      ∀ carrier, found = some carrier → scene.Knows carrier := by
  induction above generalizing base current with
  | nil =>
      have hstop : climb host functions current [] = pure current := by
        cases current with
        | none => rfl
        | some carrier => rfl
      rw [hstop]
      apply Settled.pure
      intro scene hscene carrier hfound
      exact (hcurrent carrier hfound).grow hscene
  | cons superclass rest ih =>
      have hsuperclass := habove superclass List.mem_cons_self
      have hrest : ∀ (scene : Scene) (found : Option Carrier), base.Grows scene →
          (∀ carrier, found = some carrier → carrier ∈ scene.world.store.carriers) →
          scene.Settled (climb host functions found rest) fun scene found =>
            ∀ carrier, found = some carrier → scene.Knows carrier := by
        intro scene found hscene hfound
        apply ih (hscene.sound hbase) found (fun carrier heq => Or.inl (hfound carrier heq))
        intro other hother
        exact hscene.classes other (habove other (List.mem_cons_of_mem superclass hother))
      cases current with
      | none =>
          apply (settled_resolveDefault hsuperclass).bind
          intro scene found hscene hfound
          exact hrest scene found hscene hfound.1
      | some carrier =>
          have hcarrier := hcurrent carrier rfl
          apply (settled_directSupertype host hbase functions hcarrier hsuperclass).bind
          exact hrest

theorem settled_supertypeCarrier (hbase : base.Sound) (functions : Registry) {carrier : Carrier}
    (hcarrier : base.Knows carrier) (ancestor : Class) :
    base.Settled (supertypeCarrier host functions carrier ancestor) fun scene found =>
      ∀ above, found = some above → scene.Knows above := by
  unfold supertypeCarrier
  dsimp only
  split
  · split
    · exact Settled.fail _
    · rename_i distance hdistance
      apply Settled.read (fun world => world.store.config.maxSupertypeDepth) (fun limit =>
        if limit < distance then throw (.supertypeDepthExceeded carrier.owner.descriptor limit)
        else climb host functions (some carrier) ((carrier.owner.lineage.drop 1).take distance))
      · intro world
        rw [exec_bind_ok (exec_get world)]
        split
        · rfl
        · rfl
      · intro scene hscene
        rw [hscene.world.config]
      · split
        · exact Settled.fail _
        · apply settled_climb host hbase functions
          · rintro other ⟨⟩
            exact hcarrier
          · intro superclass hmem
            apply hbase.lineage carrier.owner (hbase.owner carrier hcarrier)
            exact List.mem_of_mem_drop (List.mem_of_mem_take hmem)
  · exact Settled.fail _

end Scene

/-- The carrier of a class above the owner of a carrier, as that carrier sees it. -/
def carrierAbove (carrier : Carrier) (mismatch : Error) (ancestor : Class) :
    Operation Carrier := do
  if carrier.isClassLevel && (carrier.owner.distanceTo? ancestor).isSome then
    match ← supertypeCarrier host (← Operation.functions) carrier ancestor with
    | some own => return own
    | none => throw mismatch
  else throw mismatch

namespace Scene

variable {base : Scene}

theorem settled_carrierAbove (hbase : base.Sound) {carrier : Carrier}
    (hcarrier : base.Knows carrier) (mismatch : Error) (ancestor : Class) :
    base.Settled (carrierAbove host carrier mismatch ancestor) fun scene found =>
      scene.Knows found := by
  unfold carrierAbove
  split
  · apply settled_functions.bind
    intro scene functions hscene _
    apply (settled_supertypeCarrier host (hscene.sound hbase) functions (hcarrier.grow hscene)
      ancestor).bind
    intro later found _ hfound
    split
    · rename_i own
      exact Settled.pure fun last hlast => (hfound own rfl).grow hlast
    · exact Settled.fail _
  · exact Settled.fail _

/-- The carrier under which a constant is read settles, since a class that is known under a
descriptor stays known under it. -/
theorem settled_scopedCarrier (hbase : base.Sound) (self : Class) (constant : String)
    {carrier : Carrier} (hcarrier : base.Knows carrier) :
    base.Settled (scopedCarrier host self constant carrier) fun scene found =>
      scene.Knows found := by
  have hown : ∀ scene, base.Grows scene → scene.Knows carrier :=
    fun scene hscene => hcarrier.grow hscene
  unfold scopedCarrier
  split
  · exact Settled.pure hown
  · rename_i expected hexpected
    dsimp only
    split
    · exact Settled.pure hown
    · let mismatch := Error.carrierMismatch constant expected carrier.owner.descriptor
      apply Settled.lookup (fun world => world.loader.classes.lookup expected)
        (carrierAbove host carrier mismatch)
      · intro world hnone
        rw [exec_bind_ok (exec_get world)]
        simp only [hnone]
        rfl
      · intro world ancestor hfound
        rw [exec_bind_ok (exec_get world)]
        simp only [hfound]
        rfl
      · intro scene later ancestor _ hgrows hfound
        exact hgrows.world.classes expected ancestor hfound
      · intro scene ancestor hscene _
        exact settled_carrierAbove host (hscene.sound hbase) (hown scene hscene) mismatch ancestor

end Scene

end Specialization
