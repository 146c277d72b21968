import Specialization.Proofs.World.Lineage
import Specialization.Proofs.World.Supertype

/-!
What is remembered of supertypes. The carrier of a direct superclass that was found once is found
anew at every later time, whichever functions can be named then, since the mapping was kept when it
was read. So an entry that is remembered never goes stale, and asking it gives what finding the
carrier anew gives.
-/

namespace Specialization

namespace World

/-- The same world with other supertypes remembered, and another count of carriers found. -/
def withMemo (world : World) (supertypes : List ((Nat × Nat) × Carrier)) (hits : Nat) : World :=
  { world with store := { world.store with supertypes, hits } }

/-- The world after a carrier was found in the store. -/
def hit (world : World) : World :=
  world.withMemo world.store.supertypes (world.store.hits + 1)

end World

variable (host : Host)

/-- A value that was read under a carrier is kept under the number of the carrier. -/
theorem Class.lookup_of_keptValue {functions : Registry} {self : Class} {constant : String}
    {carrier : Carrier} {before after : World} {value : Value}
    (h : exec (self.keptValue host functions constant carrier) before = (.ok value, after)) :
    (after.valuesOf self).accessors.lookup (carrier.id, constant) = some value := by
  cases hfound : (before.valuesOf self).accessors.lookup (carrier.id, constant) with
  | some known =>
      rw [exec_keptValue_of_some host functions hfound] at h
      cases h
      exact hfound
  | none =>
      rw [exec_keptValue_of_none host functions hfound] at h
      rcases hread : exec (self.evaluate host functions constant carrier.scope) before with
        ⟨error | found, next⟩
      · rw [exec_bind_error hread] at h
        cases h
      · rw [exec_bind_ok hread] at h
        cases h
        rw [World.valuesOf_setValues, if_pos rfl]
        exact List.lookup_cons_self

namespace Scene

variable {scene later : Scene}

/-- A value that was read under a carrier is read again, whichever functions can be named. -/
theorem result_accessorValue_again {functions : Registry} {self : Class} {constant : String}
    {carrier : Carrier} {value : Value}
    (h : scene.result (self.accessorValue host functions constant carrier) = .ok value)
    (functions' : Registry)
    (hlater : (scene.after (self.accessorValue host functions constant carrier)).Grows later) :
    exec (self.accessorValue host functions' constant carrier) later.world =
      (.ok value, later.world) := by
  obtain ⟨checked, hcheck⟩ := Class.exec_checkCarrier self constant carrier
  rw [result, Class.accessorValue_eq] at h
  rw [after, Class.accessorValue_eq] at hlater
  rw [Class.accessorValue_eq]
  cases checked with
  | error error =>
      rw [exec_bind_error (hcheck scene.world)] at h
      cases h
  | ok checked =>
      rw [exec_bind_ok (hcheck scene.world)] at h hlater
      rw [exec_bind_ok (hcheck later.world)]
      have hkept := Class.lookup_of_keptValue host (Prod.ext h rfl)
      exact Class.exec_keptValue_of_some host functions' (hlater.world.accessors self _ _ hkept)

/-- All that finding the carrier of a direct superclass can do when it succeeds: it takes the
defaults of the superclass, or what the class maps it to. -/
theorem findDirectSupertype_eq_ok {functions : Registry} {carrier : Carrier} {superclass : Class}
    {found : Option Carrier}
    (h : scene.result (findDirectSupertype host functions carrier superclass) = .ok found) :
    (carrier.owner.analysis.superMapping = none ∧
      scene.result (resolveDefault superclass) = .ok found ∧
      scene.after (findDirectSupertype host functions carrier superclass) =
        scene.after (resolveDefault superclass)) ∨
    ∃ constant mapping parameters above,
      carrier.owner.analysis.superMapping = some constant ∧
      scene.result (carrier.owner.accessorValue host functions constant carrier) = .ok mapping ∧
      mapping.asSpecies? = some (superclass.descriptor, parameters) ∧
      let read := scene.after (carrier.owner.accessorValue host functions constant carrier)
      read.result (resolve (.ofClass superclass) (some parameters)) = .ok above ∧
        found = some above ∧
        scene.after (findDirectSupertype host functions carrier superclass) =
          read.after (resolve (.ofClass superclass) (some parameters)) := by
  unfold findDirectSupertype at h ⊢
  dsimp only at h ⊢
  split at h
  · rename_i hmapping
    exact Or.inl ⟨hmapping, h, rfl⟩
  · rename_i constant hmapping
    cases hread : scene.result (carrier.owner.accessorValue host functions constant carrier) with
    | error error =>
        rw [result_bind_error hread] at h
        cases h
    | ok mapping =>
        rw [result_bind_ok hread] at h
        rw [after_bind_ok hread]
        split at h
        · cases h
        · rename_i raw parameters hspecies
          split at h
          · rename_i hraw
            subst hraw
            rw [if_pos rfl]
            let read := scene.after (carrier.owner.accessorValue host functions constant carrier)
            cases hresolve : read.result (resolve (.ofClass superclass) (some parameters)) with
            | error error =>
                rw [result_bind_error hresolve] at h
                cases h
            | ok above =>
                rw [result_bind_ok hresolve] at h
                cases h
                refine Or.inr ⟨constant, mapping, parameters, above, hmapping, hread, hspecies,
                  hresolve, rfl, ?_⟩
                rw [after_bind_ok hresolve]
                rfl
          · cases h

/-- The defaults of a class are what a carrier is resolved for without a request. -/
theorem resolveDefault_eq_some {self : Class} {carrier : Carrier}
    (h : scene.result (resolveDefault self) = .ok (some carrier)) :
    self.isSpecializable ∧ scene.result (resolve (.ofClass self) none) = .ok carrier ∧
      scene.after (resolveDefault self) = scene.after (resolve (.ofClass self) none) := by
  unfold resolveDefault at h ⊢
  by_cases hspecializable : self.isSpecializable
  · rw [if_pos hspecializable] at h ⊢
    cases hresolve : scene.result (resolve (.ofClass self) none) with
    | error error =>
        rw [result_bind_error hresolve] at h
        cases h
    | ok found =>
        rw [result_bind_ok hresolve] at h
        cases h
        exact ⟨hspecializable, rfl, after_bind_ok hresolve⟩
  · rw [if_neg hspecializable] at h
    cases h

/-- A carrier that was resolved is found in the store from then on. -/
theorem exec_resolve_again {location : Location} {requested : Option Value} {carrier : Carrier}
    (h : scene.result (resolve location requested) = .ok carrier)
    (hlater : (scene.after (resolve location requested)).Grows later) :
    exec (resolve location requested) later.world = (.ok carrier, later.world.hit) := by
  obtain ⟨parameters, herased, hcases⟩ := exec_resolve_eq_ok (Prod.ext h rfl)
  obtain ⟨default, hdefault, rfl⟩ := Option.map_eq_some_iff.mp herased
  have hfound : (scene.after (resolve location requested)).world.store.find? location
      (erase requested default) = some carrier := by
    rcases hcases with ⟨hfound, hafter⟩ | ⟨_, hmade⟩
    · have hstore := congrArg (fun world => world.store.find? location (erase requested default))
        hafter
      exact hstore.trans hfound
    · have hcarrier := congrArg (fun made => some made.1) hmade
      have hstore := congrArg (fun made => made.2.store.find? location (erase requested default))
        hmade
      exact hstore.trans ((find?_addCarrier _ location _).trans hcarrier.symm)
  rw [exec_resolve location requested hdefault, hlater.world.found _ _ _ hfound]
  rfl

/-- From a scene on, finding the carrier of a direct superclass gives a carrier that is in the
store. -/
def Redoes (scene : Scene) (carrier : Carrier) (superclass : Class) (found : Carrier) : Prop :=
  ∀ functions later, scene.Grows later →
    exec (findDirectSupertype host functions carrier superclass) later.world =
      (.ok (some found), later.world.hit)

theorem Redoes.grow {carrier found : Carrier} {superclass : Class}
    (h : scene.Redoes host carrier superclass found) (hgrows : scene.Grows later) :
    later.Redoes host carrier superclass found :=
  fun functions last hlast => h functions last (hgrows.trans hlast)

/-- What was found once is found from then on, without reading or making anything: the mapping was
kept when it was read, and the carrier when it was resolved. -/
theorem redoes_of_found (hsound : scene.Sound) {functions : Registry} {carrier found : Carrier}
    (hcarrier : scene.Knows carrier) {superclass : Class} (hsuperclass : superclass ∈ scene.classes)
    (h : scene.result (findDirectSupertype host functions carrier superclass) = .ok (some found)) :
    (scene.after (findDirectSupertype host functions carrier superclass)).Redoes host carrier
      superclass found := by
  intro functions' later hlater
  rcases findDirectSupertype_eq_ok host h with ⟨hmapping, hdefault, hafter⟩ |
    ⟨constant, mapping, parameters, above, hmapping, hread, hspecies, hresolve, heq, hafter⟩
  · obtain ⟨hspecializable, hresolve, hsame⟩ := resolveDefault_eq_some hdefault
    rw [hafter, hsame] at hlater
    simp only [findDirectSupertype, hmapping, resolveDefault, hspecializable, if_true]
    exact exec_bind_ok (exec_resolve_again hresolve hlater)
  · obtain rfl := Option.some.inj heq
    rw [hafter] at hlater
    let read := scene.after (carrier.owner.accessorValue host functions constant carrier)
    have howner := hsound.owner carrier hcarrier
    have hgrows : scene.Grows read :=
      (settled_accessorValue host howner functions constant carrier).grows
    have hsettled := settled_resolve (.ofClass superclass) (hgrows.classes superclass hsuperclass)
      (some parameters)
    have hagain : exec (carrier.owner.accessorValue host functions' constant carrier) later.world =
        (.ok mapping, later.world) :=
      result_accessorValue_again host hread functions' (hsettled.grows.trans hlater)
    simp only [findDirectSupertype, hmapping]
    rw [exec_bind_ok hagain]
    simp only [hspecies, if_true]
    exact exec_bind_ok (exec_resolve_again hresolve hlater)

/-- From a scene on, a carrier is what finding that of a direct superclass anew gives. -/
def Recalls (scene : Scene) (carrier : Carrier) (superclass : Class) (found : Carrier) : Prop :=
  ∀ functions later, scene.Grows later →
    later.result (findDirectSupertype host functions carrier superclass) = .ok (some found)

theorem Recalls.grow {carrier found : Carrier} {superclass : Class}
    (h : scene.Recalls host carrier superclass found) (hgrows : scene.Grows later) :
    later.Recalls host carrier superclass found :=
  fun functions last hlast => h functions last (hgrows.trans hlast)

theorem Redoes.recalls {carrier found : Carrier} {superclass : Class}
    (h : scene.Redoes host carrier superclass found) :
    scene.Recalls host carrier superclass found :=
  fun functions later hlater => congrArg Prod.fst (h functions later hlater)

end Scene

/-- What is seen of a class from below: a carrier of it, or none if it has no specializations. -/
structure Class.IsSeen (top : Class) (current : Option Carrier) : Prop where
  none_iff : current = none ↔ ¬ top.isSpecializable
  location : ∀ carrier, current = some carrier → carrier.location = .ofClass top

theorem Carrier.isClassLevel_iff {carrier : Carrier} :
    carrier.isClassLevel ↔ carrier.location = .ofClass carrier.owner := by
  obtain ⟨_, location, _, _, _⟩ := carrier
  cases location with
  | ofClass self => exact ⟨fun _ => rfl, fun _ => rfl⟩
  | method owner classParameters signature => exact ⟨nofun, nofun⟩

theorem Carrier.at_class {carrier : Carrier} {self : Class}
    (h : carrier.location = .ofClass self) : carrier.isClassLevel ∧ carrier.owner = self := by
  rw [isClassLevel, owner, h]
  exact ⟨rfl, rfl⟩

namespace Scene

variable {scene : Scene}

/-- A class-level location is told apart by its class, so its carriers are located at that class. -/
theorem location_of_resolve (hsound : scene.Sound) {self : Class} (hself : self ∈ scene.classes)
    {requested : Option Value} {carrier : Carrier}
    (h : scene.result (resolve (.ofClass self) requested) = .ok carrier) :
    self.isSpecializable ∧ carrier.location = .ofClass self := by
  obtain ⟨parameters, herased, hcases⟩ := exec_resolve_eq_ok (Prod.ext h rfl)
  obtain ⟨default, hdefault, _⟩ := Option.map_eq_some_iff.mp herased
  refine ⟨Option.isSome_of_eq_some hdefault, ?_⟩
  rcases hcases with ⟨hfound, _⟩ | ⟨_, hmade⟩
  · obtain ⟨hmem, hlocation, _⟩ := hsound.key_of_find? hfound
    have howner := hsound.owner carrier (Or.inl hmem)
    rw [Carrier.owner] at howner
    cases hat : carrier.location with
    | ofClass other =>
        rw [hat] at hlocation howner
        rw [hsound.class_unique other howner self hself (Class.beq_iff.mp hlocation)]
    | method owner classParameters signature =>
        rw [hat] at hlocation
        cases hlocation
  · exact congrArg (fun made => made.1.location) hmade

theorem isSeen_of_resolveDefault (hsound : scene.Sound) {self : Class}
    (hself : self ∈ scene.classes) {found : Option Carrier}
    (h : scene.result (resolveDefault self) = .ok found) : self.IsSeen found := by
  have hnone := ((settled_resolveDefault hself).holds h).2
  refine ⟨hnone, ?_⟩
  rintro carrier rfl
  exact (location_of_resolve hsound hself (resolveDefault_eq_some h).2.1).2

theorem isSeen_of_findDirectSupertype (hsound : scene.Sound) {functions : Registry}
    {carrier : Carrier} (hcarrier : scene.Knows carrier) {superclass : Class}
    (hsuperclass : superclass ∈ scene.classes) {found : Option Carrier}
    (h : scene.result (findDirectSupertype host functions carrier superclass) = .ok found) :
    superclass.IsSeen found := by
  rcases findDirectSupertype_eq_ok host h with ⟨_, hdefault, _⟩ |
    ⟨constant, _, parameters, above, _, _, _, hresolve, rfl, _⟩
  · exact isSeen_of_resolveDefault hsound hsuperclass hdefault
  · have howner := hsound.owner carrier hcarrier
    have hgrows := (settled_accessorValue host howner functions constant carrier).grows
    obtain ⟨hspecializable, hlocation⟩ := location_of_resolve (hgrows.sound hsound)
      (hgrows.classes superclass hsuperclass) hresolve
    refine ⟨by simp [hspecializable], ?_⟩
    rintro other ⟨⟩
    exact hlocation

/-- An entry made for a class-level carrier and its direct superclass, which is what finding the
carrier anew gives. -/
def Recalled (scene : Scene) (entry : (Nat × Nat) × Carrier) : Prop :=
  ∃ carrier superclass, scene.Knows carrier ∧ carrier.isClassLevel ∧
    carrier.owner.superclass? = some superclass ∧ entry.1 = (carrier.id, superclass.id) ∧
      scene.Recalls host carrier superclass entry.2

theorem Recalled.grow {entry : (Nat × Nat) × Carrier} (h : scene.Recalled host entry)
    {later : Scene} (hgrows : scene.Grows later) : later.Recalled host entry := by
  obtain ⟨carrier, superclass, hcarrier, hlevel, hdirect, hkey, hrecalls⟩ := h
  exact ⟨carrier, superclass, hcarrier.grow hgrows, hlevel, hdirect, hkey,
    hrecalls.grow host hgrows⟩

/-- A scene in which no entry for a supertype is stale. -/
structure Recalling (scene : Scene) : Prop where
  sound : scene.Sound
  entries : ∀ entry ∈ scene.world.store.supertypes, scene.Recalled host entry

variable {host}

/-- No entry but the one for a carrier and its direct superclass has their numbers. -/
theorem Recalling.recalls (h : scene.Recalling host) {carrier found : Carrier}
    (hcarrier : scene.Knows carrier) {superclass : Class}
    (hdirect : carrier.owner.superclass? = some superclass)
    (hfound : scene.world.store.supertypes.lookup (carrier.id, superclass.id) = some found) :
    scene.Recalls host carrier superclass found := by
  obtain ⟨other, above, hother, _, hdirect', hkey, hrecalls⟩ :=
    h.entries _ (mem_of_lookup hfound)
  obtain rfl := h.sound.carrier_unique carrier other hcarrier hother (Prod.mk.inj hkey).1
  obtain rfl := Option.some.inj (hdirect.symm.trans hdirect')
  exact hrecalls

/-- Asking what is remembered gives what finding the carrier anew gives, errors included. -/
theorem Recalling.result_directSupertype (h : scene.Recalling host) (functions : Registry)
    {carrier : Carrier} (hcarrier : scene.Knows carrier) {superclass : Class}
    (hdirect : carrier.owner.superclass? = some superclass) :
    scene.result (directSupertype host functions carrier superclass) =
      scene.result (findDirectSupertype host functions carrier superclass) := by
  cases hlookup : scene.world.store.supertypes.lookup (carrier.id, superclass.id) with
  | some found =>
      rw [h.recalls hcarrier hdirect hlookup functions scene (Grows.refl scene)]
      rw [result, exec_directSupertype_of_some host functions hlookup]
  | none =>
      rw [result, result, exec_directSupertype_of_none host functions hlookup]
      rcases exec (findDirectSupertype host functions carrier superclass) scene.world with
        ⟨error | _ | found, next⟩
      · rfl
      · rfl
      · rfl

theorem Recalling.isSeen_of_directSupertype (h : scene.Recalling host) {functions : Registry}
    {carrier : Carrier} (hcarrier : scene.Knows carrier) {superclass : Class}
    (hdirect : carrier.owner.superclass? = some superclass) {found : Option Carrier}
    (hfound : scene.result (directSupertype host functions carrier superclass) = .ok found) :
    superclass.IsSeen found := by
  rw [h.result_directSupertype functions hcarrier hdirect] at hfound
  exact isSeen_of_findDirectSupertype host h.sound hcarrier
    (h.sound.superclass (h.sound.owner carrier hcarrier) hdirect) hfound

end Scene

end Specialization
