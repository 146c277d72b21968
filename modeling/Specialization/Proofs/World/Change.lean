import Specialization.Proofs.World.Scene

/-!
The changes that operations make to a world. Each of them makes the scene grow, so a run of
operations does, in whatever order they come.
-/

namespace Specialization

theorem World.valuesOf_setValues (world : World) (self : Class) (values : ClassValues)
    (other : Class) : (world.setValues self values).valuesOf other =
      if other.id = self.id then values else world.valuesOf other := by
  simp only [World.valuesOf, World.setValues, List.lookup_cons]
  split
  · rename_i heq
    rw [if_pos (eq_of_beq heq), Option.getD_some]
  · rename_i hne
    rw [if_neg (ne_of_beq_false hne)]

namespace Store

variable {store : Store} {location : Location} {parameters : Value} {carrier : Carrier}

/-- What is found under a key is the carrier of an entry with an equal key. -/
theorem entry_of_find? (h : store.find? location parameters = some carrier) :
    ∃ entry ∈ store.entries, entry.carrier = carrier ∧ entry.location == location ∧
      entry.parameters == parameters := by
  obtain ⟨entry, hentry, hcarrier⟩ := Option.map_eq_some_iff.mp h
  have hkey := List.find?_some hentry
  rw [Bool.and_eq_true] at hkey
  exact ⟨entry, List.mem_of_find?_eq_some hentry, hcarrier, hkey⟩

theorem mem_of_find? (h : store.find? location parameters = some carrier) :
    carrier ∈ store.carriers := by
  obtain ⟨entry, hentry, rfl, _⟩ := entry_of_find? h
  exact List.mem_map_of_mem hentry

/-- Nothing is found under a key exactly if no entry has it. -/
theorem find?_eq_none : store.find? location parameters = none ↔
    ∀ entry ∈ store.entries, ¬ (entry.location == location ∧ entry.parameters == parameters) := by
  simp [find?]

/-- A new entry does not take the place of one that is found already. -/
theorem find?_cons {entry : Entry} (hnew : store.find? entry.location entry.parameters = none)
    (h : store.find? location parameters = some carrier) :
    find? { store with entries := entry :: store.entries } location parameters =
      some carrier := by
  have hdiffers : (entry.location == location && entry.parameters == parameters) = false := by
    rw [Bool.eq_false_iff]
    intro hmatches
    rw [Bool.and_eq_true] at hmatches
    obtain ⟨other, hother, _, hlocation, hparameters⟩ := entry_of_find? h
    exact find?_eq_none.mp hnew other hother ⟨BEq.trans hlocation (BEq.symm hmatches.1),
      BEq.trans hparameters (BEq.symm hmatches.2)⟩
  rw [find?, List.find?_cons, hdiffers]
  exact h

end Store

namespace Scene

variable {scene : Scene}

/-- A carrier that is found has a location and parameters equal to those it is found under. -/
theorem Sound.key_of_find? (h : scene.Sound) {location : Location} {parameters : Value}
    {carrier : Carrier} (hfound : scene.world.store.find? location parameters = some carrier) :
    carrier ∈ scene.world.store.carriers ∧ carrier.location == location ∧
      ∃ own, carrier.ownParameters = some own ∧ own == parameters := by
  obtain ⟨entry, hentry, rfl, hlocation, hparameters⟩ := Store.entry_of_find? hfound
  have hmade := h.entries entry hentry
  rw [hmade.located]
  exact ⟨List.mem_map_of_mem hentry, hlocation, entry.parameters, hmade.ownParameters, hparameters⟩

/-- Counting changes nothing that can be found. -/
theorem Grows.of_store (store : Store) (hconfig : store.config = scene.world.store.config)
    (hentries : store.entries = scene.world.store.entries)
    (hsupertypes : store.supertypes = scene.world.store.supertypes) :
    scene.Grows { scene with world := { scene.world with store } } := by
  obtain ⟨world, classes, foreign⟩ := scene
  obtain ⟨nextClass, nextCarrier, values, before, loader, ambient⟩ := world
  obtain ⟨config, entries, supertypes, backingNames, hits, misses, lostRaces⟩ := before
  obtain ⟨config', entries', supertypes', backingNames', hits', misses', lostRaces'⟩ := store
  dsimp only at hconfig hentries hsupertypes
  subst hconfig hentries hsupertypes
  exact {
    world := { World.Grows.refl _ with }
    classes := fun _ hself => hself
    foreign := fun _ hcarrier => hcarrier
    sound := fun h => { h with } }

theorem Grows.of_ambient (ambient : Ambient)
    (hambient : ∀ carrier, ambient.carrier = some carrier → scene.Knows carrier) :
    scene.Grows { scene with world := { scene.world with ambient } } where
  world := { World.Grows.refl scene.world with }
  classes _ hself := hself
  foreign _ hcarrier := hcarrier
  sound h := { h with ambient := hambient }

theorem Grows.setValues {self : Class} (hself : self ∈ scene.classes) {values : ClassValues}
    (hlink : Extends (scene.world.valuesOf self).link values.link)
    (haccessors : Extends (scene.world.valuesOf self).accessors values.accessors) :
    scene.Grows { scene with world := scene.world.setValues self values } := by
  have hvalues : ∀ other : Class, (scene.world.setValues self values).valuesOf other =
      if other.id = self.id then values else scene.world.valuesOf other :=
    scene.world.valuesOf_setValues self values
  have hsame : ∀ other : Class, other.id = self.id →
      scene.world.valuesOf other = scene.world.valuesOf self := by
    intro other heq
    rw [World.valuesOf, heq, World.valuesOf]
  have hlinks : ∀ other, Extends (scene.world.valuesOf other).link
      ((scene.world.setValues self values).valuesOf other).link := by
    intro other
    rw [hvalues]
    split
    · rename_i heq
      rw [hsame other heq]
      exact hlink
    · exact Extends.refl _
  have hkept : ∀ other, Extends (scene.world.valuesOf other).accessors
      ((scene.world.setValues self values).valuesOf other).accessors := by
    intro other
    rw [hvalues]
    split
    · rename_i heq
      rw [hsame other heq]
      exact haccessors
    · exact Extends.refl _
  have hnumbers : scene.Sound →
      ∀ entry ∈ (self.id, values) :: scene.world.values, entry.1 < scene.world.nextClass := by
    intro h entry hentry
    rcases List.mem_cons.mp hentry with rfl | hold
    · exact h.class_fresh self hself
    · exact h.values entry hold
  exact {
    world := { World.Grows.refl scene.world with link := hlinks, accessors := hkept }
    classes := fun _ hself => hself
    foreign := fun _ hcarrier => hcarrier
    sound := fun h => { h with values := hnumbers h } }

theorem Grows.remember {entry : (Nat × Nat) × Carrier}
    (hnew : scene.world.store.supertypes.lookup entry.1 = none)
    (hentry : scene.Remembers entry) :
    scene.Grows { scene with world := { scene.world with store := { scene.world.store with
      supertypes := entry :: scene.world.store.supertypes } } } where
  world := { World.Grows.refl scene.world with supertypes := Extends.cons hnew entry.2 }
  classes _ hself := hself
  foreign _ hcarrier := hcarrier
  sound h := { h with
    supertypes := by
      intro other hother
      rcases List.mem_cons.mp hother with rfl | hold
      · exact hentry
      · exact h.supertypes other hold }

/-- A carrier that takes the next number is told apart from all others. -/
theorem Sound.addCarrier (h : scene.Sound) (carrier : Carrier)
    (hid : carrier.id = scene.world.nextCarrier) (howner : carrier.owner ∈ scene.classes)
    (later : Scene) (hworld : later.world.nextCarrier = scene.world.nextCarrier + 1)
    (hclasses : later.classes = scene.classes)
    (hknows : ∀ other, later.Knows other → other = carrier ∨ scene.Knows other) :
    (∀ a b, later.Knows a → later.Knows b → a.id = b.id → a = b) ∧
      (∀ other, later.Knows other → other.id < later.world.nextCarrier) ∧
      ∀ other, later.Knows other → other.owner ∈ later.classes := by
  have hfresh : ∀ other, scene.Knows other → other.id < carrier.id :=
    fun other hother => hid ▸ h.carrier_fresh other hother
  refine ⟨?_, ?_, ?_⟩
  · intro a b ha hb heq
    rcases hknows a ha with rfl | ha'
    · rcases hknows b hb with rfl | hb'
      · rfl
      · have hlt := hfresh b hb'
        omega
    · rcases hknows b hb with rfl | hb'
      · have hlt := hfresh a ha'
        omega
      · exact h.carrier_unique a b ha' hb' heq
  · intro other hother
    rcases hknows other hother with rfl | hold
    · omega
    · have hlt := h.carrier_fresh other hold
      omega
  · intro other hother
    rw [hclasses]
    rcases hknows other hother with rfl | hold
    · exact howner
    · exact h.owner other hold

theorem Grows.addCarrier {location : Location} {parameters : Value}
    (howner : location.owner ∈ scene.classes)
    (hnew : scene.world.store.find? location parameters = none) :
    scene.Grows { scene with world := (scene.world.addCarrier location parameters).2 } := by
  let carrier := (scene.world.addCarrier location parameters).1
  let later : Scene := { scene with world := (scene.world.addCarrier location parameters).2 }
  have hknows : ∀ other, later.Knows other → other = carrier ∨ scene.Knows other := by
    rintro other (hstore | hforeign)
    · exact (List.mem_cons.mp hstore).imp_right Or.inl
    · exact Or.inr (Or.inr hforeign)
  have hstore : ∀ other ∈ scene.world.store.carriers, other ∈ later.world.store.carriers :=
    fun other hother => List.mem_cons_of_mem _ hother
  exact {
    world := { World.Grows.refl scene.world with
      carriers := hstore
      found := fun _ _ _ hfound => Store.find?_cons hnew hfound }
    classes := fun _ hself => hself
    foreign := fun _ hother => hother
    sound := by
      intro h
      obtain ⟨hunique, hfresh, howners⟩ := h.addCarrier carrier rfl howner later rfl rfl hknows
      exact { h with
        carrier_unique := hunique
        carrier_fresh := hfresh
        owner := howners
        entries := by
          intro entry hentry
          rcases List.mem_cons.mp hentry with rfl | hold
          · exact Carrier.madeFor_synthesize _ location parameters _
          · exact h.entries entry hold
        supertypes := fun entry hentry =>
          (h.supertypes entry hentry).mono hstore (fun _ hother => hother) fun _ hself => hself
        ambient := fun other hother => (h.ambient other hother).imp_left (hstore other) } }

/-- The same scene with a carrier that was made elsewhere. All carriers share their numbers. -/
def forge (scene : Scene) (location : Location) (parameters : Value) (backing : Option String) :
    Scene :=
  { scene with
    world := { scene.world with nextCarrier := scene.world.nextCarrier + 1 }
    foreign := .synthesize scene.world.nextCarrier location parameters backing :: scene.foreign }

theorem Grows.forge {location : Location} (howner : location.owner ∈ scene.classes)
    (parameters : Value) (backing : Option String) :
    scene.Grows (scene.forge location parameters backing) := by
  let carrier : Carrier := .synthesize scene.world.nextCarrier location parameters backing
  let later := scene.forge location parameters backing
  have hknows : ∀ other, later.Knows other → other = carrier ∨ scene.Knows other := by
    rintro other (hstore | hforeign)
    · exact Or.inr (Or.inl hstore)
    · exact (List.mem_cons.mp hforeign).imp_right Or.inr
  have hforeign : ∀ other ∈ scene.foreign, other ∈ later.foreign :=
    fun other hother => List.mem_cons_of_mem _ hother
  exact {
    world := { World.Grows.refl scene.world with }
    classes := fun _ hself => hself
    foreign := hforeign
    sound := by
      intro h
      obtain ⟨hunique, hfresh, howners⟩ := h.addCarrier carrier rfl howner later rfl rfl hknows
      exact { h with
        carrier_unique := hunique
        carrier_fresh := hfresh
        owner := howners
        foreign := by
          intro other hother
          rcases List.mem_cons.mp hother with rfl | hold
          · exact ⟨location, parameters, Carrier.madeFor_synthesize _ location parameters backing⟩
          · exact h.foreign other hold
        supertypes := fun entry hentry =>
          (h.supertypes entry hentry).mono (fun _ hother => hother) hforeign fun _ hself => hself
        ambient := fun other hother => (h.ambient other hother).imp_right (hforeign other) } }

/-- The same scene without the number of a class that was refused. -/
theorem Grows.skipClass : scene.Grows { scene with world := { scene.world with
    nextClass := scene.world.nextClass + 1 } } where
  world := { World.Grows.refl scene.world with }
  classes _ hself := hself
  foreign _ hcarrier := hcarrier
  sound h := { h with
    class_fresh := fun self hself => Nat.lt_succ_of_lt (h.class_fresh self hself)
    values := fun entry hentry => Nat.lt_succ_of_lt (h.values entry hentry) }

/-- A class that takes the next number keeps nothing yet. -/
theorem Sound.valuesOf_new (h : scene.Sound) {self : Class}
    (hid : self.id = scene.world.nextClass) : scene.world.valuesOf self = {} := by
  have hnew : scene.world.values.lookup self.id = none := by
    rw [Option.eq_none_iff_forall_ne_some]
    intro values hvalues
    have hlt := h.values _ (mem_of_lookup hvalues)
    omega
  rw [World.valuesOf, hnew, Option.getD_none]

/-- A class that takes the next number is told apart from all others. -/
theorem Sound.addClass (h : scene.Sound) {self : Class} (hid : self.id = scene.world.nextClass)
    (hlineage : ∀ above ∈ self.lineage, above = self ∨ above ∈ scene.classes) :
    Sound { scene with
      world := { scene.world with nextClass := scene.world.nextClass + 1 }
      classes := self :: scene.classes } := by
  have hfresh : ∀ other ∈ scene.classes, other.id < self.id :=
    fun other hother => hid ▸ h.class_fresh other hother
  have hclasses : ∀ other ∈ scene.classes, other ∈ self :: scene.classes :=
    fun other hother => List.mem_cons_of_mem self hother
  refine { h with
    class_unique := ?_, class_fresh := ?_, lineage := ?_, loader := ?_, owner := ?_
    supertypes := ?_, values := ?_ }
  · intro a ha b hb heq
    rcases List.mem_cons.mp ha with rfl | ha'
    · rcases List.mem_cons.mp hb with rfl | hb'
      · rfl
      · have hlt := hfresh b hb'
        omega
    · rcases List.mem_cons.mp hb with rfl | hb'
      · have hlt := hfresh a ha'
        omega
      · exact h.class_unique a ha' b hb' heq
  · intro other hother
    change other.id < scene.world.nextClass + 1
    rcases List.mem_cons.mp hother with rfl | hold
    · omega
    · have hlt := h.class_fresh other hold
      omega
  · intro other hother above habove
    rcases List.mem_cons.mp hother with rfl | hold
    · exact List.mem_cons.mpr (hlineage above habove)
    · exact hclasses above (h.lineage other hold above habove)
  · exact fun entry hentry => hclasses entry.2 (h.loader entry hentry)
  · exact fun carrier hcarrier => hclasses carrier.owner (h.owner carrier hcarrier)
  · exact fun entry hentry =>
      (h.supertypes entry hentry).mono (fun _ hother => hother) (fun _ hother => hother) hclasses
  · intro entry hentry
    change entry.1 < scene.world.nextClass + 1
    have hlt := h.values entry hentry
    omega

theorem Grows.addClass {self : Class} (hid : self.id = scene.world.nextClass)
    (hlineage : ∀ above ∈ self.lineage, above = self ∨ above ∈ scene.classes) :
    scene.Grows { scene with
      world := { scene.world with nextClass := scene.world.nextClass + 1 }
      classes := self :: scene.classes } where
  world := { World.Grows.refl scene.world with }
  classes _ hother := List.mem_cons_of_mem self hother
  foreign _ hcarrier := hcarrier
  sound h := h.addClass hid hlineage

theorem Grows.publish {self : Class} (hself : self ∈ scene.classes)
    (hnew : scene.world.loader.classes.lookup self.descriptor = none) :
    scene.Grows { scene with world := { scene.world with loader := { scene.world.loader with
      classes := (self.descriptor, self) :: scene.world.loader.classes } } } where
  world := { World.Grows.refl scene.world with classes := Extends.cons hnew self }
  classes _ hother := hother
  foreign _ hcarrier := hcarrier
  sound h := { h with
    loader := by
      intro entry hentry
      rcases List.mem_cons.mp hentry with rfl | hold
      · exact hself
      · exact h.loader entry hold }

end Scene

end Specialization
