import Specialization.Reading
import Specialization.Proofs.Execution
import Specialization.Proofs.Lookup
import Specialization.Proofs.Value.Equality

/-!
Scenes: a world together with the classes and the carriers that a program holds. In a sound scene
classes and carriers are told apart by their numbers, every carrier is what it was made for, and all
that the world remembers is held. Scenes grow: whatever can be found in one is found, unchanged, in
those that come later.
-/

namespace Specialization

namespace Carrier

/-- A carrier has what its location makes of the parameters, and so has its backing type. -/
structure MadeFor (carrier : Carrier) (location : Location) (parameters : Value) : Prop where
  located : carrier.location = location
  scope : carrier.scope = location.scope parameters
  raw : ∀ backing, carrier.backing = some backing → backing.raw = location.owner

theorem madeFor_synthesize (id : Nat) (location : Location) (parameters : Value)
    (name : Option String) : (synthesize id location parameters name).MadeFor location parameters where
  located := rfl
  scope := rfl
  raw backing hbacking := by
    obtain ⟨_, _, rfl⟩ := Option.map_eq_some_iff.mp hbacking
    rfl

/-- The parameters that a carrier has at the level of its location. -/
def ownParameters (carrier : Carrier) : Option Value :=
  if carrier.isClassLevel then carrier.classParameters else carrier.methodParameters

variable {carrier : Carrier} {location : Location} {parameters : Value}

theorem MadeFor.ownParameters (h : carrier.MadeFor location parameters) :
    carrier.ownParameters = some parameters := by
  have hscope : ∀ level, carrier.scope.parameters level =
      (location.scope parameters).parameters level := by
    rw [h.scope]
    exact fun _ => rfl
  rw [Carrier.ownParameters, isClassLevel, h.located]
  cases location with
  | ofClass self => exact hscope .ofClass
  | method owner classParameters signature => exact hscope .ofMethod

end Carrier

/-- All that reading constants and resolving carriers depends on is kept. -/
structure World.Grows (before after : World) : Prop where
  functions : after.loader.functions = before.loader.functions
  config : after.store.config = before.store.config
  classes : Extends before.loader.classes after.loader.classes
  carriers : ∀ carrier ∈ before.store.carriers, carrier ∈ after.store.carriers
  found : ∀ location parameters carrier, before.store.find? location parameters = some carrier →
    after.store.find? location parameters = some carrier
  supertypes : Extends before.store.supertypes after.store.supertypes
  link : ∀ self, Extends (before.valuesOf self).link (after.valuesOf self).link
  accessors : ∀ self, Extends (before.valuesOf self).accessors (after.valuesOf self).accessors

theorem World.Grows.refl (world : World) : world.Grows world where
  functions := rfl
  config := rfl
  classes := Extends.refl _
  carriers _ h := h
  found _ _ _ h := h
  supertypes := Extends.refl _
  link _ := Extends.refl _
  accessors _ := Extends.refl _

theorem World.Grows.trans {first second third : World} (h : first.Grows second)
    (h' : second.Grows third) : first.Grows third where
  functions := h'.functions.trans h.functions
  config := h'.config.trans h.config
  classes := h.classes.trans h'.classes
  carriers carrier hcarrier := h'.carriers carrier (h.carriers carrier hcarrier)
  found location parameters carrier hfound :=
    h'.found location parameters carrier (h.found location parameters carrier hfound)
  supertypes := h.supertypes.trans h'.supertypes
  link self := (h.link self).trans (h'.link self)
  accessors self := (h.accessors self).trans (h'.accessors self)

structure Scene where
  world : World
  /-- The classes that have been loaded, known to the loader or not. -/
  classes : List Class := []
  /-- The carriers that were made elsewhere, and not in the store of the world. -/
  foreign : List Carrier := []

namespace Scene

/-- The carriers that a program can hold. -/
def Knows (scene : Scene) (carrier : Carrier) : Prop :=
  carrier ∈ scene.world.store.carriers ∨ carrier ∈ scene.foreign

/-- An entry for the direct supertype of a carrier, made where there is one to remember. -/
def Remembers (scene : Scene) (entry : (Nat × Nat) × Carrier) : Prop :=
  entry.2 ∈ scene.world.store.carriers ∧
    ∃ carrier superclass, scene.Knows carrier ∧ superclass ∈ scene.classes ∧
      entry.1 = (carrier.id, superclass.id) ∧
      (carrier.owner.analysis.superMapping.isSome ∨ superclass.isSpecializable)

structure Sound (scene : Scene) : Prop where
  class_unique : ∀ a ∈ scene.classes, ∀ b ∈ scene.classes, a.id = b.id → a = b
  class_fresh : ∀ self ∈ scene.classes, self.id < scene.world.nextClass
  lineage : ∀ self ∈ scene.classes, ∀ above ∈ self.lineage, above ∈ scene.classes
  loader : ∀ entry ∈ scene.world.loader.classes, entry.2 ∈ scene.classes
  carrier_unique : ∀ a b, scene.Knows a → scene.Knows b → a.id = b.id → a = b
  carrier_fresh : ∀ carrier, scene.Knows carrier → carrier.id < scene.world.nextCarrier
  owner : ∀ carrier, scene.Knows carrier → carrier.owner ∈ scene.classes
  entries : ∀ entry ∈ scene.world.store.entries,
    entry.carrier.MadeFor entry.location entry.parameters
  foreign : ∀ carrier ∈ scene.foreign, ∃ location parameters, carrier.MadeFor location parameters
  supertypes : ∀ entry ∈ scene.world.store.supertypes, scene.Remembers entry
  ambient : ∀ carrier, scene.world.ambient.carrier = some carrier → scene.Knows carrier
  values : ∀ entry ∈ scene.world.values, entry.1 < scene.world.nextClass

/-- A carrier of the store has an entry for its own location and parameters. -/
theorem Sound.entry_of_stored {scene : Scene} (h : scene.Sound) {carrier : Carrier}
    (hcarrier : carrier ∈ scene.world.store.carriers) :
    ∃ parameters, ⟨carrier.location, parameters, carrier⟩ ∈ scene.world.store.entries ∧
      carrier.MadeFor carrier.location parameters := by
  obtain ⟨⟨location, parameters, carrier⟩, hentry, rfl⟩ := List.mem_map.mp hcarrier
  have hmade := h.entries _ hentry
  obtain rfl : carrier.location = location := hmade.located
  exact ⟨parameters, hentry, hmade⟩

theorem Sound.madeFor {scene : Scene} (h : scene.Sound) {carrier : Carrier}
    (hcarrier : scene.Knows carrier) :
    ∃ parameters, carrier.MadeFor carrier.location parameters := by
  rcases hcarrier with hstored | helsewhere
  · obtain ⟨parameters, _, hmade⟩ := h.entry_of_stored hstored
    exact ⟨parameters, hmade⟩
  · obtain ⟨location, parameters, hmade⟩ := h.foreign carrier helsewhere
    exact ⟨parameters, hmade.located ▸ hmade⟩

/-- A later scene of the same program. -/
structure Grows (before after : Scene) : Prop where
  world : before.world.Grows after.world
  classes : ∀ self ∈ before.classes, self ∈ after.classes
  foreign : ∀ carrier ∈ before.foreign, carrier ∈ after.foreign
  sound : before.Sound → after.Sound

theorem Grows.refl (scene : Scene) : scene.Grows scene :=
  ⟨World.Grows.refl scene.world, fun _ h => h, fun _ h => h, fun h => h⟩

theorem Grows.trans {first second third : Scene} (h : first.Grows second)
    (h' : second.Grows third) : first.Grows third where
  world := h.world.trans h'.world
  classes self hself := h'.classes self (h.classes self hself)
  foreign carrier hcarrier := h'.foreign carrier (h.foreign carrier hcarrier)
  sound hsound := h'.sound (h.sound hsound)

theorem Knows.grow {before after : Scene} {carrier : Carrier} (h : before.Knows carrier)
    (hgrows : before.Grows after) : after.Knows carrier :=
  h.imp (hgrows.world.carriers carrier) (hgrows.foreign carrier)

theorem Remembers.mono {before after : Scene} {entry : (Nat × Nat) × Carrier}
    (h : before.Remembers entry)
    (hstore : ∀ carrier ∈ before.world.store.carriers, carrier ∈ after.world.store.carriers)
    (hforeign : ∀ carrier ∈ before.foreign, carrier ∈ after.foreign)
    (hclasses : ∀ self ∈ before.classes, self ∈ after.classes) : after.Remembers entry := by
  obtain ⟨hfound, carrier, superclass, hcarrier, hsuperclass, hrest⟩ := h
  exact ⟨hstore _ hfound, carrier, superclass, hcarrier.imp (hstore carrier) (hforeign carrier),
    hclasses superclass hsuperclass, hrest⟩

end Scene

end Specialization
