import Specialization.Proofs.World.Scene

/-!
Ways up the chain of superclasses. A way is the list of the classes that are climbed to, so its
length is the distance, and ways can be joined. In a sound scene no class occurs twice on a chain.
A method is looked up along the same chain, and belongs to the nearest class that declares its name.
-/

namespace Specialization

namespace Class

/-- The classes above a class up to one of its superclasses, in the order in which they are
climbed. -/
inductive Climbs : Class → List Class → Class → Prop
  | here (self : Class) : Climbs self [] self
  | up {self above top : Class} {way : List Class} (hsuperclass : self.superclass? = some above)
      (hrest : Climbs above way top) : Climbs self (above :: way) top

theorem superclass?_eq_some {self above : Class} :
    self.superclass? = some above ↔ self.ancestors = above.definition :: above.ancestors := by
  obtain ⟨definition, ancestors⟩ := self
  cases ancestors with
  | nil => simp [superclass?]
  | cons next rest =>
      obtain ⟨definition', ancestors'⟩ := above
      simp [superclass?]

theorem lineage_of_superclass {self above : Class} (h : self.superclass? = some above) :
    self.lineage = self :: above.lineage := by
  obtain ⟨definition, ancestors⟩ := self
  obtain rfl : ancestors = above.definition :: above.ancestors := superclass?_eq_some.mp h
  rfl

/-- A chain starts with the class itself. -/
theorem lineage_eq_cons (self : Class) : ∃ above, self.lineage = self :: above := by
  obtain ⟨definition, ancestors⟩ := self
  cases ancestors with
  | nil => exact ⟨[], rfl⟩
  | cons next rest => exact ⟨Class.lineage ⟨next, rest⟩, rfl⟩

theorem mem_lineage_self (self : Class) : self ∈ self.lineage := by
  obtain ⟨above, hlineage⟩ := self.lineage_eq_cons
  rw [hlineage]
  exact List.mem_cons_self

namespace Climbs

variable {self middle top : Class} {way rest : List Class}

theorem trans (h : Climbs self way middle) (h' : Climbs middle rest top) :
    Climbs self (way ++ rest) top := by
  induction h with
  | here => exact h'
  | up hsuperclass _ ih => exact .up hsuperclass (ih h')

theorem single {above : Class} (h : self.superclass? = some above) : Climbs self [above] above :=
  .up h (.here above)

/-- Each step leaves one superclass less above. -/
theorem length_ancestors (h : Climbs self way top) :
    self.ancestors.length = way.length + top.ancestors.length := by
  induction h with
  | here => simp
  | up hsuperclass _ ih =>
      rw [superclass?_eq_some.mp hsuperclass, List.length_cons, ih, List.length_cons]
      omega

theorem lineage_eq (h : Climbs self way top) :
    ∃ above, self.lineage = self :: way ++ above := by
  induction h with
  | here self => exact self.lineage_eq_cons
  | up hsuperclass _ ih =>
      obtain ⟨above, hlineage⟩ := ih
      exact ⟨above, by rw [lineage_of_superclass hsuperclass, hlineage]; rfl⟩

theorem mem_lineage (h : Climbs self way top) : top ∈ self.lineage := by
  induction h with
  | here self => exact mem_lineage_self self
  | up hsuperclass _ ih =>
      rw [lineage_of_superclass hsuperclass]
      exact List.mem_cons_of_mem _ ih

/-- The way is what lies on the chain above the class, up to the distance. -/
theorem take_lineage (h : Climbs self way top) :
    (self.lineage.drop 1).take way.length = way := by
  obtain ⟨above, hlineage⟩ := h.lineage_eq
  rw [hlineage]
  simp

theorem getElem?_lineage (h : Climbs self way top) : self.lineage[way.length]? = some top := by
  induction h with
  | here self =>
      obtain ⟨above, hlineage⟩ := self.lineage_eq_cons
      rw [hlineage]
      rfl
  | up hsuperclass _ ih =>
      rw [lineage_of_superclass hsuperclass, List.length_cons, List.getElem?_cons_succ, ih]

end Climbs

/-- Whatever lies on the chain can be climbed to, from as far as it lies above. -/
theorem climbs_of_getElem? {self top : Class} {distance : Nat}
    (h : self.lineage[distance]? = some top) :
    ∃ way, Climbs self way top ∧ way.length = distance := by
  obtain ⟨definition, ancestors⟩ := self
  induction ancestors generalizing definition distance with
  | nil =>
      cases distance with
      | zero =>
          cases h
          exact ⟨[], .here _, rfl⟩
      | succ => cases h
  | cons above rest ih =>
      cases distance with
      | zero =>
          cases h
          exact ⟨[], .here _, rfl⟩
      | succ distance =>
          obtain ⟨way, hway, hlength⟩ := ih above h
          exact ⟨⟨above, rest⟩ :: way, .up rfl hway, congrArg Nat.succ hlength⟩

theorem climbs_of_mem {self top : Class} (h : top ∈ self.lineage) :
    ∃ way, Climbs self way top := by
  obtain ⟨distance, hdistance⟩ := List.mem_iff_getElem?.mp h
  obtain ⟨way, hway, _⟩ := climbs_of_getElem? hdistance
  exact ⟨way, hway⟩

theorem distanceTo?_eq_none {self top : Class} :
    self.distanceTo? top = none ↔ ∀ above ∈ self.lineage, above.id ≠ top.id := by
  rw [distanceTo?, List.findIdx?_eq_none_iff]
  simp only [← Bool.not_eq_true, Class.beq_iff, ne_eq]

theorem climbs_of_distanceTo? {self ancestor : Class} {distance : Nat}
    (h : self.distanceTo? ancestor = some distance) :
    ∃ way top, Climbs self way top ∧ way.length = distance := by
  obtain ⟨hlt, _⟩ := List.findIdx?_eq_some_iff_getElem.mp h
  obtain ⟨way, hway, hlength⟩ := climbs_of_getElem? (List.getElem?_eq_getElem hlt)
  exact ⟨way, _, hway, hlength⟩

theorem distanceTo?_self (self : Class) : self.distanceTo? self = some 0 := by
  obtain ⟨above, hlineage⟩ := self.lineage_eq_cons
  have hsame : (self == self) = true := Class.beq_iff.mpr rfl
  rw [distanceTo?, hlineage, List.findIdx?_cons, hsame]
  rfl

/-- Where classes are told apart by their numbers, the distance is the length of the way. -/
theorem Climbs.distanceTo? {self top : Class} {way : List Class} (h : Climbs self way top)
    (hids : ∀ above ∈ self.lineage, above.id = top.id → above = top) :
    self.distanceTo? top = some way.length := by
  induction h with
  | here self => exact distanceTo?_self self
  | @up self above top way hsuperclass hrest ih =>
      have hlineage := lineage_of_superclass hsuperclass
      have hother : self.id ≠ top.id := by
        intro hid
        have hsame := hids self (mem_lineage_self self) hid
        have hlength := (Climbs.up hsuperclass hrest).length_ancestors
        rw [hsame, List.length_cons] at hlength
        omega
      have hnext := ih fun other hmem => hids other (hlineage ▸ List.mem_cons_of_mem self hmem)
      rw [Class.distanceTo?] at hnext ⊢
      rw [hlineage, List.findIdx?_cons, hnext]
      simp [Class.beq_iff, hother]

section Methods

variable {self declaring : Class} {name : String} {method : Method}

/-- A class has a method of a name itself. -/
def Declares (self : Class) (name : String) : Prop :=
  ∃ method ∈ self.methods, method.name = name

/-- The method of a name is the first one of the nearest class that declares the name, with the
classes below that one. -/
structure Takes (lowest : Class) (name : String) (below : List Class) (declaring : Class)
    (method : Method) : Prop where
  lineage : ∃ above, lowest.lineage = below ++ declaring :: above
  nearest : ∀ other ∈ below, ¬ other.Declares name
  first : ∃ earlier later, declaring.methods = earlier ++ method :: later ∧
    ∀ other ∈ earlier, other.name ≠ name
  named : method.name = name

theorem method?_eq_none : self.method? name = none ↔ ¬ self.Declares name := by
  simp [method?, Declares]

theorem method?_eq_some : self.method? name = some method ↔
    method.name = name ∧ ∃ earlier later, self.methods = earlier ++ method :: later ∧
      ∀ other ∈ earlier, other.name ≠ name := by
  simp [method?, List.find?_eq_some_iff_append]

theorem findMethod?_eq_none :
    self.findMethod? name = none ↔ ∀ declaring ∈ self.lineage, ¬ declaring.Declares name := by
  simp only [findMethod?, List.findSome?_eq_none_iff, Option.map_eq_none_iff, method?_eq_none]

theorem findMethod?_eq_some : self.findMethod? name = some (declaring, method) ↔
    ∃ below, self.Takes name below declaring method := by
  rw [findMethod?, List.findSome?_eq_some_iff]
  simp only [Option.map_eq_none_iff, method?_eq_none]
  constructor
  · rintro ⟨below, found, above, hlineage, hfound, hnearest⟩
    obtain ⟨_, hmethod, heq⟩ := Option.map_eq_some_iff.mp hfound
    cases heq
    obtain ⟨hnamed, hfirst⟩ := method?_eq_some.mp hmethod
    exact ⟨below, ⟨above, hlineage⟩, hnearest, hfirst, hnamed⟩
  · rintro ⟨below, ⟨above, hlineage⟩, hnearest, hfirst, hnamed⟩
    have hmethod : declaring.method? name = some method := method?_eq_some.mpr ⟨hnamed, hfirst⟩
    exact ⟨below, declaring, above, hlineage, by rw [hmethod]; rfl, hnearest⟩

/-- The declaring class is climbed to through the classes below it. -/
theorem Takes.climbs {below : List Class} (h : self.Takes name below declaring method) :
    ∃ way, self.Climbs way declaring ∧ way.length = below.length := by
  obtain ⟨above, hlineage⟩ := h.lineage
  apply climbs_of_getElem?
  rw [hlineage]
  simp

theorem mem_lineage_of_findMethod? (h : self.findMethod? name = some (declaring, method)) :
    declaring ∈ self.lineage := by
  obtain ⟨below, htakes⟩ := findMethod?_eq_some.mp h
  obtain ⟨above, hlineage⟩ := htakes.lineage
  rw [hlineage]
  exact List.mem_append_right below List.mem_cons_self

end Methods

end Class

namespace Scene

variable {scene : Scene}

theorem Sound.mem_of_climbs (h : scene.Sound) {self top : Class} {way : List Class}
    (hself : self ∈ scene.classes) (hway : self.Climbs way top) : top ∈ scene.classes :=
  h.lineage self hself top hway.mem_lineage

theorem Sound.superclass (h : scene.Sound) {self above : Class} (hself : self ∈ scene.classes)
    (hsuperclass : self.superclass? = some above) : above ∈ scene.classes :=
  h.mem_of_climbs hself (.single hsuperclass)

theorem Sound.distanceTo? (h : scene.Sound) {self top : Class} {way : List Class}
    (hself : self ∈ scene.classes) (hway : self.Climbs way top) :
    self.distanceTo? top = some way.length :=
  hway.distanceTo? fun above habove hid =>
    h.class_unique above (h.lineage self hself above habove) top (h.mem_of_climbs hself hway) hid

theorem Sound.distanceTo?_eq_none (h : scene.Sound) {self top : Class}
    (hself : self ∈ scene.classes) (htop : top ∈ scene.classes) :
    self.distanceTo? top = none ↔ top ∉ self.lineage := by
  rw [Class.distanceTo?_eq_none]
  constructor
  · exact fun hids hmem => hids top hmem rfl
  · intro hnot above habove hid
    exact hnot (h.class_unique above (h.lineage self hself above habove) top htop hid ▸ habove)

theorem Sound.mem_lineage_of_distance (h : scene.Sound) {self top : Class}
    (hself : self ∈ scene.classes) (htop : top ∈ scene.classes)
    (hdistance : (self.distanceTo? top).isSome) : top ∈ self.lineage := by
  by_contra hnot
  rw [(h.distanceTo?_eq_none hself htop).mpr hnot] at hdistance
  cases hdistance

end Scene

end Specialization
