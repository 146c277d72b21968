import Specialization.Proofs.World.Lineage

/-!
Classes, carriers and instances without the numbers that tell them apart. All that can be read of
them is the same: what a class declares and inherits, the scope of a carrier, and the carrier of an
instance.
-/

namespace Specialization

/-- The same definition without the number of its load. -/
def Definition.unnumbered (self : Definition) : Definition :=
  { self with id := 0 }

namespace Class

def unnumbered (self : Class) : Class where
  definition := self.definition.unnumbered
  ancestors := self.ancestors.map Definition.unnumbered

theorem superclass?_unnumbered (self : Class) :
    self.unnumbered.superclass? = self.superclass?.map unnumbered := by
  obtain ⟨definition, ancestors⟩ := self
  cases ancestors with
  | nil => rfl
  | cons above rest => rfl

theorem lineage_unnumbered (self : Class) :
    self.unnumbered.lineage = self.lineage.map unnumbered := by
  obtain ⟨definition, ancestors⟩ := self
  induction ancestors generalizing definition with
  | nil => rfl
  | cons above rest ih => exact congrArg (List.cons _) (ih above)

theorem findMethod?_unnumbered (self : Class) (name : String) :
    self.unnumbered.findMethod? name =
      (self.findMethod? name).map fun found => (found.1.unnumbered, found.2) := by
  rw [findMethod?, findMethod?, lineage_unnumbered]
  induction self.lineage with
  | nil => rfl
  | cons declaring rest ih =>
      have hown : declaring.unnumbered.method? name = declaring.method? name := rfl
      rw [List.map_cons, List.findSome?_cons, List.findSome?_cons, hown]
      cases declaring.method? name with
      | none => exact ih
      | some method => rfl

variable {self other : Class}

theorem descriptor_of_unnumbered (h : self.unnumbered = other.unnumbered) :
    self.descriptor = other.descriptor := by
  have hview := congrArg Class.descriptor h
  exact hview

theorem analysis_of_unnumbered (h : self.unnumbered = other.unnumbered) :
    self.analysis = other.analysis := by
  have hview := congrArg Class.analysis h
  exact hview

theorem defaults_of_unnumbered (h : self.unnumbered = other.unnumbered) :
    self.defaults = other.defaults := by
  have hview := congrArg Class.defaults h
  exact hview

theorem carrierClass?_of_unnumbered (h : self.unnumbered = other.unnumbered) (constant : String) :
    self.carrierClass? constant = other.carrierClass? constant := by
  have hview := congrArg (fun self => carrierClass? self constant) h
  exact hview

end Class

namespace Location

def unnumbered : Location → Location
  | .ofClass self => .ofClass self.unnumbered
  | .method owner classParameters signature => .method owner.unnumbered classParameters signature

@[simp]
theorem owner_unnumbered (location : Location) :
    location.unnumbered.owner = location.owner.unnumbered := by
  cases location <;> rfl

@[simp]
theorem isClassLevel_unnumbered (location : Location) :
    location.unnumbered.isClassLevel = location.isClassLevel := by
  cases location <;> rfl

@[simp]
theorem scope_unnumbered (location : Location) : location.unnumbered.scope = location.scope := by
  cases location <;> rfl

@[simp]
theorem defaults_unnumbered (location : Location) :
    location.unnumbered.defaults = location.defaults := by
  cases location <;> rfl

@[simp]
theorem text_unnumbered (location : Location) : location.unnumbered.text = location.text := by
  cases location with
  | ofClass self => rfl
  | method owner classParameters signature =>
      cases classParameters <;> rfl

end Location

def Backing.unnumbered (backing : Backing) : Backing where
  name := ""
  raw := backing.raw.unnumbered

namespace Carrier

/-- The same carrier without the numbers of its class, of itself and of its backing type. -/
def unnumbered (carrier : Carrier) : Carrier where
  id := 0
  location := carrier.location.unnumbered
  classParameters := carrier.classParameters
  methodParameters := carrier.methodParameters
  backing := carrier.backing.map Backing.unnumbered

@[simp]
theorem owner_unnumbered (carrier : Carrier) :
    carrier.unnumbered.owner = carrier.owner.unnumbered :=
  carrier.location.owner_unnumbered

@[simp]
theorem isClassLevel_unnumbered (carrier : Carrier) :
    carrier.unnumbered.isClassLevel = carrier.isClassLevel :=
  carrier.location.isClassLevel_unnumbered

@[simp]
theorem scope_unnumbered (carrier : Carrier) : carrier.unnumbered.scope = carrier.scope :=
  rfl

@[simp]
theorem ownParameters_unnumbered (carrier : Carrier) :
    carrier.unnumbered.ownParameters = carrier.ownParameters := by
  rw [ownParameters, isClassLevel_unnumbered]
  rfl

end Carrier

def RuntimeClass.unnumbered : RuntimeClass → RuntimeClass
  | .raw self => .raw self.unnumbered
  | .backing type =>
    .backing { toBacking := type.toBacking.unnumbered, carrier := type.carrier.unnumbered }

namespace Instance

def unnumbered (self : Instance) : Instance where
  runtimeClass := self.runtimeClass.unnumbered
  held := self.held.map Carrier.unnumbered

@[simp]
theorem owner_unnumbered (self : Instance) : self.unnumbered.owner = self.owner.unnumbered := by
  obtain ⟨runtimeClass, held⟩ := self
  cases runtimeClass <;> rfl

@[simp]
theorem carrier?_unnumbered (self : Instance) :
    self.unnumbered.carrier? = self.carrier?.map Carrier.unnumbered := by
  obtain ⟨runtimeClass, held⟩ := self
  cases runtimeClass <;> rfl

theorem ofCarrier_unnumbered (carrier : Carrier) :
    (ofCarrier carrier).unnumbered = ofCarrier carrier.unnumbered := by
  obtain ⟨id, location, classParameters, methodParameters, backing⟩ := carrier
  cases backing with
  | none =>
      have howner := Carrier.owner_unnumbered ⟨id, location, classParameters, methodParameters, none⟩
      exact congrArg (fun self => Instance.mk (.raw self) _) howner.symm
  | some backing => rfl

end Instance

end Specialization
