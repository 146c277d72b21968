import Specialization.Proofs.World.CarrierClass
import Specialization.Proofs.World.Failures

/-!
Classes that share a descriptor. Every load makes a class of its own, and locations, climbs and
backing types tell classes apart by their loads. The check of a read looks at descriptors only, so a
constant that is read under carriers of its own class is read under those of a namesake as well.
Among the classes that one loader knows there are no namesakes.
-/

namespace Specialization

namespace Class

variable {self : Class} {constant : String}

/-- The anchor at the root of the constant is declared by the class itself. -/
def RootedLocally (self : Class) (constant : String) : Prop :=
  ∃ name parent id outer, self.analysis.root? constant = some (.anchor name parent) ∧
    self.analysis.expr? name = some (.anchor id outer) ∧ self.analysis.anchors.contains id

theorem RootedLocally.carrierClass? (h : self.RootedLocally constant) :
    self.carrierClass? constant = some self.descriptor := by
  obtain ⟨name, parent, id, outer, hroot, hexpr, hdeclared⟩ := h
  simp only [Class.carrierClass?, hroot, Root.anchorName?, bind, Option.bind, hexpr, hdeclared,
    if_true]
  rfl

/-- A constant that is fixed at link time, or rooted in its own class, is read under carriers of no
other class. -/
theorem descriptor_of_local
    (h : self.analysis.root? constant = some .constant ∨ self.RootedLocally constant)
    {expected : Descriptor} (hexpected : self.carrierClass? constant = some expected) :
    self.descriptor = expected := by
  rcases h with hlink | hrooted
  · have hplain : ¬ self.analysis.isAnchored constant := by
      simp [Analysis.isAnchored, hlink, Root.isAnchor]
    rw [carrierClass?_eq_none.mpr hplain] at hexpected
    cases hexpected
  · exact Option.some.inj (hrooted.carrierClass?.symm.trans hexpected)

/-- A read of a constant that has a carrier class: it is refused, or it takes what is kept. -/
theorem exec_accessorValue_of_class {expected : Descriptor}
    (hclass : self.carrierClass? constant = some expected) (host : Host) (functions : Registry)
    (carrier : Carrier) (world : World) :
    exec (self.accessorValue host functions constant carrier) world =
      if carrier.owner.descriptor = expected then
        exec (self.keptValue host functions constant carrier) world
      else (.error (.carrierMismatch constant expected carrier.owner.descriptor), world) := by
  rw [accessorValue_eq]
  split
  · rename_i hsame
    have hcheck : exec (self.checkCarrier constant carrier) world = (.ok (), world) := by
      simp [checkCarrier, hclass, hsame]
    rw [exec_bind_ok hcheck]
  · rename_i hother
    have hcheck : exec (self.checkCarrier constant carrier) world =
        (.error (.carrierMismatch constant expected carrier.owner.descriptor), world) := by
      simp [checkCarrier, hclass, hother]
    rw [exec_bind_error hcheck]

/-- What is kept under a carrier goes by its number and its parameters alone. -/
theorem keptValue_congr (host : Host) (functions : Registry) (self : Class) (constant : String)
    {carrier other : Carrier} (hid : other.id = carrier.id) (hscope : other.scope = carrier.scope) :
    self.keptValue host functions constant other =
      self.keptValue host functions constant carrier := by
  rw [keptValue, keptValue, hid, hscope]

/-- A constant that is rooted in its own class is refused exactly under carriers of classes of other
descriptors. Under a carrier of a namesake it is read as under a carrier of the class itself that
has the number and the parameters of that one. Where the loader knows both classes, there is no
namesake, and the check tells classes apart. -/
theorem accessorValue_of_rootedLocally (hlocal : self.RootedLocally constant) (host : Host)
    (functions : Registry) (carrier : Carrier) (world : World) :
    let read (carrier : Carrier) :=
      exec (self.accessorValue host functions constant carrier) world
    let refused := Error.carrierMismatch constant self.descriptor carrier.owner.descriptor
    ((read carrier).1 = .error refused ↔ carrier.owner.descriptor ≠ self.descriptor) ∧
    (carrier.owner.descriptor = self.descriptor →
      (∀ name expected found, (read carrier).1 ≠ .error (.carrierMismatch name expected found)) ∧
      ∀ own : Carrier, own.owner = self → own.id = carrier.id → own.scope = carrier.scope →
        read carrier = read own) ∧
    (world.loader.classes.lookup self.descriptor = some self →
      world.loader.classes.lookup carrier.owner.descriptor = some carrier.owner →
        ((read carrier).1 = .error refused ↔ carrier.owner ≠ self)) := by
  have hread := exec_accessorValue_of_class hlocal.carrierClass? host functions
  have hkept : carrier.owner.descriptor = self.descriptor → ∀ name expected found,
      (exec (self.accessorValue host functions constant carrier) world).1 ≠
        .error (.carrierMismatch name expected found) := by
    intro hsame name expected found hmismatch
    rw [hread carrier world, if_pos hsame] at hmismatch
    obtain ⟨cause, hcause⟩ := throws_keptValue host functions self constant carrier world _ hmismatch
    cases hcause
  have hrefused : (exec (self.accessorValue host functions constant carrier) world).1 =
      .error (.carrierMismatch constant self.descriptor carrier.owner.descriptor) ↔
        carrier.owner.descriptor ≠ self.descriptor := by
    constructor
    · exact fun hmismatch hsame => hkept hsame _ _ _ hmismatch
    · intro hother
      rw [hread carrier world, if_neg hother]
  refine ⟨hrefused, fun hsame => ⟨hkept hsame, ?_⟩, fun hself howner => ?_⟩
  · intro own howner hid hscope
    dsimp only
    rw [hread carrier world, hread own world, if_pos hsame, if_pos (congrArg descriptor howner),
      keptValue_congr host functions self constant hid hscope]
  · rw [hrefused, not_iff_not]
    constructor
    · intro hsame
      rw [hsame, hself] at howner
      exact (Option.some.inj howner).symm
    · exact congrArg descriptor

/-- A class with one anchor. -/
def plainBox : ClassSpec where
  descriptor := "Box"
  defaults := ["Object"]
  anchors := [{ name := "T", level := .ofClass }]
  constants := [{ name := "T", action := "anchor" }]

/-- Two loads of one spec. -/
def twoBoxes : Scene :=
  ((Scene.start {} .standard).loadClass plainBox none).loadClass plainBox none

/-- The second box, which has no part in the loads of the first one. -/
def secondBox : Class :=
  twoBoxes.classes.head (List.cons_ne_nil _ _)

def firstBox : Class :=
  twoBoxes.classes.tail.head (List.cons_ne_nil _ _)

/-- A carrier of a class for texts. -/
def carrierOfTexts (owner : Class) : Carrier :=
  .synthesize 1 (.ofClass owner) (.type "String") none

theorem rootedLocally_firstBox : firstBox.RootedLocally "T" :=
  ⟨"T", none, "T", none, rfl, rfl, rfl⟩

theorem accessorValue_of_rootedLocally_box :
    ∃ host : Host,
      (exec (firstBox.accessorValue host .standard "T" (carrierOfTexts secondBox))
          twoBoxes.world =
        exec (firstBox.accessorValue host .standard "T" (carrierOfTexts firstBox))
          twoBoxes.world) ∧
      (exec (firstBox.accessorValue host .standard "T" (carrierOfTexts (innermostClass "Outer")))
          twoBoxes.world).1 = .error (.carrierMismatch "T" "Box" "Inner") := by
  let host : Host := fun _ _ => .error "absent"
  have hread carrier := accessorValue_of_rootedLocally rootedLocally_firstBox host .standard carrier
    twoBoxes.world
  have hother : (innermostClass "Outer").descriptor ≠ firstBox.descriptor := by decide
  exact ⟨host, ((hread (carrierOfTexts secondBox)).2.1 rfl).2 (carrierOfTexts firstBox) rfl rfl rfl,
    (hread (carrierOfTexts (innermostClass "Outer"))).1.mpr hother⟩

/-- The two boxes are different classes of one descriptor, and no climb leads from one to the other.
Yet the first one reads its anchor under a carrier of the second one. -/
theorem accessorValue_namesake :
    ∃ (host : Host) (carrier : Carrier),
      twoBoxes.classes = [secondBox, firstBox] ∧ firstBox.id ≠ secondBox.id ∧
      firstBox.descriptor = secondBox.descriptor ∧ firstBox.RootedLocally "T" ∧
      let resolving := resolve (.ofClass secondBox) (some (.type "String"))
      let resolved := twoBoxes.after resolving
      twoBoxes.result resolving = .ok carrier ∧ carrier.location = .ofClass secondBox ∧
        (Location.ofClass firstBox == carrier.location) = false ∧
        resolved.result (supertypeCarrier host .standard carrier firstBox) =
          .error (.notASupertype "Box" "Box") ∧
        resolved.result (firstBox.accessorValue host .standard "T" carrier) =
          .ok (.type "String") :=
  ⟨fun _ _ => .error "absent", _, rfl, by decide, rfl, rootedLocally_firstBox, rfl, rfl, rfl, rfl,
    rfl⟩

end Class

end Specialization
