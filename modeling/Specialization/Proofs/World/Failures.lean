import Specialization.Proofs.World.Resolution

/-!
How the steps of climbs and reads fail. Taking a value of a constant can only fail in its
evaluation. A step of a climb can moreover find a location without defaults or a mapping to another
class, and a read a carrier of another class. No step looks for a class or a method, for a carrier
that is ambient, or for the distance of the climb.
-/

namespace Specialization

namespace Error

/-- An error in the evaluation of a constant. -/
def OfConstants (error : Error) : Prop :=
  ∃ cause, error = .constants cause

/-- Whether an error arises in a single step of a climb or of a read. -/
def isOfStep : Error → Bool
  | .constants _ => true
  | .notSpecializable _ => true
  | .supertypeMismatch _ _ _ => true
  | .carrierMismatch _ _ _ => true
  | _ => false

theorem OfConstants.isOfStep {error : Error} (h : error.OfConstants) : error.isOfStep := by
  obtain ⟨_, rfl⟩ := h
  rfl

end Error

variable (host : Host)

namespace Class

theorem throws_evaluate (functions : Registry) (self : Class) (constant : String) (scope : Scope) :
    Throws Error.OfConstants (self.evaluate host functions constant scope) := by
  intro world error h
  rw [exec_evaluate host functions self constant scope world rfl] at h
  obtain ⟨cause, _, rfl⟩ := mapError_eq_error.mp h
  exact ⟨cause, rfl⟩

theorem throws_keptValue (functions : Registry) (self : Class) (constant : String)
    (carrier : Carrier) :
    Throws Error.OfConstants (self.keptValue host functions constant carrier) := by
  unfold keptValue
  refine Throws.get.bind ?_
  intro world
  split
  · exact .pure _
  · apply (throws_evaluate host functions self constant carrier.scope).bind
    intro value
    exact (Throws.change _).bind fun _ => .pure value

theorem throws_checkCarrier (self : Class) (constant : String) (carrier : Carrier) :
    Throws (·.isOfStep) (self.checkCarrier constant carrier) := by
  unfold checkCarrier
  split
  · dsimp only
    split
    · exact .pure ()
    · exact .throw rfl
  · exact .pure ()

theorem throws_accessorValue (functions : Registry) (self : Class) (constant : String)
    (carrier : Carrier) :
    Throws (·.isOfStep) (self.accessorValue host functions constant carrier) := by
  rw [accessorValue_eq]
  apply (throws_checkCarrier self constant carrier).bind
  intro _
  exact (throws_keptValue host functions self constant carrier).mono fun _ h => h.isOfStep

end Class

theorem throws_resolve (location : Location) (requested : Option Value) :
    Throws (·.isOfStep) (resolve location requested) := by
  intro world error h
  obtain ⟨_, rfl⟩ := exec_resolve_eq_error.mp h
  rfl

theorem throws_resolveDefault (self : Class) : Throws (·.isOfStep) (resolveDefault self) := by
  unfold resolveDefault
  split
  · exact (throws_resolve _ _).bind fun _ => .pure _
  · exact .pure none

theorem throws_findDirectSupertype (functions : Registry) (carrier : Carrier)
    (superclass : Class) :
    Throws (·.isOfStep) (findDirectSupertype host functions carrier superclass) := by
  unfold findDirectSupertype
  dsimp only
  split
  · exact throws_resolveDefault superclass
  · apply (Class.throws_accessorValue host functions carrier.owner _ carrier).bind
    intro mapping
    split
    · exact .throw rfl
    · split
      · exact (throws_resolve _ _).bind fun _ => .pure _
      · exact .throw rfl

theorem throws_directSupertype (functions : Registry) (carrier : Carrier) (superclass : Class) :
    Throws (·.isOfStep) (directSupertype host functions carrier superclass) := by
  unfold directSupertype
  refine Throws.get.bind ?_
  intro world
  split
  · exact .pure _
  · apply (throws_findDirectSupertype host functions carrier superclass).bind
    rintro (_ | found)
    · exact .pure none
    · exact (Throws.change _).bind fun _ => .pure _

theorem throws_climb (functions : Registry) (current : Option Carrier) (way : List Class) :
    Throws (·.isOfStep) (climb host functions current way) := by
  induction way generalizing current with
  | nil =>
      cases current with
      | none => exact .pure none
      | some carrier => exact .pure (some carrier)
  | cons superclass rest ih =>
      cases current with
      | none => exact (throws_resolveDefault superclass).bind ih
      | some carrier => exact (throws_directSupertype host functions carrier superclass).bind ih

end Specialization
