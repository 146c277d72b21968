import Specialization.Carrier

/-!
Equality of values and of locations. It is not identity, since functions are compared by their names
and classes by the number of their load, but it is an equivalence, and so a carrier that is found
by it stays the one that is found.
-/

namespace Specialization

namespace Value

mutual
/-- A value with nothing left of its functions but their names. -/
def named : Value → Value
  | .list items => .list (namedList items)
  | .species raw parameters => .species raw (named parameters)
  | .linkage inner => .linkage (named inner)
  | .function native bound => .function ⟨native.name, 0, .host 0⟩ (namedList bound)
  | other => other

def namedList : List Value → List Value
  | [] => []
  | value :: rest => named value :: namedList rest
end

mutual
theorem beq_iff : (a b : Value) → (beq a b ↔ named a = named b)
  | .unit, b | .bool _, b | .int _, b | .double _, b | .string _, b | .type _, b
  | .restriction _, b => by
      cases b <;> simp [beq, named]
  | .list items, b => by
      cases b with
      | list others => simpa [beq, named] using beqList_iff items others
      | _ => simp [beq, named]
  | .species raw parameters, b => by
      cases b with
      | species raw' parameters' => simp [beq, named, beq_iff parameters parameters']
      | _ => simp [beq, named]
  | .linkage inner, b => by
      cases b with
      | linkage inner' => simpa [beq, named] using beq_iff inner inner'
      | _ => simp [beq, named]
  | .function native bound, b => by
      cases b with
      | function native' bound' => simp [beq, named, beqList_iff bound bound']
      | _ => simp [beq, named]

theorem beqList_iff : (as bs : List Value) → (beqList as bs ↔ namedList as = namedList bs)
  | [], bs => by cases bs <;> simp [beqList, namedList]
  | a :: as, bs => by
      cases bs with
      | nil => simp [beqList, namedList]
      | cons b bs => simp [beqList, namedList, beq_iff a b, beqList_iff as bs]
end

/-- Two values are equal if they differ in no more than what their functions compute. -/
theorem beq_eq_named {a b : Value} : a == b ↔ a.named = b.named :=
  beq_iff a b

instance : EquivBEq Value where
  rfl := beq_eq_named.mpr rfl
  symm h := beq_eq_named.mpr (beq_eq_named.mp h).symm
  trans h h' := beq_eq_named.mpr ((beq_eq_named.mp h).trans (beq_eq_named.mp h'))

end Value

theorem Class.beq_iff {a b : Class} : a == b ↔ a.id = b.id := by
  change (a.id == b.id) = true ↔ a.id = b.id
  exact beq_iff_eq

theorem Carrier.beq_iff {a b : Carrier} : a == b ↔ a.id = b.id := by
  change (a.id == b.id) = true ↔ a.id = b.id
  exact beq_iff_eq

theorem Value.beq_option {a b : Option Value} : a == b ↔ a.map named = b.map named := by
  cases a with
  | none => cases b <;> simp
  | some value =>
      cases b with
      | none => simp
      | some value' => simpa using beq_eq_named

namespace Location

/-- What tells a location apart: the number of its class, and for a method the parameters of the
class and the signature. -/
def key : Location → Nat × Option (Option Value × String)
  | .ofClass self => (self.id, none)
  | .method owner parameters signature => (owner.id, some (parameters.map Value.named, signature))

theorem beq_eq_key {a b : Location} : a == b ↔ a.key = b.key := by
  change a.beq b ↔ a.key = b.key
  cases a with
  | ofClass self =>
      cases b with
      | ofClass self' => simp [beq, key, Class.beq_iff]
      | method => simp [beq, key]
  | method owner parameters signature =>
      cases b with
      | ofClass => simp [beq, key]
      | method owner' parameters' signature' =>
          simp [beq, key, Class.beq_iff, Value.beq_option, and_assoc]

instance : EquivBEq Location where
  rfl := beq_eq_key.mpr rfl
  symm h := beq_eq_key.mpr (beq_eq_key.mp h).symm
  trans h h' := beq_eq_key.mpr ((beq_eq_key.mp h).trans (beq_eq_key.mp h'))

end Location

end Specialization
