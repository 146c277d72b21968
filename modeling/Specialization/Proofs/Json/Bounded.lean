import Mathlib.Algebra.Ring.Int.Defs
import Specialization.Json.Reader

/-!
Bounded documents: their integers have 64 bits, and their doubles are finite. Whatever is read from a
text is bounded, since a literal for any other number is unrepresentable.
-/

namespace Specialization.Json

/-- The documents whose integers have 64 bits and whose doubles are finite. If `skips` holds, some
literals may be unrepresentable. -/
inductive Bounded (skips : Prop) : Json → Prop
  | null : Bounded skips .null
  | bool (value : Bool) : Bounded skips (.bool value)
  | integer {value : Int} (hlow : -2 ^ 63 ≤ value) (hhigh : value < 2 ^ 64) :
      Bounded skips (.integer value)
  | double {value : Double} (hfinite : value.isFinite) : Bounded skips (.double value)
  | string (value : String) : Bounded skips (.string value)
  | unrepresentable (hskips : skips) : Bounded skips .unrepresentable
  | array {items : List Json} (hitems : ∀ item ∈ items, Bounded skips item) :
      Bounded skips (.array items)
  | object {fields : List (String × Json)} (hfields : ∀ field ∈ fields, Bounded skips field.2) :
      Bounded skips (.object fields)

/-- A document that can be written: it is bounded, and every literal denotes a value. -/
abbrev Writable (document : Json) : Prop :=
  document.Bounded False

theorem bounded_ofNumeral (negative : Bool) (whole : List Char) (fraction : Option (List Char))
    (power : Option Int) : (ofNumeral negative whole fraction power).Bounded True := by
  unfold ofNumeral
  simp only [Nat.pow_eq]
  split
  · rename_i hsize
    simp only [Bool.and_eq_true, decide_eq_true_eq] at hsize
    exact .integer (by omega) (by omega)
  split
  · rename_i hsize
    simp only [Bool.and_eq_true, decide_eq_true_eq] at hsize
    exact .integer (by omega) (by omega)
  split
  · exact .double ‹_›
  · exact .unrepresentable trivial

theorem bounded_of_readNumber {text rest : List Char} {document : Json}
    (h : readNumber text = some (document, rest)) : document.Bounded True := by
  unfold readNumber at h
  dsimp only at h
  -- Without or with a sign, the numeral is read in the same way.
  split at h
  all_goals
    split at h
    · cases h
    · obtain ⟨⟨fraction, afterFraction⟩, -, h⟩ := Option.bind_eq_some_iff.mp h
      obtain ⟨⟨power, afterPower⟩, -, h⟩ := Option.bind_eq_some_iff.mp h
      cases h
      exact bounded_ofNumeral _ _ _ _

section Step

variable {fuel : Nat} {text rest : List Char}

theorem bounded_of_readItems_succ {items : List Json}
    (hvalue : ∀ {text document rest}, readValue fuel text = some (document, rest) →
      document.Bounded True)
    (hitems : ∀ {text items rest}, readItems fuel text = some (items, rest) →
      ∀ item ∈ items, item.Bounded True)
    (h : readItems (fuel + 1) text = some (items, rest)) : ∀ item ∈ items, item.Bounded True := by
  rw [readItems] at h
  obtain ⟨⟨item, afterItem⟩, hitem, h⟩ := Option.bind_eq_some_iff.mp h
  have hbounded := hvalue hitem
  dsimp only at h
  split at h
  · obtain ⟨⟨others, afterOthers⟩, hothers, h⟩ := Option.bind_eq_some_iff.mp h
    cases h
    exact List.forall_mem_cons.mpr ⟨hbounded, hitems hothers⟩
  · cases h
    exact List.forall_mem_singleton.mpr hbounded
  · cases h

theorem bounded_of_readFields_succ {fields : List (String × Json)}
    (hvalue : ∀ {text document rest}, readValue fuel text = some (document, rest) →
      document.Bounded True)
    (hfields : ∀ {text fields rest}, readFields fuel text = some (some fields, rest) →
      ∀ field ∈ fields, field.2.Bounded True)
    (h : readFields (fuel + 1) text = some (some fields, rest)) :
    ∀ field ∈ fields, field.2.Bounded True := by
  unfold readFields at h
  dsimp only at h
  split at h
  · obtain ⟨⟨name, afterName⟩, -, h⟩ := Option.bind_eq_some_iff.mp h
    dsimp only at h
    split at h
    · obtain ⟨⟨value, afterValue⟩, hread, h⟩ := Option.bind_eq_some_iff.mp h
      have hbounded := hvalue hread
      dsimp only at h
      split at h
      · obtain ⟨⟨others, afterOthers⟩, hothers, h⟩ := Option.bind_eq_some_iff.mp h
        obtain ⟨field, hfield, h⟩ :=
          Option.bind_eq_some_iff.mp (Prod.mk.inj (Option.some.inj h)).1
        obtain ⟨_, rfl, rfl⟩ := Option.map_eq_some_iff.mp hfield
        obtain ⟨others, rfl, rfl⟩ := Option.map_eq_some_iff.mp h
        exact List.forall_mem_cons.mpr ⟨hbounded, hfields hothers⟩
      · obtain ⟨field, hfield, rfl⟩ :=
          Option.map_eq_some_iff.mp (Prod.mk.inj (Option.some.inj h)).1
        obtain ⟨_, rfl, rfl⟩ := Option.map_eq_some_iff.mp hfield
        exact List.forall_mem_singleton.mpr hbounded
      · cases h
    · cases h
  · cases h

theorem bounded_of_readValue_succ {document : Json}
    (hitems : ∀ {text items rest}, readItems fuel text = some (items, rest) →
      ∀ item ∈ items, item.Bounded True)
    (hfields : ∀ {text fields rest}, readFields fuel text = some (some fields, rest) →
      ∀ field ∈ fields, field.2.Bounded True)
    (h : readValue (fuel + 1) text = some (document, rest)) : document.Bounded True := by
  unfold readValue at h
  dsimp only at h
  split at h
  · cases h
    exact .null
  · cases h
    exact .bool true
  · cases h
    exact .bool false
  · obtain ⟨⟨contents, afterContents⟩, -, h⟩ := Option.map_eq_some_iff.mp h
    cases contents with
    | some value =>
        cases h
        exact .string value
    | none =>
        cases h
        exact .unrepresentable trivial
  · split at h
    · cases h
      exact .array fun _ hitem => nomatch hitem
    · obtain ⟨⟨items, afterItems⟩, hread, h⟩ := Option.map_eq_some_iff.mp h
      cases h
      exact .array (hitems hread)
  · split at h
    · cases h
      exact .object fun _ hfield => nomatch hfield
    · obtain ⟨⟨fields, afterFields⟩, hread, h⟩ := Option.map_eq_some_iff.mp h
      cases fields with
      | some fields =>
          cases h
          exact .object (hfields hread)
      | none =>
          cases h
          exact .unrepresentable trivial
  · exact bounded_of_readNumber h

end Step

/-- Whatever is read is bounded: by induction on the fuel, for documents, items and fields at once. -/
theorem bounded_of_read (fuel : Nat) :
    (∀ {text document rest}, readValue fuel text = some (document, rest) →
      document.Bounded True) ∧
    (∀ {text items rest}, readItems fuel text = some (items, rest) →
      ∀ item ∈ items, item.Bounded True) ∧
    ∀ {text fields rest}, readFields fuel text = some (some fields, rest) →
      ∀ field ∈ fields, field.2.Bounded True := by
  induction fuel with
  | zero => refine ⟨fun h => ?_, fun h => ?_, fun h => ?_⟩ <;> cases h
  | succ fuel ih =>
      obtain ⟨hvalue, hitems, hfields⟩ := ih
      exact ⟨bounded_of_readValue_succ hitems hfields, bounded_of_readItems_succ hvalue hitems,
        bounded_of_readFields_succ hvalue hfields⟩

theorem bounded_of_parse? {text : String} {document : Json} (h : parse? text = some document) :
    document.Bounded True := by
  obtain ⟨⟨found, rest⟩, hread, h⟩ := Option.bind_eq_some_iff.mp h
  dsimp only at h
  split at h
  · cases h
    exact (bounded_of_read _).1 hread
  · cases h

end Specialization.Json
