import Specialization.Json.Record
import Specialization.Proofs.Json.Bounded

/-!
Records that are read back. A field reads as what was written there, when it was written once under
its name: a field that may be left out is written all the same. A record of parts that can be written
can be written, and what is read from a bounded document is read from bounded parts of it, by name
or by position.
-/

namespace Specialization.Json

variable {α : Type} {encode : α → Json} {decode : Json → Option α}
  {fields : List (String × Json)} {name : String}

/-- Text that may be left out is written as itself or as null. -/
theorem nullable_written {value : Option String}
    (hfield : occurrences fields name = [ofOption .string value]) :
    nullable fields name asString? = some value := by
  rw [nullable, defaulted, hfield]
  cases value <;> rfl

theorem listOf_array_map (hread : ∀ a, decode (encode a) = some a) (values : List α) :
    listOf decode (.array (values.map encode)) = some values := by
  rw [listOf, asArray?, Option.bind_some]
  induction values with
  | nil => rfl
  | cons a rest ih =>
      rw [List.map_cons, List.mapM_cons, hread a, ih]
      rfl

theorem listOf_strings (texts : List String) : listOf asString? (strings texts) = some texts :=
  listOf_array_map (fun text : String => (rfl : asString? (.string text) = some text)) texts

theorem writable_array_map {values : List α} (h : ∀ a ∈ values, (encode a).Writable) :
    (Json.array (values.map encode)).Writable :=
  .array fun _ hitem => by
    obtain ⟨a, ha, rfl⟩ := List.mem_map.mp hitem
    exact h a ha

theorem writable_strings (texts : List String) : (strings texts).Writable :=
  writable_array_map fun _ _ => .string _

theorem writable_ofOption_string (value : Option String) : (ofOption .string value).Writable := by
  cases value with
  | none => exact .null
  | some value => exact .string value

variable {skips : Prop}

theorem eq_object_of_asObject? {document : Json} (h : document.asObject? = some fields) :
    document = .object fields := by
  cases document <;> cases h
  rfl

/-- The fields of a record are bounded where its document is, whether they are given by their names
or by their position. -/
theorem bounded_of_record? {names : List String} {document : Json}
    (hbounded : document.Bounded skips) (h : document.record? names = some fields) :
    (Json.object fields).Bounded skips := by
  cases hbounded with
  | object hfields =>
      cases h
      exact .object hfields
  | array hitems =>
      obtain ⟨-, ⟨⟩⟩ := Option.ite_none_right_eq_some.mp h
      exact .object fun field hfield => hitems field.2 (List.of_mem_zip hfield).2
  | _ => cases h

theorem bounded_of_mem_occurrences (h : (Json.object fields).Bounded skips) {value : Json}
    (hvalue : value ∈ occurrences fields name) : value.Bounded skips := by
  cases h with
  | object hfields =>
      obtain ⟨field, hfield, rfl⟩ := List.mem_map.mp hvalue
      exact hfields field (List.mem_filter.mp hfield).1

theorem mem_occurrences_of_required {a : α} (h : required fields name decode = some a) :
    ∃ value ∈ occurrences fields name, decode value = some a := by
  unfold required at h
  split at h
  · rename_i value hvalue
    exact ⟨value, hvalue ▸ List.mem_singleton_self value, h⟩
  · cases h

theorem mem_occurrences_of_defaulted {a default : α}
    (h : defaulted fields name default decode = some a) :
    a = default ∨ ∃ value ∈ occurrences fields name, decode value = some a := by
  unfold defaulted at h
  split at h
  · exact Or.inl (Option.some.inj h).symm
  · rename_i value hvalue
    exact Or.inr ⟨value, hvalue ▸ List.mem_singleton_self value, h⟩
  · cases h

theorem mem_of_mapM {items : List Json} {values : List α} (h : items.mapM decode = some values) :
    ∀ a ∈ values, ∃ item ∈ items, decode item = some a := by
  induction items generalizing values with
  | nil =>
      cases h
      exact fun _ ha => nomatch ha
  | cons item items ih =>
      rw [List.mapM_cons] at h
      obtain ⟨first, hfirst, h⟩ := Option.bind_eq_some_iff.mp h
      obtain ⟨others, hothers, h⟩ := Option.bind_eq_some_iff.mp h
      cases h
      intro a ha
      rcases List.mem_cons.mp ha with rfl | ha
      · exact ⟨item, List.mem_cons_self, hfirst⟩
      · obtain ⟨found, hfound, hdecode⟩ := ih hothers a ha
        exact ⟨found, List.mem_cons_of_mem _ hfound, hdecode⟩

/-- What holds of all that is decoded from bounded documents holds of all that is read from a list in
a field of one. -/
theorem forall_mem_of_defaulted_listOf {P : α → Prop} {values : List α}
    (hdecode : ∀ {document a}, document.Bounded skips → decode document = some a → P a)
    (hbounded : (Json.object fields).Bounded skips)
    (h : defaulted fields name [] (listOf decode) = some values) : ∀ a ∈ values, P a := by
  rcases mem_occurrences_of_defaulted h with rfl | ⟨value, hvalue, hlist⟩
  · exact fun _ ha => nomatch ha
  · obtain ⟨items, hitems, hmap⟩ := Option.bind_eq_some_iff.mp hlist
    intro a ha
    obtain ⟨item, hitem, ha⟩ := mem_of_mapM hmap a ha
    cases bounded_of_mem_occurrences hbounded hvalue <;> cases hitems
    rename_i hbounded
    exact hdecode (hbounded item hitem) ha

end Specialization.Json
