import Specialization.ClassSpec
import Specialization.Function
import Specialization.Proofs.Value.Equality

/-!
Vocabularies: sets of native functions that are told apart by their names. Values are compared by
the names of their functions, so within one vocabulary equal values are the same value.
-/

namespace Specialization

structure Vocabulary where
  Contains : NativeFunction → Prop
  unique : ∀ a b, Contains a → Contains b → a.name = b.name → a = b

namespace Vocabulary

mutual
/-- All functions in a value are of the vocabulary. -/
def Covers (vocabulary : Vocabulary) : Value → Prop
  | .list items => vocabulary.CoversAll items
  | .species _ parameters => vocabulary.Covers parameters
  | .linkage inner => vocabulary.Covers inner
  | .function native bound => vocabulary.Contains native ∧ vocabulary.CoversAll bound
  | _ => True

def CoversAll (vocabulary : Vocabulary) : List Value → Prop
  | [] => True
  | value :: rest => vocabulary.Covers value ∧ vocabulary.CoversAll rest
end

def CoversOption (vocabulary : Vocabulary) (requested : Option Value) : Prop :=
  ∀ value, requested = some value → vocabulary.Covers value

variable {vocabulary : Vocabulary}

theorem coversAll_iff {values : List Value} :
    vocabulary.CoversAll values ↔ ∀ value ∈ values, vocabulary.Covers value := by
  induction values with
  | nil => simp [CoversAll]
  | cons value rest ih => simp [CoversAll, ih]

theorem coversOption_none : vocabulary.CoversOption none :=
  fun _ h => nomatch h

theorem coversOption_some {value : Value} (h : vocabulary.Covers value) :
    vocabulary.CoversOption (some value) := by
  rintro other ⟨⟩
  exact h

mutual
theorem eq_of_named : (a b : Value) → vocabulary.Covers a → vocabulary.Covers b →
    a.named = b.named → a = b
  | .unit, b, _, _, h | .bool _, b, _, _, h | .int _, b, _, _, h | .double _, b, _, _, h
  | .string _, b, _, _, h | .type _, b, _, _, h | .restriction _, b, _, _, h => by
      cases b <;> simp_all [Value.named]
  | .list items, b, ha, hb, h => by
      cases b with
      | list others =>
          exact congrArg Value.list (eq_of_namedList items others ha hb (Value.list.inj h))
      | _ => simp [Value.named] at h
  | .species raw parameters, b, ha, hb, h => by
      cases b with
      | species raw' parameters' =>
          obtain ⟨rfl, hparameters⟩ := Value.species.inj h
          rw [eq_of_named parameters parameters' ha hb hparameters]
      | _ => simp [Value.named] at h
  | .linkage inner, b, ha, hb, h => by
      cases b with
      | linkage inner' =>
          exact congrArg Value.linkage (eq_of_named inner inner' ha hb (Value.linkage.inj h))
      | _ => simp [Value.named] at h
  | .function native bound, b, ha, hb, h => by
      cases b with
      | function native' bound' =>
          obtain ⟨hnative, hbound⟩ := Value.function.inj h
          have hsame : native = native' :=
            vocabulary.unique native native' ha.1 hb.1 (NativeFunction.mk.inj hnative).1
          rw [hsame, eq_of_namedList bound bound' ha.2 hb.2 hbound]
      | _ => simp [Value.named] at h

theorem eq_of_namedList : (as bs : List Value) → vocabulary.CoversAll as →
    vocabulary.CoversAll bs → Value.namedList as = Value.namedList bs → as = bs
  | [], bs, _, _, h => by
      cases bs with
      | nil => rfl
      | cons b bs => simp [Value.namedList] at h
  | a :: as, bs, ha, hb, h => by
      cases bs with
      | nil => simp [Value.namedList] at h
      | cons b bs =>
          obtain ⟨hvalue, hrest⟩ := List.cons.inj h
          rw [eq_of_named a b ha.1 hb.1 hvalue, eq_of_namedList as bs ha.2 hb.2 hrest]
end

/-- Equal values of one vocabulary are the same. -/
theorem eq_of_beq {a b : Value} (ha : vocabulary.Covers a) (hb : vocabulary.Covers b)
    (h : a == b) : a = b :=
  eq_of_named a b ha hb (Value.beq_eq_named.mp h)

theorem eq_of_beq_option {a b : Option Value} (ha : vocabulary.CoversOption a)
    (hb : vocabulary.CoversOption b) (h : a == b) : a = b := by
  cases a with
  | none =>
      cases b with
      | none => rfl
      | some b => cases h
  | some a =>
      cases b with
      | none => cases h
      | some b =>
          rw [Option.some_beq_some] at h
          rw [eq_of_beq (ha a rfl) (hb b rfl) h]

theorem covers_eraseSlot {requested : Option Value} {fallback : Value}
    (hrequested : vocabulary.CoversOption requested) (hfallback : vocabulary.Covers fallback) :
    vocabulary.Covers (eraseSlot requested fallback) := by
  cases requested with
  | none => exact hfallback
  | some value =>
      rw [eraseSlot]
      split
      · exact hrequested value rfl
      · exact hfallback

theorem coversAll_eraseSlots {given slots : List Value} (hgiven : vocabulary.CoversAll given)
    (hslots : vocabulary.CoversAll slots) : vocabulary.CoversAll (eraseSlots given slots) := by
  fun_induction eraseSlots given slots with
  | case1 => trivial
  | case2 fallback rest ih => exact ⟨hslots.1, ih trivial hslots.2⟩
  | case3 value given fallback rest ih =>
      exact ⟨covers_eraseSlot (coversOption_some hgiven.1) hslots.1, ih hgiven.2 hslots.2⟩

/-- Erasure takes what it gives from the request and from the default. -/
theorem covers_erase {requested : Option Value} {default : Value}
    (hrequested : vocabulary.CoversOption requested) (hdefault : vocabulary.Covers default) :
    vocabulary.Covers (erase requested default) := by
  cases hslots : default.asList? with
  | none =>
      rw [erase_single hslots]
      exact covers_eraseSlot hrequested hdefault
  | some slots =>
      obtain rfl := Value.eq_list_of_asList? hslots
      rw [erase_list]
      apply coversAll_eraseSlots ?_ hdefault
      cases requested with
      | none => trivial
      | some value =>
          cases value with
          | list items => exact hrequested _ rfl
          | _ => trivial

/-- Default parameters are types. -/
theorem coversOption_defaultParameters (descriptors : List Descriptor) :
    vocabulary.CoversOption (defaultParameters descriptors) := by
  intro value hvalue
  match descriptors with
  | [] => cases hvalue
  | [descriptor] =>
      cases hvalue
      trivial
  | first :: second :: rest =>
      cases hvalue
      apply coversAll_iff.mpr
      intro slot hslot
      obtain ⟨descriptor, _, rfl⟩ := List.mem_map.mp hslot
      trivial

end Vocabulary

end Specialization
