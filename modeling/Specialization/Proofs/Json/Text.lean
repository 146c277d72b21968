import Specialization.Proofs.Json.Bounded
import Specialization.Proofs.Json.Contents
import Specialization.Proofs.Json.Number

/-!
Documents are read back from their text. A document that can be written is read from its text as it
was, whatever follows that text.
-/

namespace Specialization.Json

open Decimal

/-- What a document may start with: no blank, and nothing that closes an array. -/
def Opens (text : List Char) : Prop :=
  ∃ c more, text = c :: more ∧ isSpace c = false ∧ c ≠ ']'

/-- A document is read back from its text, given that text and some more fuel. -/
structure ReadBack (document : Json) : Prop where
  opens : Opens document.render.toList
  reads : ∀ {fuel : Nat} {rest : List Char}, document.render.toList.length < fuel → Ends rest →
    readValue fuel (document.render.toList ++ rest) = some (document, rest)

variable {fuel : Nat} {rest : List Char}

theorem Opens.skipSpace {text : List Char} (h : Opens text) : skipSpace text = text := by
  obtain ⟨c, more, rfl, hspace, -⟩ := h
  simp [Json.skipSpace, hspace]

theorem Opens.append {text : List Char} (h : Opens text) (more : List Char) :
    Opens (text ++ more) := by
  obtain ⟨c, text, rfl, hc⟩ := h
  exact ⟨c, text ++ more, rfl, hc⟩

theorem ends_nil : Ends [] := fun _ hc => nomatch hc

theorem ends_cons {c : Char} (hc : c ∈ [',', ']', '\x7d']) : Ends (c :: rest) := by
  rintro _ ⟨⟩
  simp only [List.mem_cons, List.not_mem_nil, or_false] at hc
  rcases hc with rfl | rfl | rfl <;> decide

theorem toList_intercalate_cons (text next : String) (others : List String) :
    (",".intercalate (text :: next :: others)).toList =
      text.toList ++ ',' :: (",".intercalate (next :: others)).toList := by
  rw [String.intercalate_cons_cons, String.toList_append, String.toList_append, List.append_assoc]
  rfl

theorem readValue_number {c : Char} {more : List Char} (hc : isDigit c ∨ c = '-') :
    readValue (fuel + 1) (c :: more) = readNumber (c :: more) := by
  have hother : c ≠ 'n' ∧ c ≠ 't' ∧ c ≠ 'f' ∧ c ≠ '"' ∧ c ≠ '[' ∧ c ≠ '\x7b' := by
    refine ⟨?_, ?_, ?_, ?_, ?_, ?_⟩ <;> rintro rfl <;> revert hc <;> decide
  obtain ⟨hn, ht, hf, hquote, hbracket, hbrace⟩ := hother
  simp [readValue, hn, ht, hf, hquote, hbracket, hbrace]

theorem readBack_of_readNumber {document : Json} {c : Char} {more : List Char}
    (htext : document.render.toList = c :: more) (hc : isDigit c ∨ c = '-')
    (hread : ∀ {rest}, Ends rest →
      readNumber (document.render.toList ++ rest) = some (document, rest)) :
    document.ReadBack where
  opens := by
    have hother : c ≠ ' ' ∧ c ≠ '\n' ∧ c ≠ '\t' ∧ c ≠ '\r' ∧ c ≠ ']' := by
      refine ⟨?_, ?_, ?_, ?_, ?_⟩ <;> rintro rfl <;> revert hc <;> decide
    obtain ⟨hspace, hline, htab, hreturn, hbracket⟩ := hother
    exact ⟨c, more, htext, by simp [isSpace, hspace, hline, htab, hreturn], hbracket⟩
  reads hfuel hrest := by
    obtain ⟨fuel, rfl⟩ := Nat.exists_eq_add_of_lt hfuel
    rw [← hread hrest, htext, List.cons_append]
    exact readValue_number hc

theorem readBack_integer {value : Int} (hlow : -2 ^ 63 ≤ value) (hhigh : value < 2 ^ 64) :
    (Json.integer value).ReadBack := by
  have htext : (Json.integer value).render.toList = signed value := String.toList_ofList
  obtain ⟨c, more, hsigned, hc⟩ : ∃ c more, signed value = c :: more ∧ (isDigit c ∨ c = '-') := by
    unfold signed
    split
    · exact ⟨'-', _, rfl, Or.inr rfl⟩
    · obtain ⟨c, more, hdigits, hc, -⟩ :=
        (allDigits_digits value.natAbs).exists_cons (digits_ne_nil value.natAbs)
      exact ⟨c, more, hdigits, Or.inl hc⟩
  refine readBack_of_readNumber (htext.trans hsigned) hc fun hrest => ?_
  rw [htext]
  exact readNumber_integer hlow hhigh hrest

theorem readBack_double {value : Double} (hfinite : value.isFinite) :
    (Json.double value).ReadBack := by
  have htext : (Json.double value).render.toList = value.text.toList := by
    rw [render, if_pos hfinite]
  obtain ⟨numeral, hnumeral, hformed, -⟩ := Double.text_eq hfinite
  obtain ⟨c, more, hsigned, hc⟩ :
      ∃ c more, value.text.toList = c :: more ∧ (isDigit c ∨ c = '-') := by
    rw [hnumeral]
    cases value.isNegative with
    | true => exact ⟨'-', _, rfl, Or.inr rfl⟩
    | false =>
        obtain ⟨c, more, hwhole, hc, -⟩ := hformed.whole.exists_cons hformed.nonempty
        exact ⟨c, _, congrArg (· ++ _) hwhole, Or.inl hc⟩
  refine readBack_of_readNumber (htext.trans hsigned) hc fun hrest => ?_
  rw [htext]
  exact readNumber_double hfinite hrest

theorem stringText_toList (text : String) :
    (stringText text).toList = '"' :: (text.toList.flatMap escapedChar ++ ['"']) :=
  String.toList_ofList

theorem readBack_string (value : String) : (Json.string value).ReadBack where
  opens := ⟨'"', _, stringText_toList value, rfl, by decide⟩
  reads hfuel _ := by
    obtain ⟨fuel, rfl⟩ := Nat.exists_eq_add_of_lt hfuel
    rw [render, stringText_toList, List.cons_append, List.append_assoc]
    simp [readValue, readString_escaped]

theorem readBack_null : Json.null.ReadBack where
  opens := ⟨'n', _, rfl, rfl, by decide⟩
  reads hfuel _ := by
    obtain ⟨fuel, rfl⟩ := Nat.exists_eq_add_of_lt hfuel
    rfl

theorem readBack_bool (value : Bool) : (Json.bool value).ReadBack where
  opens := by
    cases value with
    | true => exact ⟨'t', _, rfl, rfl, by decide⟩
    | false => exact ⟨'f', _, rfl, rfl, by decide⟩
  reads hfuel _ := by
    obtain ⟨fuel, rfl⟩ := Nat.exists_eq_add_of_lt hfuel
    cases value <;> rfl

/-- The text of the items of an array. -/
def itemsText (items : List Json) : List Char :=
  (",".intercalate (renderItems items)).toList

theorem itemsText_cons (item second : Json) (items : List Json) :
    itemsText (item :: second :: items) =
      item.render.toList ++ ',' :: itemsText (second :: items) :=
  toList_intercalate_cons _ _ _

theorem opens_itemsText {item : Json} (hitem : item.ReadBack) (items : List Json) :
    Opens (itemsText (item :: items)) := by
  cases items with
  | nil => exact hitem.opens
  | cons second items => exact itemsText_cons item second items ▸ hitem.opens.append _

theorem readItems_last {item : Json} {text : List Char}
    (hread : readValue fuel text = some (item, ']' :: rest)) :
    readItems (fuel + 1) text = some ([item], rest) := by
  rw [readItems, hread]
  rfl

theorem readItems_more {item : Json} {items : List Json} {text others : List Char}
    (hread : readValue fuel text = some (item, ',' :: others))
    (hothers : readItems fuel (skipSpace others) = some (items, rest)) :
    readItems (fuel + 1) text = some (item :: items, rest) := by
  have hcomma : skipSpace (',' :: others) = ',' :: others := rfl
  rw [readItems, hread]
  simp [hcomma, hothers]

/-- The items of an array that is not empty are read back up to its end. -/
theorem readItems_itemsText {item : Json} {items : List Json}
    (hitems : ∀ other ∈ item :: items, other.ReadBack)
    (hfuel : (itemsText (item :: items)).length + 2 ≤ fuel) :
    readItems fuel (itemsText (item :: items) ++ ']' :: rest) = some (item :: items, rest) := by
  obtain ⟨fuel, rfl⟩ := Nat.exists_eq_add_of_le' (Nat.le_trans (Nat.le_add_left 1 _) hfuel)
  obtain ⟨hitem, hothers⟩ := List.forall_mem_cons.mp hitems
  induction items generalizing item fuel with
  | nil => exact readItems_last (hitem.reads (Nat.le_of_succ_le_succ hfuel) (ends_cons (by decide)))
  | cons second items ih =>
      rw [itemsText_cons, List.length_append, List.length_cons] at hfuel
      rw [itemsText_cons, List.append_assoc, List.cons_append]
      refine readItems_more (hitem.reads (by omega) (ends_cons (by decide))) ?_
      rw [((opens_itemsText (hothers second List.mem_cons_self) items).append _).skipSpace]
      obtain ⟨fuel, rfl⟩ : ∃ n, fuel = n + 1 := ⟨fuel - 1, by omega⟩
      obtain ⟨hsecond, hrest⟩ := List.forall_mem_cons.mp hothers
      exact ih hothers fuel (by omega) hsecond hrest

theorem readValue_items {items : List Json} {text : List Char} (hopens : Opens text)
    (hread : readItems fuel text = some (items, rest)) :
    readValue (fuel + 1) ('[' :: text) = some (.array items, rest) := by
  have hspace := hopens.skipSpace
  obtain ⟨c, more, rfl, -, hbracket⟩ := hopens
  simp [readValue, hspace, hbracket, hread]

theorem readBack_array {items : List Json} (hitems : ∀ item ∈ items, item.ReadBack) :
    (Json.array items).ReadBack := by
  have htext : (Json.array items).render.toList = '[' :: (itemsText items ++ [']']) := by
    rw [render, String.toList_append, String.toList_append]
    rfl
  refine ⟨⟨'[', _, htext, rfl, by decide⟩, fun {fuel rest} hfuel _ => ?_⟩
  rw [htext] at hfuel ⊢
  rw [List.length_cons, List.length_append, List.length_singleton] at hfuel
  rw [List.cons_append, List.append_assoc, List.singleton_append]
  obtain ⟨fuel, rfl⟩ : ∃ n, fuel = n + 1 := ⟨fuel - 1, by omega⟩
  cases items with
  | nil => rfl
  | cons item items =>
      exact readValue_items ((opens_itemsText (hitems item List.mem_cons_self) items).append _)
        (readItems_itemsText hitems (by omega))

/-- The text of the fields of an object. -/
def fieldsText (fields : List (String × Json)) : List Char :=
  (",".intercalate (renderFields fields)).toList

def fieldText (field : String × Json) : List Char :=
  '"' :: (field.1.toList.flatMap escapedChar ++ '"' :: ':' :: field.2.render.toList)

theorem fieldText_eq (field : String × Json) :
    (stringText field.1 ++ ":" ++ field.2.render).toList = fieldText field := by
  simp [fieldText, stringText_toList]

theorem fieldsText_singleton (field : String × Json) : fieldsText [field] = fieldText field :=
  fieldText_eq field

theorem fieldsText_cons (field second : String × Json) (fields : List (String × Json)) :
    fieldsText (field :: second :: fields) =
      fieldText field ++ ',' :: fieldsText (second :: fields) := by
  rw [← fieldText_eq]
  exact toList_intercalate_cons _ _ _

/-- A field is read back from its text, and then the object is at its end or goes on. -/
theorem readFields_last {field : String × Json} {text : List Char} (hopens : Opens text)
    (hread : readValue fuel text = some (field.2, '\x7d' :: rest)) :
    readFields (fuel + 1) ('"' :: (field.1.toList.flatMap escapedChar ++ '"' :: ':' :: text)) =
      some (some [field], rest) := by
  have hcolon : skipSpace (':' :: text) = ':' :: text := rfl
  have hbrace : skipSpace ('\x7d' :: rest) = '\x7d' :: rest := rfl
  have hspace := hopens.skipSpace
  rw [readFields, readString_escaped]
  simp [hcolon, hspace, hread, hbrace]

theorem readFields_more {field : String × Json} {fields : List (String × Json)}
    {text others : List Char} (hopens : Opens text)
    (hread : readValue fuel text = some (field.2, ',' :: others))
    (hothers : readFields fuel (skipSpace others) = some (some fields, rest)) :
    readFields (fuel + 1) ('"' :: (field.1.toList.flatMap escapedChar ++ '"' :: ':' :: text)) =
      some (some (field :: fields), rest) := by
  have hcolon : skipSpace (':' :: text) = ':' :: text := rfl
  have hcomma : skipSpace (',' :: others) = ',' :: others := rfl
  have hspace := hopens.skipSpace
  rw [readFields, readString_escaped]
  simp [hcolon, hspace, hread, hcomma, hothers]

theorem fieldsText_opens (field : String × Json) (fields : List (String × Json)) :
    ∃ more, fieldsText (field :: fields) = '"' :: more := by
  cases fields with
  | nil => exact ⟨_, fieldsText_singleton field⟩
  | cons second fields => exact ⟨_, fieldsText_cons field second fields⟩

/-- The fields of an object that is not empty are read back up to its end. -/
theorem readFields_fieldsText (rest : List Char) {field : String × Json} {fields : List (String × Json)}
    (hfields : ∀ other ∈ field :: fields, other.2.ReadBack)
    (hfuel : (fieldsText (field :: fields)).length + 2 ≤ fuel) :
    readFields fuel (fieldsText (field :: fields) ++ '\x7d' :: rest) =
      some (some (field :: fields), rest) := by
  obtain ⟨fuel, rfl⟩ := Nat.exists_eq_add_of_le' (Nat.le_trans (Nat.le_add_left 1 _) hfuel)
  obtain ⟨hfield, hothers⟩ := List.forall_mem_cons.mp hfields
  induction fields generalizing field fuel with
  | nil =>
      rw [fieldsText_singleton, fieldText] at hfuel ⊢
      simp only [List.length_cons, List.length_append] at hfuel
      simp only [List.cons_append, List.append_assoc]
      exact readFields_last (hfield.opens.append _)
        (hfield.reads (by omega) (ends_cons (by decide)))
  | cons second fields ih =>
      rw [fieldsText_cons, fieldText] at hfuel ⊢
      simp only [List.length_cons, List.length_append] at hfuel
      simp only [List.cons_append, List.append_assoc]
      refine readFields_more (hfield.opens.append _)
        (hfield.reads (by omega) (ends_cons (by decide))) ?_
      obtain ⟨more, hopens⟩ := fieldsText_opens second fields
      have hspace : skipSpace (fieldsText (second :: fields) ++ '\x7d' :: rest) =
          fieldsText (second :: fields) ++ '\x7d' :: rest := by
        rw [hopens]
        rfl
      rw [hspace]
      obtain ⟨fuel, rfl⟩ : ∃ n, fuel = n + 1 := ⟨fuel - 1, by omega⟩
      obtain ⟨hsecond, hrest⟩ := List.forall_mem_cons.mp hothers
      exact ih hothers fuel (by omega) hsecond hrest

theorem readValue_fields {fields : List (String × Json)} {text : List Char}
    (hread : readFields fuel ('"' :: text) = some (some fields, rest)) :
    readValue (fuel + 1) ('\x7b' :: '"' :: text) = some (.object fields, rest) := by
  have hspace : skipSpace ('"' :: text) = '"' :: text := rfl
  simp [readValue, hspace, hread]

theorem readBack_object {fields : List (String × Json)}
    (hfields : ∀ field ∈ fields, field.2.ReadBack) : (Json.object fields).ReadBack := by
  have htext : (Json.object fields).render.toList = '\x7b' :: (fieldsText fields ++ ['\x7d']) := by
    rw [render, String.toList_append, String.toList_append]
    rfl
  refine ⟨⟨'\x7b', _, htext, rfl, by decide⟩, fun {fuel rest} hfuel _ => ?_⟩
  rw [htext] at hfuel ⊢
  rw [List.length_cons, List.length_append, List.length_singleton] at hfuel
  rw [List.cons_append, List.append_assoc, List.singleton_append]
  obtain ⟨fuel, rfl⟩ : ∃ n, fuel = n + 1 := ⟨fuel - 1, by omega⟩
  cases fields with
  | nil => rfl
  | cons field fields =>
      have hread := readFields_fieldsText rest hfields (Nat.le_of_lt_succ hfuel)
      obtain ⟨more, hopens⟩ := fieldsText_opens field fields
      rw [hopens] at hread ⊢
      exact readValue_fields hread

theorem Writable.readBack {document : Json} (h : document.Writable) : document.ReadBack := by
  induction h with
  | null => exact readBack_null
  | bool value => exact readBack_bool value
  | integer hlow hhigh => exact readBack_integer hlow hhigh
  | double hfinite => exact readBack_double hfinite
  | string value => exact readBack_string value
  | unrepresentable hskips => exact hskips.elim
  | array _ ih => exact readBack_array ih
  | object _ ih => exact readBack_object ih

/-- A document that can be written is read back from its text. -/
theorem parse?_render {document : Json} (h : document.Writable) :
    parse? document.render = some document := by
  have hspace := h.readBack.opens.skipSpace
  have hread := h.readBack.reads (Nat.lt_succ_self _) ends_nil
  rw [List.append_nil] at hread
  unfold parse?
  simp only [hspace, hread]
  rfl

end Specialization.Json
