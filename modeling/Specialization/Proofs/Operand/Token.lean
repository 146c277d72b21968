import Mathlib.Data.List.DropRight
import Specialization.Operand.Token
import Specialization.Proofs.Decimal.Digits

/-!
Which operands their own text gives back. A name is read back if nothing of it is trimmed away, text
if none of its characters is escaped, since tokens know no escapes, and an integer always. A run of
digits is the integer that it denotes, however many zeros it starts with.
-/

namespace Specialization

namespace Text

/-- Nothing is trimmed from the end of a text whose last character is not blank. -/
theorem trimEnd_eq_self {text : List Char} :
    trimEnd text = text ↔ ∀ c ∈ text.getLast?, isBlank c = false := by
  have hself : trimEnd text = text ↔ ∀ h : text ≠ [], ¬ isBlank (text.getLast h) :=
    List.rdropWhile_eq_self_iff
  rw [hself]
  constructor
  · intro h c hc
    obtain ⟨hne, rfl⟩ := List.mem_getLast?_eq_getLast hc
    simpa using h hne
  · intro h hne
    simpa using h _ (List.getLast?_eq_some_getLast hne)

/-- Trimming stops at a character that is not blank. -/
theorem trimEnd_cons {c : Char} (h : isBlank c = false) (text : List Char) :
    trimEnd (c :: text) = c :: trimEnd text := by
  rw [trimEnd, trimEnd, List.reverse_cons, List.dropWhile_append]
  split
  · rename_i hblank
    rw [List.isEmpty_iff.mp hblank]
    simp [h]
  · simp

theorem trimEnd_append_mark {mark : List Char} (hmark : ∀ c ∈ mark, isBlank c = false)
    (text : List Char) : trimEnd (mark ++ text) = mark ++ trimEnd text := by
  induction mark with
  | nil => rfl
  | cons c rest ih =>
      rw [List.cons_append, trimEnd_cons (hmark c List.mem_cons_self),
        ih fun d hd => hmark d (List.mem_cons_of_mem c hd), List.cons_append]

/-- What follows a mark is trimmed at its end only. -/
theorem trim_append_mark {mark : List Char} (hmark : ∀ c ∈ mark, isBlank c = false)
    (hne : mark ≠ []) (text : List Char) : trim (mark ++ text) = mark ++ trimEnd text := by
  obtain ⟨c, rest, rfl⟩ := List.exists_cons_of_ne_nil hne
  have hstart : trimStart (c :: rest ++ text) = c :: rest ++ text := by
    rw [List.cons_append, trimStart, List.dropWhile_cons_of_neg]
    simpa using hmark c List.mem_cons_self
  rw [trim, hstart, trimEnd_append_mark hmark]

/-- Blanks around a text without blanks at its ends are trimmed, and nothing else. -/
theorem trim_padded {before text after : List Char} (hbefore : ∀ c ∈ before, isBlank c)
    (hafter : ∀ c ∈ after, isBlank c) (hne : text ≠ [])
    (htext : ∀ c ∈ text, isBlank c = false) : trim (before ++ text ++ after) = text := by
  obtain ⟨c, rest, rfl⟩ := List.exists_cons_of_ne_nil hne
  have hstart : trimStart (before ++ (c :: rest) ++ after) = c :: rest ++ after := by
    rw [List.append_assoc, trimStart, List.dropWhile_append_of_pos hbefore, List.cons_append,
      List.dropWhile_cons_of_neg]
    simpa using htext c List.mem_cons_self
  have hend : trimEnd after = [] := List.rdropWhile_eq_nil_iff.mpr hafter
  rw [trim, hstart, trimEnd_append_mark htext, hend, List.append_nil]

theorem quotedChar_of_plain {c : Char} (h : isPlain c) : quotedChar c = [c] := by
  simpa [isPlain] using h

/-- A character that does not stand for itself is written with at least two. -/
theorem two_le_length_quotedChar {c : Char} (h : ¬ isPlain c) : 2 ≤ (quotedChar c).length := by
  rw [isPlain, beq_iff_eq] at h
  unfold quotedChar at h ⊢
  split
  case h_7 c _ _ _ _ _ _ =>
    split
    · rename_i hprintable
      simp [hprintable] at h
    · simp
  all_goals simp

theorem length_le_length_flatMap_quotedChar (text : List Char) :
    text.length ≤ (text.flatMap quotedChar).length := by
  induction text with
  | nil => rfl
  | cons c rest ih =>
      rw [List.flatMap_cons, List.length_append, List.length_cons]
      by_cases hc : isPlain c
      · rw [quotedChar_of_plain hc, List.length_singleton]
        omega
      · have htwo := two_le_length_quotedChar hc
        omega

/-- Quoting leaves only text as it is in which every character stands for itself. -/
theorem flatMap_quotedChar_eq_self {text : List Char} :
    text.flatMap quotedChar = text ↔ ∀ c ∈ text, isPlain c := by
  refine ⟨?_, flatMap_quotedChar_of_plain text⟩
  induction text with
  | nil => exact fun _ => nofun
  | cons c rest ih =>
      intro h
      rw [List.flatMap_cons] at h
      by_cases hc : isPlain c
      · rw [quotedChar_of_plain hc] at h
        exact List.forall_mem_cons.mpr ⟨hc, ih (List.cons.inj h).2⟩
      · have hlength := congrArg List.length h
        rw [List.length_append, List.length_cons] at hlength
        have htwo := two_le_length_quotedChar hc
        have hrest := length_le_length_flatMap_quotedChar rest
        omega

end Text

namespace Operand

open Text

/-- A name that is there and does not end in a blank. -/
def IsName (name : String) : Prop :=
  name ≠ "" ∧ ∀ c ∈ name.toList.getLast?, isBlank c = false

instance (name : String) : Decidable (IsName name) :=
  decidable_of_iff (name ≠ "" ∧ name.toList.getLast?.all (fun c => !isBlank c)) (by
    rw [IsName, Option.all_eq_true]
    simp)

/-- A name after a mark is read back if none of it is trimmed. -/
theorem ofToken_mark (mark : String) (part : TokenPart) (make : String → Operand)
    (hmark : mark.toList.any isBlank = false) (hne : mark.toList ≠ [])
    (hmake : Function.Injective make)
    (hread : ∀ rest, ofTrimmed (mark.toList ++ rest) = ofMarked part make rest) (name : String) :
    ofToken (mark ++ name) = .ok (make name) ↔ IsName name := by
  have hblank : ∀ c ∈ mark.toList, isBlank c = false := by simpa using hmark
  rw [ofToken, String.toList_append, trim_append_mark hblank hne, hread, ofMarked, IsName,
    ← trimEnd_eq_self]
  constructor
  · intro h
    split at h
    · cases h
    · rename_i hnonempty
      have hname : String.ofList (trimEnd name.toList) = name := hmake (Except.ok.inj h)
      have hsame : trimEnd name.toList = name.toList := by
        simpa using congrArg String.toList hname
      refine ⟨?_, hsame⟩
      rintro rfl
      exact hnonempty rfl
  · rintro ⟨hnonempty, hsame⟩
    rw [hsame, if_neg, String.ofList_toList]
    simpa using hnonempty

theorem ofToken_string (text : String) :
    ofToken (Operand.string text).text = .ok (.string text) ↔ ∀ c ∈ text.toList, isPlain c := by
  have hquote : ∀ c ∈ ['"'], isBlank c = false := List.forall_mem_singleton.mpr rfl
  have htrim : trim (quoted text).toList = '"' :: (text.toList.flatMap quotedChar ++ ['"']) := by
    have hlast : trimEnd (text.toList.flatMap quotedChar ++ ['"']) =
        text.toList.flatMap quotedChar ++ ['"'] := by
      rw [trimEnd_eq_self]
      intro c hc
      rw [List.getLast?_concat] at hc
      cases hc
      decide
    rw [quoted, String.toList_ofList, ← List.singleton_append,
      trim_append_mark hquote (List.cons_ne_nil _ _), hlast]
  rw [Operand.text, ofToken, htrim, ← flatMap_quotedChar_eq_self]
  simp only [ofTrimmed, List.getLast?_concat, if_true, List.dropLast_concat, Except.ok.injEq,
    Operand.string.injEq]
  constructor
  · intro h
    simpa using congrArg String.toList h
  · intro h
    rw [h, String.ofList_toList]

/-- Digits after their sign. -/
def numeral (negative : Bool) (digits : List Char) : List Char :=
  if negative then '-' :: digits else digits

theorem isBlank_of_isDigit {c : Char} (h : Decimal.isDigit c) : isBlank c = false := by
  have hlow : 48 ≤ c.toNat := by
    simp only [Decimal.isDigit, Bool.and_eq_true, decide_eq_true_eq] at h
    exact h.1
  have hhigh : c.toNat ≤ 57 := by
    simp only [Decimal.isDigit, Bool.and_eq_true, decide_eq_true_eq] at h
    exact h.2
  simp [isBlank, blankRanges]
  omega

variable {negative : Bool} {digits : List Char}

theorem numeral_ne_nil (hne : digits ≠ []) : numeral negative digits ≠ [] := by
  cases negative with
  | false => exact hne
  | true => exact List.cons_ne_nil _ _

theorem isBlank_of_mem_numeral (hdigits : Decimal.AllDigits digits) :
    ∀ c ∈ numeral negative digits, isBlank c = false := by
  have hall : ∀ c ∈ digits, isBlank c = false := fun c hc => isBlank_of_isDigit (hdigits c hc)
  cases negative with
  | false => exact hall
  | true => exact List.forall_mem_cons.mpr ⟨by decide, hall⟩

theorem ofNumeral_numeral (hne : digits ≠ []) (hdigits : Decimal.AllDigits digits) :
    ofNumeral (numeral negative digits) =
      ofInteger (String.ofList (numeral negative digits)) negative digits := by
  have hall : (digits.all fun c => Decimal.isDigit c || c == '.') = true := by
    rw [List.all_eq_true]
    intro c hc
    simp [hdigits c hc]
  have hpoint : digits.contains '.' = false := by
    by_contra h
    have hdigit := hdigits '.' (by simpa using h)
    cases hdigit
  have hnonempty : digits.isEmpty = false := by simpa using hne
  cases negative with
  | true =>
      simp only [ofNumeral, numeral, if_true, hnonempty, hall, hpoint]
      rfl
  | false =>
      obtain ⟨c, more, rfl, _, hsign, _⟩ := hdigits.exists_cons hne
      simp only [ofNumeral, numeral, Bool.false_eq_true, if_false]
      split
      · rename_i heq
        exact absurd (List.cons.inj heq).1 hsign
      · simp only [hnonempty, hall, hpoint]
        rfl

/-- What starts with a digit or a sign has no mark and no quote. -/
theorem ofTrimmed_numeral (hne : digits ≠ []) (hdigits : Decimal.AllDigits digits) :
    ofTrimmed (numeral negative digits) = ofNumeral (numeral negative digits) := by
  obtain ⟨c, more, heq, hc⟩ :
      ∃ c more, numeral negative digits = c :: more ∧ (c = '-' ∨ Decimal.isDigit c) := by
    cases negative with
    | true => exact ⟨'-', digits, rfl, Or.inl rfl⟩
    | false =>
        obtain ⟨c, more, rfl, hdigit, _⟩ := hdigits.exists_cons hne
        exact ⟨c, more, rfl, Or.inr hdigit⟩
  have hother : c ≠ '&' ∧ c ≠ 'T' ∧ c ≠ 'f' ∧ c ≠ '"' := by
    refine ⟨?_, ?_, ?_, ?_⟩ <;> rintro rfl <;> revert hc <;> decide
  obtain ⟨hmark, htype, hfunction, hquote⟩ := hother
  rw [heq]
  unfold ofTrimmed
  split
  · rename_i h
    cases h
  · rename_i h
    exact absurd (List.cons.inj h).1 hmark
  · rename_i h
    exact absurd (List.cons.inj h).1 htype
  · rename_i h
    exact absurd (List.cons.inj h).1 hfunction
  · rename_i h
    exact absurd (List.cons.inj h).1 hquote
  · rfl

/-- A run of digits after its sign, with blanks around it, is read as what it denotes. -/
theorem ofToken_numeral (hne : digits ≠ []) (hdigits : Decimal.AllDigits digits)
    {before after : List Char} (hbefore : ∀ c ∈ before, isBlank c) (hafter : ∀ c ∈ after, isBlank c) :
    ofToken (String.ofList (before ++ numeral negative digits ++ after)) =
      ofInteger (String.ofList (numeral negative digits)) negative digits := by
  rw [ofToken, String.toList_ofList, trim_padded hbefore hafter (numeral_ne_nil hne)
    (isBlank_of_mem_numeral hdigits), ofTrimmed_numeral hne hdigits, ofNumeral_numeral hne hdigits]

/-- The number that digits denote after their sign. -/
def denoted (negative : Bool) (digits : List Char) : Int :=
  if negative then -(Nat.ofDigitChars 10 digits 0 : Int) else Nat.ofDigitChars 10 digits 0

theorem ofInteger_of_bounds (token : String)
    (h : -2 ^ 31 ≤ denoted negative digits ∧ denoted negative digits < 2 ^ 31) :
    ∃ value : Int32, value.toInt = denoted negative digits ∧
      ofInteger token negative digits = .ok (.int value) := by
  refine ⟨Int32.ofInt (denoted negative digits), Int32.toInt_ofInt_of_le h.1 h.2, ?_⟩
  have hfits : Decimal.int32? (denoted negative digits) =
      some (Int32.ofInt (denoted negative digits)) :=
    if_pos ⟨h.1, Int.le_of_lt_add_one h.2⟩
  have hsame : (if negative then -(Decimal.value digits : Int) else Decimal.value digits) =
      denoted negative digits := rfl
  simp only [ofInteger, hsame, hfits]

theorem ofInteger_of_not_bounds (token : String)
    (h : ¬ (-2 ^ 31 ≤ denoted negative digits ∧ denoted negative digits < 2 ^ 31)) :
    ofInteger token negative digits =
      .error (if negative then .integerTooSmall token else .integerTooLarge token) := by
  have hlarge : Decimal.int32? (denoted negative digits) = none :=
    if_neg fun hin => h ⟨hin.1, Int.lt_add_one_of_le hin.2⟩
  have hsame : (if negative then -(Decimal.value digits : Int) else Decimal.value digits) =
      denoted negative digits := rfl
  simp only [ofInteger, hsame, hlarge]

theorem ofToken_int (value : Int32) : ofToken (Operand.int value).text = .ok (.int value) := by
  let negative : Bool := decide (value.toInt < 0)
  let digits := Decimal.digits value.toInt.natAbs
  have hsigned : Decimal.signed value.toInt = numeral negative digits := by
    simp only [Decimal.signed, numeral, negative, digits, decide_eq_true_eq]
  have hdenoted : denoted negative digits = value.toInt := by
    have hvalue : Nat.ofDigitChars 10 digits 0 = value.toInt.natAbs := Decimal.value_digits _
    simp only [denoted, hvalue, negative, decide_eq_true_eq]
    split <;> omega
  have hbounds : -2 ^ 31 ≤ denoted negative digits ∧ denoted negative digits < 2 ^ 31 :=
    hdenoted ▸ ⟨value.le_toInt, value.toInt_lt⟩
  obtain ⟨number, hnumber, hread⟩ :=
    ofInteger_of_bounds (String.ofList (numeral negative digits)) hbounds
  have hnone : ∀ c ∈ [], isBlank c := fun _ hc => absurd hc List.not_mem_nil
  have hpadded : ofToken (String.ofList ([] ++ numeral negative digits ++ [])) =
      ofInteger (String.ofList (numeral negative digits)) negative digits :=
    ofToken_numeral (Decimal.digits_ne_nil _) (Decimal.allDigits_digits _) hnone hnone
  rw [List.nil_append, List.append_nil] at hpadded
  rw [Operand.text, Decimal.integerText, hsigned, hpadded, hread,
    Int32.toInt_inj.mp (hnumber.trans hdenoted)]

/-- The operands, doubles apart, that their text gives back. -/
inductive Legible : Operand → Prop
  | int (value : Int32) : Legible (.int value)
  | ref {name : String} (h : IsName name) : Legible (.ref name)
  | type {descriptor : Descriptor} (h : IsName descriptor) : Legible (.type descriptor)
  | function {name : String} (h : IsName name) : Legible (.function name)
  | string {text : String} (h : ∀ c ∈ text.toList, isPlain c) : Legible (.string text)

theorem ofToken_text {operand : Operand} (h : ∀ value, operand ≠ .double value) :
    ofToken operand.text = .ok operand ↔ operand.Legible := by
  cases operand with
  | double value => exact absurd rfl (h value)
  | int value => exact iff_of_true (ofToken_int value) (.int value)
  | ref name =>
      have hread := ofToken_mark "&" .reference .ref (by decide) (by decide)
        (fun _ _ h => Operand.ref.inj h) (fun _ => rfl) name
      exact hread.trans ⟨.ref, fun | .ref h => h⟩
  | type descriptor =>
      have hread := ofToken_mark "T:" .descriptor .type (by decide) (by decide)
        (fun _ _ h => Operand.type.inj h) (fun _ => rfl) descriptor
      exact hread.trans ⟨.type, fun | .type h => h⟩
  | function name =>
      have hread := ofToken_mark "fn:" .function .function (by decide) (by decide)
        (fun _ _ h => Operand.function.inj h) (fun _ => rfl) name
      exact hread.trans ⟨.function, fun | .function h => h⟩
  | string text => exact (ofToken_string text).trans ⟨.string, fun | .string h => h⟩

/-- Which tokens stand for what. The text of an operand, doubles apart, gives it back exactly if it
is legible. Digits with or without a sign, and with any blanks around them, give the integer that
they denote, or an error if that has more than 32 bits. -/
theorem tokens_readBack :
    (∀ operand : Operand, (∀ value, operand ≠ .double value) →
      (ofToken operand.text = .ok operand ↔ operand.Legible)) ∧
    ∀ (negative : Bool) (digits before after : List Char), digits ≠ [] →
      Decimal.AllDigits digits → (∀ c ∈ before, isBlank c) → (∀ c ∈ after, isBlank c) →
      let token := String.ofList (before ++ numeral negative digits ++ after)
      let trimmed := String.ofList (numeral negative digits)
      let bounds := -2 ^ 31 ≤ denoted negative digits ∧ denoted negative digits < 2 ^ 31
      (bounds → ∃ value : Int32, value.toInt = denoted negative digits ∧
        ofToken token = .ok (.int value)) ∧
      (¬ bounds → ofToken token =
        .error (if negative then .integerTooSmall trimmed else .integerTooLarge trimmed)) := by
  refine ⟨fun _ => ofToken_text, ?_⟩
  intro negative digits before after hne hdigits hbefore hafter token trimmed bounds
  have hread : ofToken token = ofInteger trimmed negative digits :=
    ofToken_numeral hne hdigits hbefore hafter
  rw [hread]
  exact ⟨ofInteger_of_bounds trimmed, ofInteger_of_not_bounds trimmed⟩

/-- Of two names only the one without a blank at its end is read back, and text is not if it has a
quote in it. Zeros before a number do not count. -/
theorem tokens_readBack_samples :
    ofToken (Operand.ref " of two").text = .ok (.ref " of two") ∧
    ofToken (Operand.ref "of two ").text ≠ .ok (.ref "of two ") ∧
    ofToken (Operand.string "say \"no\"").text ≠ .ok (.string "say \"no\"") ∧
    (∃ value : Int32, value.toInt = -7 ∧ ofToken "\u3000-0007\n" = .ok (.int value)) ∧
    ofToken " 002147483648" = .error (.integerTooLarge "002147483648") := by
  obtain ⟨htext, hnumber⟩ := tokens_readBack
  refine ⟨?_, ?_, ?_, ?_, ?_⟩
  · exact (htext (.ref " of two") nofun).mpr (.ref (by decide))
  · intro h
    cases (htext (.ref "of two ") nofun).mp h with
    | ref h => exact absurd h (by decide)
  · intro h
    cases (htext (.string "say \"no\"") nofun).mp h with
    | string h => exact absurd (List.all_eq_true.mpr h) (by decide)
  · have hdigits : ∀ c ∈ ['0', '0', '0', '7'], Decimal.isDigit c :=
      List.all_eq_true.mp (by decide)
    exact (hnumber true _ ['\u3000'] ['\n'] (by decide) hdigits
      (List.forall_mem_singleton.mpr rfl) (List.forall_mem_singleton.mpr rfl)).1 (by decide)
  · have hdigits : ∀ c ∈ "002147483648".toList, Decimal.isDigit c :=
      List.all_eq_true.mp (by decide)
    exact (hnumber false _ [' '] [] (by decide) hdigits (List.forall_mem_singleton.mpr rfl)
      nofun).2 (by decide)

end Operand

end Specialization
