import Specialization.Json.Reader
import Specialization.Json.Writer

/-!
Strings are read back from their text: every character is read back from how it is escaped, one
beyond the sixteen bits of a unit from two units.
-/

namespace Specialization.Json

theorem hexDigit?_digitChar : ∀ digit < 16, hexDigit? digit.digitChar = some digit := by
  decide

/-- A unit is written with four digits. -/
theorem hexUnit_eq {unit : Nat} (h : unit < 0x10000) :
    hexUnit unit = ['\\', 'u', (unit / 4096).digitChar, (unit / 256 % 16).digitChar,
      (unit / 16 % 16).digitChar, (unit % 16).digitChar] := by
  have hstep (n : Nat) : Nat.toDigits 16 n =
      if n < 16 then [n.digitChar] else Nat.toDigits 16 (n / 16) ++ [(n % 16).digitChar] :=
    Nat.toDigits_eq_if (by decide)
  have hthird : unit / 16 / 16 = unit / 256 := Nat.div_div_eq_div_mul ..
  have hfourth : unit / 256 / 16 = unit / 4096 := Nat.div_div_eq_div_mul ..
  unfold hexUnit
  rw [hstep unit, hstep (unit / 16), hthird, hstep (unit / 256), hfourth, hstep (unit / 4096)]
  split
  · have : unit / 4096 = 0 ∧ unit / 256 % 16 = 0 ∧ unit / 16 % 16 = 0 ∧ unit % 16 = unit := by omega
    simp [this]
  split
  · have : unit / 4096 = 0 ∧ unit / 256 % 16 = 0 ∧ unit / 16 % 16 = unit / 16 := by omega
    simp [this]
  split
  · have : unit / 4096 = 0 ∧ unit / 256 % 16 = unit / 256 := by omega
    simp [this]
  · have : unit / 4096 < 16 := by omega
    simp [this]

/-- A unit is read back from its digits. -/
theorem hexUnit?_eq (unit : Nat) (h : unit < 0x10000) :
    hexUnit? (unit / 4096).digitChar (unit / 256 % 16).digitChar (unit / 16 % 16).digitChar
      (unit % 16).digitChar = some unit := by
  have hunit : unit / 4096 * 4096 + unit / 256 % 16 * 256 + unit / 16 % 16 * 16 + unit % 16 =
      unit := by omega
  rw [hexUnit?, hexDigit?_digitChar _ (by omega), hexDigit?_digitChar _ (by omega),
    hexDigit?_digitChar _ (by omega), hexDigit?_digitChar _ (by omega)]
  exact congrArg some hunit

variable {rest : List Char}

/-- A unit that is no half of a surrogate pair stands for a character. -/
theorem readCharacter_hexUnit {unit : Nat} (h : unit < 0x10000) (hlow : isLowSurrogate unit = false)
    (hhigh : isHighSurrogate unit = false) :
    readCharacter (hexUnit unit ++ rest) = some (some (.ofNat unit), rest) := by
  rw [hexUnit_eq h]
  simp [readCharacter, hexUnit?_eq unit h, hlow, hhigh]

/-- Two units that are the halves of a surrogate pair stand for one character. -/
theorem readCharacter_surrogates {high low : Nat} (hhigh : isHighSurrogate high)
    (hlow : isLowSurrogate low) :
    readCharacter (hexUnit high ++ (hexUnit low ++ rest)) =
      some (some (.ofNat (0x10000 + (high - 0xD800) * 1024 + (low - 0xDC00))), rest) := by
  obtain ⟨hfirst, hfirst'⟩ : 0xD800 ≤ high ∧ high < 0xDC00 := by
    simpa [isHighSurrogate] using hhigh
  obtain ⟨hsecond, hsecond'⟩ : 0xDC00 ≤ low ∧ low < 0xE000 := by
    simpa [isLowSurrogate] using hlow
  have hnotLow : isLowSurrogate high = false := by
    simp [isLowSurrogate]
    omega
  rw [hexUnit_eq (by omega), hexUnit_eq (by omega)]
  simp [readCharacter, hexUnit?_eq high (by omega), hexUnit?_eq low (by omega),
    hnotLow, hhigh, hlow]

/-- A character that is not escaped stands for itself. -/
theorem readCharacter_plain {c : Char} (hbackslash : c ≠ '\\') (hcontrol : ¬ c.toNat < 0x20) :
    readCharacter (c :: rest) = some (some c, rest) := by
  rw [readCharacter.eq_def]
  split
  · rename_i htext
    exact absurd (List.cons.inj htext).1 hbackslash
  · rename_i htext
    exact absurd (List.cons.inj htext).1 hbackslash
  · rename_i htext
    obtain ⟨rfl, rfl⟩ := List.cons.inj htext
    exact if_neg hcontrol
  · rename_i htext
    cases htext

/-- Every character is read back from how it is escaped. -/
theorem readCharacter_escapedChar (c : Char) (rest : List Char) :
    readCharacter (escapedChar c ++ rest) = some (some c, rest) := by
  have hvalid : c.toNat < 0xD800 ∨ 0xDFFF < c.toNat ∧ c.toNat < 0x110000 := c.valid
  unfold escapedChar
  split
  · rfl
  · rfl
  · rename_i hquote hbackslash
    split
    · rename_i hprintable
      exact readCharacter_plain hbackslash (by omega)
    split
    · rename_i hunit
      rw [readCharacter_hexUnit hunit]
      · rw [Char.ofNat_toNat]
      all_goals
        simp only [isLowSurrogate, isHighSurrogate, Bool.and_eq_false_iff, decide_eq_false_iff_not]
        omega
    · rename_i hunit
      rw [List.append_assoc, readCharacter_surrogates]
      · have hcode : 0x10000 + (0xD800 + (c.toNat - 0x10000) / 1024 - 0xD800) * 1024 +
            (0xDC00 + (c.toNat - 0x10000) % 1024 - 0xDC00) = c.toNat := by omega
        rw [hcode, Char.ofNat_toNat]
      all_goals
        simp only [isLowSurrogate, isHighSurrogate, Bool.and_eq_true, decide_eq_true_eq]
        omega

/-- What stands for a character does not look like the end of the string. -/
theorem escapedChar_eq_cons (c : Char) :
    ∃ first more, escapedChar c = first :: more ∧ first ≠ '"' := by
  unfold escapedChar
  split
  · exact ⟨'\\', ['"'], rfl, by decide⟩
  · exact ⟨'\\', ['\\'], rfl, by decide⟩
  · rename_i hquote hbackslash
    split
    · exact ⟨c, [], rfl, hquote⟩
    split
    · exact ⟨'\\', _, rfl, by decide⟩
    · exact ⟨'\\', _, rfl, by decide⟩

/-- The contents of a string are read back up to its closing quote. -/
theorem readContents_escaped (text : List Char) {fuel : Nat} (hfuel : text.length ≤ fuel) :
    readContents fuel (text.flatMap escapedChar ++ '"' :: rest) = some (some text, rest) := by
  induction text generalizing fuel with
  | nil => cases fuel <;> rfl
  | cons c text ih =>
      obtain ⟨fuel, rfl⟩ := Nat.exists_eq_add_of_le' (Nat.le_trans (Nat.le_add_left 1 _) hfuel)
      have hcharacter := readCharacter_escapedChar c (text.flatMap escapedChar ++ '"' :: rest)
      obtain ⟨first, more, hescaped, hquote⟩ := escapedChar_eq_cons c
      rw [hescaped, List.cons_append] at hcharacter
      rw [List.flatMap_cons, List.append_assoc, hescaped, List.cons_append]
      simp [readContents, hquote, hcharacter, ih (Nat.le_of_succ_le_succ hfuel)]

theorem length_le_length_escaped (text : List Char) :
    text.length ≤ (text.flatMap escapedChar).length := by
  induction text with
  | nil => exact Nat.le_refl 0
  | cons c text ih =>
      obtain ⟨first, more, hescaped, -⟩ := escapedChar_eq_cons c
      rw [List.flatMap_cons, hescaped, List.cons_append, List.length_cons, List.length_cons,
        List.length_append]
      omega

/-- A string is read back from its text after the opening quote. -/
theorem readString_escaped (text : String) :
    readString (text.toList.flatMap escapedChar ++ '"' :: rest) = some (some text, rest) := by
  have hlength := length_le_length_escaped text.toList
  rw [readString, readContents_escaped text.toList (by rw [List.length_append]; omega)]
  simp

end Specialization.Json
