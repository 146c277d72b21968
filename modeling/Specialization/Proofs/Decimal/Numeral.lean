import Specialization.Proofs.Decimal.Shortest

/-!
The numeral of a decimal denotes that decimal: the point is moved, zeros are left out at the end or
filled in, and an exponent makes up for it. So the text of a finite double denotes that double.
-/

namespace Specialization.Decimal

/-- The parts of a numeral without its sign. -/
structure Numeral where
  whole : List Char
  fraction : Option (List Char)
  power : Option Int

namespace Numeral

def text (numeral : Numeral) : List Char :=
  numeral.whole ++ (numeral.fraction.elim [] ('.' :: ·) ++
    numeral.power.elim [] fun power => 'e' :: signed power)

/-- The number denoted is `mantissa` times ten to the power `scale`. -/
def mantissa (numeral : Numeral) : Nat :=
  value (numeral.whole ++ numeral.fraction.getD [])

def scale (numeral : Numeral) : Int :=
  numeral.power.getD 0 - (numeral.fraction.getD []).length

/-- There are digits before the point, of which only a single one may be a leading zero, and after
the point if there is one. -/
structure WellFormed (numeral : Numeral) : Prop where
  whole : AllDigits numeral.whole
  nonempty : numeral.whole ≠ []
  leading : numeral.whole.head? = some '0' → numeral.whole.length = 1
  fraction : ∀ digits ∈ numeral.fraction, AllDigits digits ∧ digits ≠ []

/-- It is not an integer that is written as one. -/
def IsFractional (numeral : Numeral) : Prop :=
  numeral.fraction.isSome ∨ numeral.power.isSome

end Numeral

/-- Digits without a leading zero. -/
structure Significant (text : List Char) : Prop where
  digits : AllDigits text
  nonempty : text ≠ []
  leading : text.head? ≠ some '0'

theorem value_cons_zero (text : List Char) : value ('0' :: text) = value text := by
  have happend := value_append ['0'] text
  rw [List.singleton_append] at happend
  rw [happend]
  simp [value, valueIn]

theorem value_concat_zero (text : List Char) : value (text ++ ['0']) = value text * 10 :=
  value_append text ['0']

/-- A numeral denotes what digits do of which the first stands for a power of ten. -/
def Writes (numeral : List Char) (text : List Char) (leading : Int) : Prop :=
  ∃ parts : Numeral, numeral = parts.text ∧ parts.WellFormed ∧ parts.IsFractional ∧
    ∃ zeros : Nat, parts.mantissa = value text * 10 ^ zeros ∧
      parts.scale + zeros = leading + 1 - text.length

variable {text : List Char}

/-- Below one the numeral starts with a zero, and has zeros after the point. -/
theorem positional_writes_of_neg (htext : Significant text) {leading : Int} (h : leading < 0) :
    Writes (positional text leading) text leading := by
  refine ⟨⟨['0'], some (List.replicate (-leading - 1).toNat '0' ++ text), none⟩, ?_, ?_,
    Or.inl rfl, 0, ?_, ?_⟩
  · simp [positional, h, Numeral.text]
  · exact
      { whole := allDigits_replicate_zero 1
        nonempty := List.cons_ne_nil _ _
        leading := fun _ => rfl
        fraction := by
          rintro _ ⟨⟩
          exact ⟨(allDigits_replicate_zero _).append htext.digits,
            List.append_ne_nil_of_right_ne_nil _ htext.nonempty⟩ }
  · simp [Numeral.mantissa, value_cons_zero, value_append, value_replicate_zero]
  · simp [Numeral.scale]
    omega

/-- Digits that all stand before the point are filled up with zeros, and one more stands behind. -/
theorem positional_writes_of_length_le (htext : Significant text) {leading : Int}
    (h : ¬ leading < 0) (hlength : text.length ≤ leading.toNat + 1) :
    Writes (positional text leading) text leading := by
  let zeros := leading.toNat + 1 - text.length
  refine ⟨⟨text ++ List.replicate zeros '0', some ['0'], none⟩, ?_, ?_, Or.inl rfl, zeros + 1,
    ?_, ?_⟩
  · simp [positional, h, Numeral.text, List.take_of_length_le hlength,
      List.drop_of_length_le hlength, zeros]
  · exact
      { whole := htext.digits.append (allDigits_replicate_zero _)
        nonempty := List.append_ne_nil_of_left_ne_nil htext.nonempty _
        leading := fun hzero =>
          absurd (List.head?_append_of_ne_nil _ htext.nonempty ▸ hzero) htext.leading
        fraction := by
          rintro _ ⟨⟩
          exact ⟨allDigits_replicate_zero 1, List.cons_ne_nil _ _⟩ }
  · rw [Numeral.mantissa, Option.getD_some, value_concat_zero, value_append,
      List.length_replicate, value_replicate_zero, Nat.add_zero, Nat.pow_succ, Nat.mul_assoc]
  · simp only [Numeral.scale, Option.getD_none, Option.getD_some, List.length_singleton]
    omega

/-- Otherwise the point stands between two of the digits. -/
theorem positional_writes_of_lt_length (htext : Significant text) {leading : Int}
    (h : ¬ leading < 0) (hlength : leading.toNat + 1 < text.length) :
    Writes (positional text leading) text leading := by
  have hfraction : text.drop (leading.toNat + 1) ≠ [] :=
    mt List.drop_eq_nil_iff.mp (Nat.not_le_of_lt hlength)
  obtain ⟨htake, hdrop⟩ :=
    (List.take_append_drop (leading.toNat + 1) text ▸ htext.digits).of_append
  refine ⟨⟨text.take (leading.toNat + 1), some (text.drop (leading.toNat + 1)), none⟩, ?_, ?_,
    Or.inl rfl, 0, ?_, ?_⟩
  · simp [positional, h, Numeral.text, hfraction, Nat.sub_eq_zero_of_le hlength.le]
  · exact
      { whole := htake
        nonempty := by simp [htext.nonempty]
        leading := fun hzero => absurd (by simpa [List.head?_take] using hzero) htext.leading
        fraction := by
          rintro _ ⟨⟩
          exact ⟨hdrop, hfraction⟩ }
  · simp [Numeral.mantissa]
  · simp only [Numeral.scale, Option.getD_none, Option.getD_some, List.length_drop]
    omega

theorem scientific_writes (htext : Significant text) (leading : Int) :
    Writes (scientific text leading) text leading := by
  obtain ⟨first, rest, rfl⟩ := List.exists_cons_of_ne_nil htext.nonempty
  have hfirst : AllDigits [first] ∧ AllDigits rest :=
    AllDigits.of_append (List.singleton_append ▸ htext.digits)
  have hleading : ∀ h : [first].head? = some '0', [first].length = 1 := fun _ => rfl
  cases rest with
  | nil =>
      refine ⟨⟨[first], none, some leading⟩, ?_, ⟨hfirst.1, List.cons_ne_nil _ _, hleading, ?_⟩,
        Or.inr rfl, 0, ?_, ?_⟩
      · simp [scientific, Numeral.text]
      · rintro _ ⟨⟩
      · simp [Numeral.mantissa]
      · simp [Numeral.scale]
  | cons second rest =>
      refine ⟨⟨[first], some (second :: rest), some leading⟩, ?_,
        ⟨hfirst.1, List.cons_ne_nil _ _, hleading, ?_⟩, Or.inr rfl, 0, ?_, ?_⟩
      · simp [scientific, Numeral.text]
      · rintro _ ⟨⟩
        exact ⟨hfirst.2, List.cons_ne_nil _ _⟩
      · simp [Numeral.mantissa]
      · simp [Numeral.scale]

theorem positional_writes (htext : Significant text) (leading : Int) :
    Writes (positional text leading) text leading := by
  by_cases h : leading < 0
  · exact positional_writes_of_neg htext h
  · by_cases hlength : text.length ≤ leading.toNat + 1
    · exact positional_writes_of_length_le htext h hlength
    · exact positional_writes_of_lt_length htext h (Nat.lt_of_not_le hlength)

/-- The digits of a number without the zeros at the end. -/
def significantDigits (count : Nat) : List Char :=
  ((digits count).reverse.dropWhile (· == '0')).reverse

/-- The zeros that are left out. -/
theorem digits_eq_append (count : Nat) :
    ∃ zeros, digits count = significantDigits count ++ List.replicate zeros '0' := by
  let zeros := (digits count).reverse.takeWhile (· == '0')
  have hzeros : zeros.reverse = List.replicate zeros.length '0' := by
    refine List.eq_replicate_iff.mpr ⟨List.length_reverse, fun c hc => ?_⟩
    exact eq_of_beq (List.all_eq_true.mp List.all_takeWhile c (List.mem_reverse.mp hc))
  refine ⟨zeros.length, ?_⟩
  rw [← hzeros, significantDigits, ← List.reverse_append, List.takeWhile_append_dropWhile,
    List.reverse_reverse]

theorem value_significantDigits {count zeros : Nat}
    (h : digits count = significantDigits count ++ List.replicate zeros '0') :
    count = value (significantDigits count) * 10 ^ zeros := by
  have hvalue := congrArg value h
  rwa [value_digits, value_append, value_replicate_zero, List.length_replicate,
    Nat.add_zero] at hvalue

theorem significantDigits_significant {count : Nat} (hcount : 0 < count) :
    Significant (significantDigits count) := by
  obtain ⟨zeros, hsplit⟩ := digits_eq_append count
  have hnonempty : significantDigits count ≠ [] := by
    intro hempty
    have hvalue := value_significantDigits hsplit
    rw [hempty] at hvalue
    simp [value, valueIn] at hvalue
    omega
  have hleading := head?_digits_ne_zero hcount
  rw [hsplit, List.head?_append_of_ne_nil _ hnonempty] at hleading
  exact ⟨(hsplit ▸ allDigits_digits count).of_append.1, hnonempty, hleading⟩

/-- The numeral of a decimal denotes it. -/
theorem Scaled.numeral_eq {number : Scaled} (hcount : 0 < number.count) :
    ∃ parts : Numeral, number.numeral = parts.text ∧ parts.WellFormed ∧ parts.IsFractional ∧
      (parts.mantissa * 10 ^ parts.scale : ℚ) = number.count * 10 ^ number.power := by
  have hsignificant := significantDigits_significant hcount
  have hwrites : Writes number.numeral (significantDigits number.count)
      (number.power + (digits number.count).length - 1) := by
    unfold numeral
    dsimp only
    split
    · exact positional_writes hsignificant _
    · exact scientific_writes hsignificant _
  obtain ⟨parts, hparts, hformed, hfractional, zeros, hmantissa, hscale⟩ := hwrites
  obtain ⟨trimmed, hsplit⟩ := digits_eq_append number.count
  have hlength := congrArg List.length hsplit
  rw [List.length_append, List.length_replicate] at hlength
  refine ⟨parts, hparts, hformed, hfractional, ?_⟩
  conv => rhs; rw [value_significantDigits hsplit]
  rw [hmantissa]
  push_cast
  rw [mul_assoc, mul_assoc, ← zpow_natCast, ← zpow_natCast, ← zpow_add₀ (by norm_num),
    ← zpow_add₀ (by norm_num)]
  congr 2
  omega

end Specialization.Decimal

namespace Specialization

open Decimal

/-- The text of a finite double is a numeral that denotes it. -/
theorem Double.text_eq {d : Double} (hfinite : d.isFinite) :
    ∃ numeral : Numeral, d.text.toList = (if d.isNegative then ['-'] else []) ++ numeral.text ∧
      numeral.WellFormed ∧ numeral.IsFractional ∧
      ofDecimal d.isNegative numeral.mantissa numeral.scale = d := by
  have hnumber : d.isNaN = false := by
    have hfield : d.exponentField < 2047 := of_decide_eq_true hfinite
    simp [isNaN, hfield.ne]
  have htext (magnitude : List Char) (h : (if d.significand = 0 then ['0', '.', '0']
      else (shortest d).numeral) = magnitude) :
      d.text.toList = (if d.isNegative then ['-'] else []) ++ magnitude := by
    unfold text
    simp only [hnumber, hfinite, h]
    cases d.isNegative <;> simp
  by_cases hzero : d.significand = 0
  · refine ⟨⟨['0'], some ['0'], none⟩, htext _ (if_pos hzero), ?_, Or.inl rfl, ?_⟩
    · exact
        { whole := allDigits_replicate_zero 1
          nonempty := List.cons_ne_nil _ _
          leading := fun _ => rfl
          fraction := by
            rintro _ ⟨⟩
            exact ⟨allDigits_replicate_zero 1, List.cons_ne_nil _ _⟩ }
    · exact ofDecimal_zero hzero _
  · have hsignificand := Nat.pos_of_ne_zero hzero
    have hcontains := shortest_contains hsignificand
    have hcount : 0 < (shortest d).count := by
      by_contra hnone
      have hpositive := pos_of_contains hsignificand hcontains
      simp [Nat.eq_zero_of_not_pos hnone] at hpositive
    obtain ⟨numeral, hnumeral, hformed, hfractional, hvalue⟩ := Scaled.numeral_eq hcount
    exact ⟨numeral, htext _ ((if_neg hzero).trans hnumeral), hformed, hfractional,
      ofDecimal_eq hfinite hsignificand (hvalue ▸ hcontains)⟩

end Specialization
