import Mathlib.Algebra.Order.Field.Power
import Mathlib.Data.Int.Log
import Mathlib.Data.Rat.Floor
import Mathlib.Tactic.FieldSimp
import Mathlib.Tactic.Linarith
import Mathlib.Tactic.Positivity
import Mathlib.Tactic.Ring
import Specialization.Proofs.Decimal.Digits
import Specialization.Decimal.Shortest

/-!
Rounding to doubles. The rationals of the rounding interval of a finite double other than zero are
all rounded to it.
-/

namespace Specialization

/-- A power with an integer exponent as a fraction of two with natural ones. -/
theorem pow_toNat_div_pow_toNat {b : ℚ} (hb : 0 < b) (power : Int) :
    b ^ power.toNat / b ^ (-power).toNat = b ^ power := by
  rw [← zpow_natCast, ← zpow_natCast, ← zpow_sub₀ hb.ne']
  congr 1
  omega

namespace Double

variable {d : Double}

theorem hiddenBit_eq : hiddenBit = 4503599627370496 := rfl

theorem signWeight_eq : signWeight = 9223372036854775808 := rfl

theorem fractionField_lt (d : Double) : d.fractionField < hiddenBit :=
  Nat.mod_lt _ (by decide)

theorem significand_lt (d : Double) : d.significand < 2 * hiddenBit := by
  have hfraction := d.fractionField_lt
  unfold significand
  split <;> omega

/-- A finite double has 53 binary digits at most. -/
theorem significand_add_one_le (d : Double) : (d.significand : ℚ) + 1 ≤ 2 ^ 53 := by
  have hless := d.significand_lt
  rw [hiddenBit_eq] at hless
  exact_mod_cast hless

theorem neg_1074_le_exponent (d : Double) : -1074 ≤ d.exponent := by
  unfold exponent
  split <;> omega

theorem exponent_le (h : d.isFinite) : d.exponent ≤ 971 := by
  have hfield : d.exponentField < 2047 := of_decide_eq_true h
  unfold exponent
  split <;> omega

/-- Above the least exponent the significand has its hidden bit, and the field is not the least. -/
theorem of_neg_1074_lt_exponent (h : -1074 < d.exponent) :
    hiddenBit ≤ d.significand ∧ 1 < d.exponentField := by
  unfold exponent at h
  unfold significand
  split at h
  · omega
  · rw [if_neg ‹_›]
    omega

/-- The word of the magnitude, from the significand and the exponent. -/
def magnitudeWord (d : Double) : Nat :=
  (d.exponent + 1074).toNat * hiddenBit + d.significand

theorem magnitudeWord_eq (d : Double) :
    d.magnitudeWord = d.exponentField * hiddenBit + d.fractionField := by
  unfold magnitudeWord exponent significand
  by_cases hfield : d.exponentField = 0
  · simp [hfield]
  · have hpower : ((d.exponentField : Int) - 1075 + 1074).toNat = d.exponentField - 1 := by omega
    rw [if_neg hfield, if_neg hfield, hpower, ← Nat.add_assoc, ← Nat.succ_mul]
    congr 2
    omega

theorem magnitudeWord_lt (h : d.isFinite) : d.magnitudeWord < infinityWord := by
  have hfield : d.exponentField < 2047 := of_decide_eq_true h
  have hfraction := d.fractionField_lt
  rw [magnitudeWord_eq, infinityWord]
  rw [hiddenBit_eq] at *
  omega

theorem ofMagnitude_magnitudeWord (d : Double) :
    ofMagnitude d.isNegative d.magnitudeWord = d := by
  have hword := d.bits.toNat_lt
  have hsum : (if d.isNegative then signWeight + d.magnitudeWord else d.magnitudeWord) =
      d.bits.toNat := by
    rw [magnitudeWord_eq, exponentField, fractionField, isNegative, hiddenBit_eq, signWeight_eq]
    split
    · rename_i hsign
      have := of_decide_eq_true hsign
      omega
    · rename_i hsign
      have := of_decide_eq_false (Bool.eq_false_of_not_eq_true hsign)
      omega
  rw [ofMagnitude, hsum, UInt64.ofNat_toNat]

/-- A quotient that is nearer to a natural number than to any other, or halfway between two of which
that one is even, is rounded to it. -/
theorem roundDiv_eq {numerator denominator n : Nat} (hdenominator : 0 < denominator)
    (hlow : (n : ℚ) - 1 / 2 ≤ numerator / denominator)
    (hhigh : (numerator : ℚ) / denominator ≤ n + 1 / 2)
    (hodd : n % 2 = 1 →
      (n : ℚ) - 1 / 2 < numerator / denominator ∧ (numerator : ℚ) / denominator < n + 1 / 2) :
    roundDiv numerator denominator = n := by
  have hpositive : (0 : ℚ) < denominator := by exact_mod_cast hdenominator
  rw [le_div_iff₀ hpositive] at hlow
  rw [div_le_iff₀ hpositive] at hhigh
  rw [lt_div_iff₀ hpositive, div_lt_iff₀ hpositive] at hodd
  replace hlow : 2 * (denominator * n) ≤ 2 * numerator + denominator := by
    have : (2 : ℚ) * (denominator * n) ≤ 2 * numerator + denominator := by linarith
    exact_mod_cast this
  replace hhigh : 2 * numerator ≤ 2 * (denominator * n) + denominator := by
    have : (2 : ℚ) * numerator ≤ 2 * (denominator * n) + denominator := by linarith
    exact_mod_cast this
  replace hodd (h : n % 2 = 1) : 2 * (denominator * n) < 2 * numerator + denominator ∧
      2 * numerator < 2 * (denominator * n) + denominator := by
    obtain ⟨hleft, hright⟩ := hodd h
    have : (2 : ℚ) * (denominator * n) < 2 * numerator + denominator := by linarith
    have : (2 : ℚ) * numerator < 2 * (denominator * n) + denominator := by linarith
    constructor <;> assumption_mod_cast
  have hsplit := Nat.div_add_mod numerator denominator
  have hrest := Nat.mod_lt numerator hdenominator
  unfold roundDiv
  generalize numerator / denominator = quotient at *
  generalize numerator % denominator = rest at *
  -- The number is the quotient or the next one, and then the rest decides.
  obtain rfl | rfl : n = quotient ∨ n = quotient + 1 := by
    have hle : quotient ≤ n := by
      by_contra hless
      nlinarith [Nat.mul_le_mul_left denominator (Nat.lt_of_not_le hless)]
    have hge : n ≤ quotient + 1 := by
      by_contra hless
      nlinarith [Nat.mul_le_mul_left denominator (Nat.lt_of_not_le hless)]
    omega
  · rw [if_neg]
    simp only [Bool.or_eq_true, Bool.and_eq_true, decide_eq_true_eq, beq_iff_eq]
    omega
  · rw [if_pos]
    rw [Nat.mul_succ] at *
    simp only [Bool.or_eq_true, Bool.and_eq_true, decide_eq_true_eq, beq_iff_eq]
    omega

theorem scaledFraction_pos (numerator : Nat) {denominator : Nat} (hdenominator : 0 < denominator)
    (shift : Int) : 0 < (scaledFraction numerator denominator shift).2 :=
  Nat.mul_pos hdenominator (Nat.pow_pos (by decide))

/-- The fraction is the quotient, scaled. -/
theorem scaledFraction_eq (numerator denominator : Nat) (shift : Int) :
    ((scaledFraction numerator denominator shift).1 : ℚ) /
        (scaledFraction numerator denominator shift).2 =
      numerator / denominator / 2 ^ shift := by
  have hpower := pow_toNat_div_pow_toNat (zero_lt_two (α := ℚ)) shift
  rw [← hpower, scaledFraction]
  simp only [Nat.pow_eq, Nat.cast_mul, Nat.cast_pow, Nat.cast_ofNat]
  field_simp

/-- A quotient lies between the powers of two that the logarithms of its parts give. -/
theorem quotient_between {numerator denominator : Nat} (hnumerator : 0 < numerator)
    (hdenominator : 0 < denominator) :
    let power : Int := (numerator.log2 : Int) - denominator.log2
    (2 : ℚ) ^ (power - 1) < numerator / denominator ∧
      (numerator / denominator : ℚ) < 2 ^ (power + 1) := by
  have hbelow {n : Nat} (hn : 0 < n) : (2 : ℚ) ^ (n.log2 : Int) ≤ n := by
    exact_mod_cast Nat.log2_self_le hn.ne'
  have habove (n : Nat) : (n : ℚ) < 2 ^ (n.log2 + 1 : Int) := by
    exact_mod_cast Nat.lt_log2_self
  have hpositive : (0 : ℚ) < denominator := by exact_mod_cast hdenominator
  dsimp only
  rw [lt_div_iff₀ hpositive, div_lt_iff₀ hpositive]
  constructor
  · calc (2 : ℚ) ^ ((numerator.log2 : Int) - denominator.log2 - 1) * denominator
      _ < 2 ^ ((numerator.log2 : Int) - denominator.log2 - 1) * 2 ^ (denominator.log2 + 1 : Int) := by
          gcongr
          exact habove denominator
      _ = 2 ^ (numerator.log2 : Int) := by
          rw [← zpow_add₀ two_ne_zero]
          congr 1
          ring
      _ ≤ numerator := hbelow hnumerator
  · calc (numerator : ℚ)
      _ < 2 ^ (numerator.log2 + 1 : Int) := habove numerator
      _ = 2 ^ ((numerator.log2 : Int) - denominator.log2 + 1) * 2 ^ (denominator.log2 : Int) := by
          rw [← zpow_add₀ two_ne_zero]
          congr 1
          ring
      _ ≤ 2 ^ ((numerator.log2 : Int) - denominator.log2 + 1) * denominator := by
          gcongr
          exact hbelow hdenominator

/-- The shift is the one that leaves 53 digits before the point, if it is not below the least. -/
theorem leadingShift_eq {numerator denominator : Nat} (hnumerator : 0 < numerator)
    (hdenominator : 0 < denominator) :
    leadingShift numerator denominator =
      max (Int.log 2 (numerator / denominator : ℚ) - 52) (-1074) := by
  obtain ⟨hlow, hhigh⟩ := quotient_between hnumerator hdenominator
  unfold leadingShift
  generalize (numerator.log2 : Int) - denominator.log2 = power at *
  have hpositive : (0 : ℚ) < numerator / denominator := by positivity
  have hguess : (scaledFraction numerator denominator (power - 52)).1 <
      hiddenBit * (scaledFraction numerator denominator (power - 52)).2 ↔
        Int.log 2 (numerator / denominator : ℚ) < power := by
    have hscaled := scaledFraction_pos numerator hdenominator (power - 52)
    have hquotient := scaledFraction_eq numerator denominator (power - 52)
    rw [← Int.lt_zpow_iff_log_lt one_lt_two hpositive]
    generalize scaledFraction numerator denominator (power - 52) = scaled at *
    have hscaled' : (0 : ℚ) < scaled.2 := by exact_mod_cast hscaled
    calc scaled.1 < hiddenBit * scaled.2
      _ ↔ (scaled.1 : ℚ) < 2 ^ 52 * scaled.2 := by norm_cast
      _ ↔ (numerator / denominator : ℚ) / 2 ^ (power - 52) < 2 ^ 52 := by
          rw [← div_lt_iff₀ hscaled', hquotient]
      _ ↔ (numerator / denominator : ℚ) < 2 ^ power := by
          rw [div_lt_iff₀ (by positivity), ← zpow_natCast, ← zpow_add₀ two_ne_zero]
          norm_num
  have hleast := (Int.zpow_le_iff_le_log one_lt_two hpositive).mp hlow.le
  have hgreatest := (Int.lt_zpow_iff_log_lt one_lt_two hpositive).mp hhigh
  simp only [hguess]
  split <;> split <;> omega

end Double

namespace Decimal

/-- The rationals of an interval. -/
def RoundingInterval.Contains (interval : RoundingInterval) (x : ℚ) : Prop :=
  (interval.low ≤ x * interval.denominator ∧ x * interval.denominator ≤ interval.high) ∧
    (interval.closed = false →
      interval.low < x * interval.denominator ∧ x * interval.denominator < interval.high)

/-- How far the rounding interval of a double reaches below it, in units of its last digit. -/
def gapBelow (d : Double) : ℚ :=
  if d.significand = Double.hiddenBit ∧ 1 < d.exponentField then 1 / 4 else 1 / 2

variable {d : Double} {x : ℚ}

theorem denominator_pos (d : Double) : 0 < (roundingInterval d).denominator :=
  Nat.pow_pos (by decide)

/-- The ends of the rounding interval are given in quarters of the last digit. -/
theorem quarter_eq (d : Double) :
    (2 ^ (d.exponent - 2).toNat / (roundingInterval d).denominator : ℚ) = 2 ^ d.exponent / 4 := by
  have hdenominator : (roundingInterval d).denominator = 2 ^ (-(d.exponent - 2)).toNat := rfl
  rw [hdenominator, Nat.cast_pow, Nat.cast_ofNat, pow_toNat_div_pow_toNat two_pos,
    zpow_sub₀ two_ne_zero]
  norm_num

theorem gapBelow_le (d : Double) : gapBelow d ≤ 1 / 2 := by
  unfold gapBelow
  split <;> norm_num

/-- The rounding interval of a double other than zero, in units of its last digit. -/
theorem contains_roundingInterval_iff (hsignificand : 0 < d.significand) :
    (roundingInterval d).Contains x ↔
      (d.significand - gapBelow d ≤ x / 2 ^ d.exponent ∧
        x / 2 ^ d.exponent ≤ d.significand + 1 / 2) ∧
      (d.significand % 2 = 1 → d.significand - gapBelow d < x / 2 ^ d.exponent ∧
        x / 2 ^ d.exponent < d.significand + 1 / 2) := by
  let quarter := d.exponent - 2
  let gap := if d.significand = Double.hiddenBit ∧ 1 < d.exponentField then 1 else 2
  have hunit : (0 : ℚ) < 4 * 2 ^ quarter.toNat := by positivity
  have hgap : (gap : ℚ) = 4 * gapBelow d := by
    unfold gap gapBelow
    split <;> norm_num
  have hless : gap ≤ 4 * d.significand := by
    unfold gap
    split <;> omega
  have hlow : ((roundingInterval d).low : ℚ) =
      (d.significand - gapBelow d) * (4 * 2 ^ quarter.toNat) := by
    have hfield : (roundingInterval d).low = (4 * d.significand - gap) * 2 ^ quarter.toNat := rfl
    rw [hfield, Nat.cast_mul, Nat.cast_sub hless, hgap]
    push_cast
    ring
  have hhigh : ((roundingInterval d).high : ℚ) =
      (d.significand + 1 / 2) * (4 * 2 ^ quarter.toNat) := by
    have hfield : (roundingInterval d).high = (4 * d.significand + 2) * 2 ^ quarter.toNat := rfl
    rw [hfield]
    push_cast
    ring
  have hscaled : x * (roundingInterval d).denominator =
      x / 2 ^ d.exponent * (4 * 2 ^ quarter.toNat) := by
    have hdenominator : (0 : ℚ) < (roundingInterval d).denominator := by
      exact_mod_cast denominator_pos d
    have hquarter := quarter_eq d
    rw [div_eq_iff hdenominator.ne'] at hquarter
    rw [hquarter]
    field_simp
  have hclosed : (roundingInterval d).closed = false ↔ d.significand % 2 = 1 := by
    simp [roundingInterval]
  rw [RoundingInterval.Contains, hclosed, hlow, hhigh, hscaled]
  simp only [mul_le_mul_iff_left₀ hunit, mul_lt_mul_iff_left₀ hunit]

theorem gapBelow_pos (d : Double) : 0 < gapBelow d := by
  unfold gapBelow
  split <;> norm_num

theorem pos_of_contains (hsignificand : 0 < d.significand)
    (h : (roundingInterval d).Contains x) : 0 < x := by
  obtain ⟨⟨hlow, _⟩, _⟩ := (contains_roundingInterval_iff hsignificand).mp h
  have hone : (1 : ℚ) ≤ d.significand := by exact_mod_cast hsignificand
  have hscaled : 0 < x / 2 ^ d.exponent := by linarith [gapBelow_le d]
  exact (div_pos_iff_of_pos_right (by positivity)).mp hscaled

end Decimal

namespace Double

open Decimal

variable {d : Double}

theorem nearest_of_word {numerator denominator : Nat} (hnumerator : numerator ≠ 0)
    (hfinite : d.isFinite) (shift : Int) (hshift : leadingShift numerator denominator = shift)
    {rounded : Nat} (hrounded : roundDiv (scaledFraction numerator denominator shift).1
      (scaledFraction numerator denominator shift).2 = rounded)
    (hword : (shift + 1074).toNat * hiddenBit + rounded = d.magnitudeWord) :
    nearest d.isNegative numerator denominator = d := by
  unfold nearest
  dsimp only
  rw [if_neg hnumerator, hshift, hrounded, hword, if_pos (magnitudeWord_lt hfinite),
    ofMagnitude_magnitudeWord]

/-- The binade of a number, counted from a power of two. -/
theorem zpow_le_div_zpow_iff {x : ℚ} (hx : 0 < x) (power exponent : Int) :
    (2 : ℚ) ^ power ≤ x / 2 ^ exponent ↔ power + exponent ≤ Int.log 2 x := by
  rw [le_div_iff₀ (by positivity), ← zpow_add₀ two_ne_zero]
  exact Int.zpow_le_iff_le_log one_lt_two hx

theorem log_lt_of_contains {x : ℚ} (hsignificand : 0 < d.significand)
    (h : (roundingInterval d).Contains x) : Int.log 2 x < 53 + d.exponent := by
  obtain ⟨⟨_, hhigh⟩, _⟩ := (contains_roundingInterval_iff hsignificand).mp h
  have hless := d.significand_add_one_le
  have hbelow : ¬ (2 : ℚ) ^ (53 : Int) ≤ x / 2 ^ d.exponent := by
    norm_num
    linarith
  rw [zpow_le_div_zpow_iff (pos_of_contains hsignificand h)] at hbelow
  omega

/-- Above the least exponent, only the interval of a power of two reaches below the binade of its
double, and no further than a quarter of the last digit. -/
theorem of_below_binade {x : ℚ} (hsignificand : 0 < d.significand)
    (h : (roundingInterval d).Contains x) (hexponent : -1074 < d.exponent)
    (hbelow : Int.log 2 x < 52 + d.exponent) :
    d.significand = hiddenBit ∧ (hiddenBit : ℚ) - 1 / 4 ≤ x / 2 ^ d.exponent ∧
      x / 2 ^ d.exponent < hiddenBit := by
  obtain ⟨⟨hlow, _⟩, _⟩ := (contains_roundingInterval_iff hsignificand).mp h
  obtain ⟨hhidden, hfield⟩ := of_neg_1074_lt_exponent hexponent
  have hpower : x / 2 ^ d.exponent < hiddenBit := by
    rw [← Int.not_le, ← zpow_le_div_zpow_iff (pos_of_contains hsignificand h)] at hbelow
    exact lt_of_not_ge hbelow
  have hgap := gapBelow_le d
  have hsame : d.significand = hiddenBit := by
    refine le_antisymm ?_ hhidden
    have hless : (d.significand : ℚ) < hiddenBit + 1 := by linarith
    exact Nat.lt_succ_iff.mp (by exact_mod_cast hless)
  have hquarter : gapBelow d = 1 / 4 := if_pos ⟨hsame, hfield⟩
  rw [hsame, hquarter] at hlow
  exact ⟨hsame, hlow, hpower⟩

/-- Every rational of the rounding interval of a double is rounded to it. One below the binade of
the double is rounded up to the power of two where the binade begins. -/
theorem nearest_eq {numerator denominator : Nat} (hdenominator : 0 < denominator)
    (hfinite : d.isFinite) (hsignificand : 0 < d.significand)
    (h : (roundingInterval d).Contains (numerator / denominator)) :
    nearest d.isNegative numerator denominator = d := by
  have hpositive := pos_of_contains hsignificand h
  have hnumerator : numerator ≠ 0 := by
    rintro rfl
    simp at hpositive
  have hleast := d.neg_1074_le_exponent
  have hlog := log_lt_of_contains hsignificand h
  have hshift := leadingShift_eq (Nat.pos_of_ne_zero hnumerator) hdenominator
  have hfraction := scaledFraction_eq numerator denominator
  have hscaled := scaledFraction_pos numerator hdenominator
  generalize (numerator / denominator : ℚ) = x at *
  by_cases hbinade : 52 + d.exponent ≤ Int.log 2 x ∨ d.exponent = -1074
  · obtain ⟨⟨hlow, hhigh⟩, hodd⟩ := (contains_roundingInterval_iff hsignificand).mp h
    have hgap := gapBelow_le d
    refine nearest_of_word hnumerator hfinite d.exponent (by omega) ?_ rfl
    refine roundDiv_eq (hscaled d.exponent) ?_ ?_ fun h => ?_
    all_goals rw [hfraction]
    · linarith
    · exact hhigh
    · obtain ⟨hleft, hright⟩ := hodd h
      exact ⟨by linarith, hright⟩
  · obtain ⟨habove, hexponent⟩ := not_or.mp hbinade
    obtain ⟨hsame, hlow, hhigh⟩ := of_below_binade hsignificand h (by omega) (by omega)
    have hdouble : x / 2 ^ (d.exponent - 1) = 2 * (x / 2 ^ d.exponent) := by
      rw [zpow_sub_one₀ two_ne_zero]
      field_simp
    have hlast : 51 + d.exponent ≤ Int.log 2 x := by
      rw [← zpow_le_div_zpow_iff hpositive]
      rw [hiddenBit_eq] at hlow
      norm_num at hlow ⊢
      linarith
    refine nearest_of_word hnumerator hfinite (d.exponent - 1) (by omega)
      (roundDiv_eq (n := 2 * hiddenBit) (hscaled _) ?_ ?_ (fun h => by cases h)) ?_
    · rw [hfraction, hdouble, Nat.cast_mul, Nat.cast_ofNat]
      linarith
    · rw [hfraction, hdouble, Nat.cast_mul, Nat.cast_ofNat]
      linarith
    · rw [magnitudeWord, hsame, hiddenBit_eq]
      omega

/-- What a decimal numeral denotes, between the powers of ten that its size gives. -/
theorem decimal_between {mantissa : Nat} (hmantissa : 0 < mantissa) (power : Int) :
    let size : Int := (digits mantissa).length + power
    (10 : ℚ) ^ (size - 1) ≤ mantissa * 10 ^ power ∧ (mantissa * 10 ^ power : ℚ) < 10 ^ size := by
  have hlength : 0 < (digits mantissa).length := List.length_pos_iff.mpr (digits_ne_nil mantissa)
  have hlow : (10 : ℚ) ^ ((digits mantissa).length - 1) ≤ mantissa := by
    exact_mod_cast pow_length_digits_le hmantissa
  have hhigh : (mantissa : ℚ) < 10 ^ (digits mantissa).length := by
    exact_mod_cast lt_pow_length_digits mantissa
  dsimp only
  constructor
  · calc (10 : ℚ) ^ (((digits mantissa).length : Int) + power - 1)
      _ = 10 ^ ((digits mantissa).length - 1) * 10 ^ power := by
          rw [← zpow_natCast, ← zpow_add₀ (by norm_num)]
          congr 1
          omega
      _ ≤ mantissa * 10 ^ power := by gcongr
  · calc (mantissa * 10 ^ power : ℚ)
      _ < 10 ^ (digits mantissa).length * 10 ^ power := by gcongr
      _ = 10 ^ (((digits mantissa).length : Int) + power) := by
          rw [← zpow_natCast, ← zpow_add₀ (by norm_num)]

theorem two_pow_1024_lt : 2 ^ 1024 < 10 ^ 310 := by decide +kernel

theorem two_pow_1075_le : 2 ^ 1075 ≤ 10 ^ 330 := by decide +kernel

/-- The rounding interval of a finite double lies far within the powers of ten beyond which numerals
are not looked at. -/
theorem contains_between {x : ℚ} (hfinite : d.isFinite) (hsignificand : 0 < d.significand)
    (h : (roundingInterval d).Contains x) : (10 : ℚ) ^ (-330 : Int) ≤ x ∧ x < 10 ^ (310 : Int) := by
  obtain ⟨⟨hlow, hhigh⟩, -⟩ := (contains_roundingInterval_iff hsignificand).mp h
  have hgap := gapBelow_le d
  have hone : (1 : ℚ) ≤ d.significand := by exact_mod_cast hsignificand
  have hless : (d.significand : ℚ) + 1 ≤ 2 ^ (53 : Int) := d.significand_add_one_le
  rw [le_div_iff₀ (by positivity)] at hlow
  rw [div_le_iff₀ (by positivity)] at hhigh
  constructor
  · calc (10 : ℚ) ^ (-330 : Int)
      _ = (10 ^ 330)⁻¹ := rfl
      _ ≤ (2 ^ 1075)⁻¹ := by
          have hless := (Nat.cast_le (α := ℚ)).mpr two_pow_1075_le
          rw [Nat.cast_pow, Nat.cast_pow] at hless
          exact inv_anti₀ (by positivity) hless
      _ = 1 / 2 * 2 ^ (-1074 : Int) := by
          rw [one_div, ← zpow_neg_one (2 : ℚ), ← zpow_add₀ two_ne_zero]
          rfl
      _ ≤ (d.significand - gapBelow d) * 2 ^ d.exponent := by
          gcongr
          · linarith
          · linarith
          · norm_num
          · exact d.neg_1074_le_exponent
      _ ≤ x := hlow
  · calc x
      _ ≤ (d.significand + 1 / 2) * 2 ^ d.exponent := hhigh
      _ ≤ 2 ^ (53 : Int) * 2 ^ (971 : Int) := by
          gcongr
          · linarith
          · norm_num
          · exact exponent_le hfinite
      _ < 10 ^ (310 : Int) := by
          have hless := (Nat.cast_lt (α := ℚ)).mpr two_pow_1024_lt
          rw [Nat.cast_pow, Nat.cast_pow] at hless
          rw [← zpow_add₀ two_ne_zero]
          exact hless

/-- A decimal numeral in the rounding interval of a double denotes that double. -/
theorem ofDecimal_eq {mantissa : Nat} {power : Int} (hfinite : d.isFinite)
    (hsignificand : 0 < d.significand)
    (h : (roundingInterval d).Contains (mantissa * 10 ^ power)) :
    ofDecimal d.isNegative mantissa power = d := by
  have hpositive := pos_of_contains hsignificand h
  have hmantissa : 0 < mantissa := by
    by_contra hzero
    simp [Nat.eq_zero_of_not_pos hzero] at hpositive
  obtain ⟨hsmall, hlarge⟩ := contains_between hfinite hsignificand h
  obtain ⟨hlow, hhigh⟩ := decimal_between hmantissa power
  have hleast := (zpow_lt_zpow_iff_right₀ (by norm_num)).mp (hsmall.trans_lt hhigh)
  have hgreatest := (zpow_lt_zpow_iff_right₀ (by norm_num)).mp (hlow.trans_lt hlarge)
  unfold ofDecimal
  dsimp only
  rw [if_neg (by omega), if_neg (by omega)]
  refine nearest_eq (Nat.pow_pos (by decide)) hfinite hsignificand ?_
  have hpower := pow_toNat_div_pow_toNat (b := 10) (by norm_num) power
  rw [← hpower] at h
  simp only [Nat.pow_eq, Nat.cast_mul, Nat.cast_pow, Nat.cast_ofNat]
  rwa [mul_div_assoc]

/-- The two zeros. -/
theorem ofDecimal_zero (hzero : d.significand = 0) (power : Int) :
    ofDecimal d.isNegative 0 power = d := by
  have hfield : d.exponentField = 0 := by
    by_contra hfield
    rw [significand, if_neg hfield, hiddenBit_eq] at hzero
    omega
  have hword : d.magnitudeWord = 0 := by
    rw [magnitudeWord, hzero, exponent, if_pos hfield]
    rfl
  unfold ofDecimal
  dsimp only
  rw [if_pos (Or.inl rfl), ← hword, ofMagnitude_magnitudeWord]

theorem isFinite_ofMagnitude (negative : Bool) {word : Nat} (hword : word < infinityWord) :
    (ofMagnitude negative word).isFinite := by
  rw [infinityWord, hiddenBit_eq] at hword
  have hbits : (ofMagnitude negative word).bits.toNat =
      if negative then signWeight + word else word := by
    rw [ofMagnitude]
    refine UInt64.toNat_ofNat_of_lt' ?_
    rw [signWeight_eq]
    split <;> simp only [UInt64.size] <;> omega
  rw [isFinite, exponentField, hbits, signWeight_eq, hiddenBit_eq, decide_eq_true_eq]
  split <;> omega

theorem roundDiv_le (numerator denominator : Nat) :
    roundDiv numerator denominator ≤ numerator / denominator + 1 := by
  unfold roundDiv
  dsimp only
  split <;> omega

/-- Scaled by its shift, a quotient has 53 binary digits before the point at most. -/
theorem scaledFraction_div_lt {numerator denominator : Nat} (hnumerator : 0 < numerator)
    (hdenominator : 0 < denominator) :
    let scaled := scaledFraction numerator denominator (leadingShift numerator denominator)
    scaled.1 / scaled.2 < 2 * hiddenBit := by
  intro scaled
  have hpositive : (0 : ℚ) < numerator / denominator := by positivity
  have hshift := leadingShift_eq hnumerator hdenominator
  have hscaled : 0 < scaled.2 := scaledFraction_pos numerator hdenominator _
  have hless : (numerator / denominator : ℚ) / 2 ^ leadingShift numerator denominator <
      2 ^ (53 : Int) := by
    rw [div_lt_iff₀ (by positivity), ← zpow_add₀ two_ne_zero]
    exact (Int.lt_zpow_iff_log_lt one_lt_two hpositive).mpr (by omega)
  rw [← scaledFraction_eq, div_lt_iff₀ (by exact_mod_cast hscaled)] at hless
  rw [Nat.div_lt_iff_lt_mul hscaled, hiddenBit_eq]
  exact_mod_cast hless

/-- An integer of 64 bits is rounded to a finite double. -/
theorem isFinite_ofDecimal_integer (negative : Bool) {n : Nat} (hn : n < 2 ^ 64) :
    (ofDecimal negative n 0).isFinite := by
  by_cases hzero : n = 0
  · subst hzero
    exact isFinite_ofMagnitude negative (by decide)
  have hsize : (digits n).length ≤ 20 :=
    (length_digits_le_iff (by decide)).mpr (hn.trans_le (by decide))
  have hdecimal : ofDecimal negative n 0 = nearest negative n 1 := by
    unfold ofDecimal
    dsimp only
    rw [if_neg (by omega), if_neg (by omega)]
    exact congrArg (nearest negative · 1) (Nat.mul_one n)
  have hpositive : 0 < n := Nat.pos_of_ne_zero hzero
  have hlog : Int.log 2 (n / (1 : Nat) : ℚ) < 64 := by
    refine (Int.lt_zpow_iff_log_lt one_lt_two (by positivity)).mp ?_
    norm_num
    exact_mod_cast hn
  have hshift := leadingShift_eq hpositive one_pos
  have hword : (leadingShift n 1 + 1074).toNat * hiddenBit +
      roundDiv (scaledFraction n 1 (leadingShift n 1)).1
        (scaledFraction n 1 (leadingShift n 1)).2 < infinityWord := by
    have hrounded := roundDiv_le (scaledFraction n 1 (leadingShift n 1)).1
      (scaledFraction n 1 (leadingShift n 1)).2
    have hquotient := scaledFraction_div_lt hpositive one_pos
    have hpower : (leadingShift n 1 + 1074).toNat ≤ 1085 := by omega
    have hproduct := Nat.mul_le_mul_right hiddenBit hpower
    rw [infinityWord]
    rw [hiddenBit_eq] at *
    omega
  rw [hdecimal]
  unfold nearest
  dsimp only
  rw [if_neg hzero, if_pos hword]
  exact isFinite_ofMagnitude negative hword

end Double

end Specialization
