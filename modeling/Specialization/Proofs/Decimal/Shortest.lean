import Mathlib.Data.Nat.Cast.Order.Field
import Specialization.Proofs.Decimal.Rounding

/-!
The shortest decimal of a double other than zero lies in its rounding interval: what is found on a
grid lies there, and on the grid of seventeen digits something is found.
-/

namespace Specialization.Decimal

/-- A point of a grid lies in an interval when it is held. -/
theorem RoundingInterval.holds_iff (interval : RoundingInterval) (power : Int) (count : Nat) :
    interval.holds power count = true ↔ interval.Contains (count * 10 ^ power) := by
  have hscale : (0 : ℚ) < 10 ^ (-power).toNat := by positivity
  have hpoint : (count * 10 ^ power * interval.denominator : ℚ) =
      (count * (interval.denominator * 10 ^ power.toNat)) / 10 ^ (-power).toNat := by
    rw [← pow_toNat_div_pow_toNat (b := 10) (by norm_num) power]
    field_simp
  rw [Contains, hpoint, le_div_iff₀ hscale, div_le_iff₀ hscale, lt_div_iff₀ hscale,
    div_lt_iff₀ hscale]
  unfold holds
  simp only [Nat.pow_eq]
  norm_cast
  cases interval.closed with
  | true => simp
  | false =>
      simp only [Bool.false_eq_true, if_false, Bool.and_eq_true, decide_eq_true_eq, true_imp_iff]
      omega

theorem RoundingInterval.holds_of_onGrid? {interval : RoundingInterval} {power : Int} {count : Nat}
    (h : interval.onGrid? power = some count) : interval.holds power count = true := by
  unfold onGrid? at h
  dsimp only at h
  split at h
  · rename_i hbelow habove
    split at h <;> cases h <;> assumption
  all_goals cases h; try assumption

/-- The power of ten of the first digit of a quotient is no larger than the quotient. -/
theorem pow_leadingPower_le {numerator denominator : Nat} (hnumerator : 0 < numerator)
    (hdenominator : 0 < denominator) :
    (10 : ℚ) ^ leadingPower numerator denominator ≤ numerator / denominator := by
  unfold leadingPower
  split
  · have hquotient : 0 < numerator / denominator := Nat.div_pos ‹_› hdenominator
    have hlength := List.length_pos_iff.mpr (digits_ne_nil (numerator / denominator))
    have hpower : ((digits (numerator / denominator)).length : Int) - 1 =
        ((digits (numerator / denominator)).length - 1 : Nat) := by omega
    rw [hpower, zpow_natCast]
    calc (10 : ℚ) ^ ((digits (numerator / denominator)).length - 1)
      _ ≤ (numerator / denominator : Nat) := by exact_mod_cast pow_length_digits_le hquotient
      _ ≤ numerator / denominator := Nat.cast_div_le
  · have hless := lt_pow_length_digits ((denominator + numerator - 1) / numerator - 1)
    generalize (digits ((denominator + numerator - 1) / numerator - 1)).length = length at *
    have hcovers : denominator ≤ numerator * 10 ^ length := by
      have hsplit := Nat.div_add_mod (denominator + numerator - 1) numerator
      have hrest := Nat.mod_lt (denominator + numerator - 1) hnumerator
      calc denominator
        _ ≤ numerator * ((denominator + numerator - 1) / numerator) := by omega
        _ ≤ numerator * 10 ^ length := Nat.mul_le_mul_left numerator (by omega)
    rw [zpow_neg, zpow_natCast, inv_le_comm₀ (by positivity) (by positivity), inv_div,
      div_le_iff₀ (by positivity), mul_comm]
    exact_mod_cast hcovers

variable {d : Double}

/-- The middle of the rounding interval is the double itself. -/
theorem middle_eq (d : Double) :
    ((roundingInterval d).middle : ℚ) / (roundingInterval d).denominator =
      d.significand * 2 ^ d.exponent := by
  have hmiddle : (roundingInterval d).middle =
      4 * d.significand * 2 ^ (d.exponent - 2).toNat := rfl
  rw [hmiddle, Nat.cast_mul, Nat.cast_pow, Nat.cast_ofNat, mul_div_assoc, quarter_eq]
  push_cast
  ring

/-- The middle of an interval lies between its neighbours on a grid. -/
theorem RoundingInterval.middle_between {interval : RoundingInterval} (power : Int)
    (hdenominator : 0 < interval.denominator) :
    let below := interval.middle * Nat.pow 10 (-power).toNat /
      (interval.denominator * Nat.pow 10 power.toNat)
    (below * 10 ^ power : ℚ) ≤ interval.middle / interval.denominator ∧
      (interval.middle / interval.denominator : ℚ) < (below + 1 : Nat) * 10 ^ power := by
  have hstep : 0 < interval.denominator * 10 ^ power.toNat := by positivity
  have hlow := Nat.mul_div_le (interval.middle * 10 ^ (-power).toNat)
    (interval.denominator * 10 ^ power.toNat)
  have hhigh := Nat.lt_mul_div_succ (interval.middle * 10 ^ (-power).toNat) hstep
  simp only [Nat.pow_eq]
  generalize interval.middle * 10 ^ (-power).toNat /
    (interval.denominator * 10 ^ power.toNat) = below at *
  have hpositive : (0 : ℚ) < interval.denominator := by exact_mod_cast hdenominator
  rw [← pow_toNat_div_pow_toNat (b := 10) (by norm_num) power, mul_div_assoc', mul_div_assoc',
    div_le_div_iff₀ (by positivity) hpositive, div_lt_div_iff₀ hpositive (by positivity)]
  constructor
  · have : (interval.denominator * 10 ^ power.toNat * below : ℚ) ≤
        interval.middle * 10 ^ (-power).toNat := by exact_mod_cast hlow
    linarith
  · have : (interval.middle * 10 ^ (-power).toNat : ℚ) <
        interval.denominator * 10 ^ power.toNat * (below + 1 : Nat) := by exact_mod_cast hhigh
    linarith

theorem contains_of_between {x : ℚ} (hsignificand : 0 < d.significand)
    (hlow : d.significand - gapBelow d < x / 2 ^ d.exponent)
    (hhigh : x / 2 ^ d.exponent < d.significand + 1 / 2) : (roundingInterval d).Contains x :=
  (contains_roundingInterval_iff hsignificand).mpr ⟨⟨hlow.le, hhigh.le⟩, fun _ => ⟨hlow, hhigh⟩⟩

/-- A neighbour of a double on a grid whose step is narrower than the rounding interval lies in
that interval. -/
theorem isSome_onGrid? {power : Int} (hsignificand : 0 < d.significand)
    (hstep : (10 : ℚ) ^ power < (gapBelow d + 1 / 2) * 2 ^ d.exponent) :
    ((roundingInterval d).onGrid? power).isSome := by
  have hunit : (0 : ℚ) < 2 ^ d.exponent := by positivity
  obtain ⟨hlow, hhigh⟩ := RoundingInterval.middle_between power (denominator_pos d)
  rw [middle_eq, ← div_le_iff₀ hunit] at hlow
  rw [middle_eq, ← lt_div_iff₀ hunit] at hhigh
  have hgap := gapBelow_pos d
  unfold RoundingInterval.onGrid?
  dsimp only
  generalize (roundingInterval d).middle * Nat.pow 10 (-power).toNat /
    ((roundingInterval d).denominator * Nat.pow 10 power.toNat) = below at *
  have hnext : ((below + 1 : Nat) * 10 ^ power : ℚ) / 2 ^ d.exponent <
      below * 10 ^ power / 2 ^ d.exponent + (gapBelow d + 1 / 2) := by
    rw [div_add' _ _ _ hunit.ne']
    gcongr
    push_cast
    linarith
  -- If the neighbour below lies below the interval, the one above is not far enough to miss it.
  have hheld : (roundingInterval d).holds power below ∨
      (roundingInterval d).holds power (below + 1) := by
    by_cases hnear : d.significand - gapBelow d < below * 10 ^ power / 2 ^ d.exponent
    · exact Or.inl ((RoundingInterval.holds_iff _ _ _).mpr
        (contains_of_between hsignificand hnear (by linarith)))
    · exact Or.inr ((RoundingInterval.holds_iff _ _ _).mpr
        (contains_of_between hsignificand (by linarith) (by linarith)))
  split <;> simp_all

/-- The step of the grid of seventeen digits is that narrow. -/
theorem pow_leadingPower_lt (hsignificand : 0 < d.significand) :
    (10 : ℚ) ^ (leadingPower (roundingInterval d).middle (roundingInterval d).denominator - 16) <
      (gapBelow d + 1 / 2) * 2 ^ d.exponent := by
  have hunit : (0 : ℚ) < 2 ^ d.exponent := by positivity
  have hless := d.significand_add_one_le
  have hwide : (d.significand : ℚ) / 10 ^ 16 < gapBelow d + 1 / 2 := by
    unfold gapBelow
    split
    · rename_i hbinade
      rw [hbinade.1, Double.hiddenBit_eq]
      norm_num
    · rw [div_lt_iff₀ (by norm_num)]
      linarith
  have hmiddle : 0 < (roundingInterval d).middle :=
    Nat.mul_pos (Nat.mul_pos (by decide) hsignificand) (Nat.pow_pos (by decide))
  have hleading := pow_leadingPower_le hmiddle (denominator_pos d)
  rw [middle_eq] at hleading
  calc (10 : ℚ) ^ (leadingPower (roundingInterval d).middle (roundingInterval d).denominator - 16)
    _ = 10 ^ leadingPower (roundingInterval d).middle (roundingInterval d).denominator / 10 ^ 16 := by
        rw [zpow_sub₀ (by norm_num)]
        norm_cast
    _ ≤ d.significand * 2 ^ d.exponent / 10 ^ 16 := by gcongr
    _ = d.significand / 10 ^ 16 * 2 ^ d.exponent := by ring
    _ < (gapBelow d + 1 / 2) * 2 ^ d.exponent := by gcongr

/-- The shortest decimal of a double other than zero lies in its rounding interval. -/
theorem shortest_contains (hsignificand : 0 < d.significand) :
    (roundingInterval d).Contains ((shortest d).count * 10 ^ (shortest d).power) := by
  unfold shortest
  dsimp only
  generalize hleading :
    leadingPower (roundingInterval d).middle (roundingInterval d).denominator = leading
  have hsome : (((List.range 17).map fun (extra : Nat) => leading - extra).findSome? fun power =>
      ((roundingInterval d).onGrid? power).map fun count => (⟨count, power⟩ : Scaled)).isSome := by
    refine List.findSome?_isSome_iff.mpr ⟨leading - 16, List.mem_map.mpr ⟨16, by decide, rfl⟩, ?_⟩
    rw [Option.isSome_map]
    exact isSome_onGrid? hsignificand (hleading ▸ pow_leadingPower_lt hsignificand)
  obtain ⟨found, hfound⟩ := Option.isSome_iff_exists.mp hsome
  rw [hfound, Option.getD_some]
  obtain ⟨power, _, hgrid⟩ := List.exists_of_findSome?_eq_some hfound
  obtain ⟨count, hcount, rfl⟩ := Option.map_eq_some_iff.mp hgrid
  exact (RoundingInterval.holds_iff _ _ _).mp (RoundingInterval.holds_of_onGrid? hcount)

end Specialization.Decimal
