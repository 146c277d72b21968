import Mathlib.Data.List.Basic
import Mathlib.Data.List.Induction
import Mathlib.Tactic.Ring
import Specialization.Decimal.Notation

/-!
Runs of decimal digits: how many digits a number has and which is the first, and what a run denotes
that is put together from others.
-/

namespace Specialization.Decimal

/-- A run of digits. -/
def AllDigits (text : List Char) : Prop :=
  ∀ c ∈ text, isDigit c

theorem AllDigits.append {first second : List Char} (hfirst : AllDigits first)
    (hsecond : AllDigits second) : AllDigits (first ++ second) := fun c hc =>
  (List.mem_append.mp hc).elim (hfirst c) (hsecond c)

theorem AllDigits.of_append {first second : List Char} (h : AllDigits (first ++ second)) :
    AllDigits first ∧ AllDigits second :=
  List.forall_mem_append.mp h

/-- What a run of digits starts with is no sign. -/
theorem AllDigits.exists_cons {text : List Char} (h : AllDigits text) (hnonempty : text ≠ []) :
    ∃ c more, text = c :: more ∧ isDigit c ∧ c ≠ '-' ∧ c ≠ '+' := by
  obtain ⟨c, more, rfl⟩ := List.exists_cons_of_ne_nil hnonempty
  have hc : isDigit c := h c List.mem_cons_self
  refine ⟨c, more, rfl, hc, ?_, ?_⟩ <;> rintro rfl <;> cases hc

theorem allDigits_replicate_zero (count : Nat) : AllDigits (List.replicate count '0') :=
  fun _ hc => (List.mem_replicate.mp hc).2 ▸ rfl

theorem allDigits_digits (n : Nat) : AllDigits (digits n) := fun _ hc =>
  Nat.isDigit_of_mem_toDigits (by decide) (by decide) hc

theorem digits_ne_nil (n : Nat) : digits n ≠ [] :=
  Nat.toDigits_ne_nil

theorem length_digits_le_iff {n k : Nat} (hk : 0 < k) : (digits n).length ≤ k ↔ n < 10 ^ k :=
  Nat.length_toDigits_le_iff (by decide) hk

theorem lt_pow_length_digits (n : Nat) : n < 10 ^ (digits n).length :=
  (length_digits_le_iff (List.length_pos_iff.mpr (digits_ne_nil n))).mp (Nat.le_refl _)

theorem pow_length_digits_le {n : Nat} (hn : 0 < n) : 10 ^ ((digits n).length - 1) ≤ n := by
  by_cases hone : (digits n).length - 1 = 0
  · rw [hone]
    exact hn
  · have hless := mt (length_digits_le_iff (n := n) (Nat.pos_of_ne_zero hone)).mpr
    omega

/-- No number but zero is written with a leading zero. -/
theorem head?_digits_ne_zero {n : Nat} (hn : 0 < n) : (digits n).head? ≠ some '0' := by
  induction n using Nat.strongRecOn with
  | ind n ih =>
      rw [digits, Nat.toDigits_eq_if (by decide)]
      split
      · rw [List.head?_cons, ne_eq, Option.some.injEq, Nat.digitChar_eq_zero]
        exact hn.ne'
      · have htens : (digits (n / 10)).head? ≠ some '0' := ih (n / 10) (by omega) (by omega)
        rwa [List.head?_append_of_ne_nil _ Nat.toDigits_ne_nil]

theorem value_digits (n : Nat) : value (digits n) = n :=
  Nat.ofDigitChars_toDigits (by decide) (by decide)

theorem value_append (first second : List Char) :
    value (first ++ second) = value first * 10 ^ second.length + value second := by
  induction second using List.reverseRecOn with
  | nil => simp [value, valueIn]
  | append_singleton rest c ih =>
      have hlast : ∀ text, value (text ++ [c]) = 10 * value text + (c.toNat - '0'.toNat) :=
        fun text => List.foldl_append ..
      rw [← List.append_assoc, hlast, hlast, ih, List.length_append, List.length_singleton]
      ring

theorem value_replicate_zero (count : Nat) : value (List.replicate count '0') = 0 := by
  induction count with
  | zero => rfl
  | succ count ih =>
      rw [List.replicate_succ', value_append, ih]
      rfl

/-- What follows a run of digits: nothing, or what starts with no digit. -/
def Stops (rest : List Char) : Prop :=
  ∀ c ∈ rest.head?, isDigit c = false

theorem takeWhile_run {text rest : List Char} (h : AllDigits text) (hrest : Stops rest) :
    (text ++ rest).takeWhile isDigit = text := by
  rw [List.takeWhile_append_of_pos h]
  cases rest with
  | nil => simp
  | cons c rest => simp [hrest c rfl]

theorem dropWhile_run {text rest : List Char} (h : AllDigits text) (hrest : Stops rest) :
    (text ++ rest).dropWhile isDigit = rest := by
  rw [List.dropWhile_append_of_pos h]
  cases rest with
  | nil => rfl
  | cons c rest => simp [hrest c rfl]

end Specialization.Decimal
