import Specialization.Json.Reader
import Specialization.Proofs.Decimal.Numeral
import Specialization.Proofs.Decimal.Shortest

/-!
Numbers are read back from their text. A numeral is read up to what cannot belong to it, and it
denotes the double that it was written for, or the integer.
-/

namespace Specialization.Json

open Decimal

/-- What may follow a number in a text: nothing, or what cannot belong to a number. -/
def Ends (rest : List Char) : Prop :=
  ∀ c ∈ rest.head?, isDigit c = false ∧ c ≠ '.' ∧ c ≠ 'e' ∧ c ≠ 'E'

variable {rest : List Char}

theorem Ends.stops (h : Ends rest) : Stops rest := fun c hc => (h c hc).1

theorem readExponent_of_ends (hrest : Ends rest) : readExponent rest = some (none, rest) := by
  cases rest with
  | nil => rfl
  | cons c rest =>
      obtain ⟨_, _, hlower, hupper⟩ := hrest c rfl
      simp [readExponent, hlower, hupper]

theorem readExponent_signed (power : Int) (hrest : Stops rest) :
    readExponent ('e' :: (signed power ++ rest)) = some (some power, rest) := by
  have hdigits := allDigits_digits power.natAbs
  have htake := takeWhile_run hdigits hrest
  have hdrop := dropWhile_run hdigits hrest
  have hvalue := value_digits power.natAbs
  obtain ⟨c, more, hrun, -, hminus, hplus⟩ := hdigits.exists_cons (digits_ne_nil power.natAbs)
  by_cases hnegative : power < 0
  · have hpower : -((power.natAbs : Nat) : Int) = power := by omega
    simp only [readExponent, signed, if_pos hnegative, List.cons_append, htake, hdrop, hvalue,
      hpower]
    simp [hrun]
  · have hpower : ((power.natAbs : Nat) : Int) = power := by omega
    rw [hrun, List.cons_append] at htake hdrop
    rw [hrun] at hvalue
    simp [readExponent, signed, if_neg hnegative, hrun, hminus, hplus, htake, hdrop, hvalue, hpower]

/-- What follows the digits of a numeral: its point and exponent, and then the rest of the text. -/
theorem stops_of_ends (power : Option Int) (hrest : Ends rest) :
    Stops (power.elim [] (fun power => 'e' :: signed power) ++ rest) := by
  cases power with
  | none => exact hrest.stops
  | some power =>
      rintro _ ⟨⟩
      rfl

theorem readExponent_eq (power : Option Int) (hrest : Ends rest) :
    readExponent (power.elim [] (fun power => 'e' :: signed power) ++ rest) =
      some (power, rest) := by
  cases power with
  | none => exact readExponent_of_ends hrest
  | some power => exact readExponent_signed power hrest.stops

theorem readFraction_of_not_point (h : '.' ∉ rest.head?) :
    readFraction rest = some (none, rest) := by
  cases rest with
  | nil => rfl
  | cons c rest =>
      have hpoint : c ≠ '.' := fun hc => h (hc ▸ rfl)
      simp [readFraction, hpoint]

theorem readFraction_eq {fraction : Option (List Char)} (power : Option Int) (hrest : Ends rest)
    (hdigits : ∀ digits ∈ fraction, AllDigits digits ∧ digits ≠ []) :
    let exponent := power.elim [] (fun power => 'e' :: signed power) ++ rest
    readFraction (fraction.elim [] ('.' :: ·) ++ exponent) = some (fraction, exponent) := by
  intro exponent
  have hstops : Stops exponent := stops_of_ends power hrest
  cases fraction with
  | none =>
      refine readFraction_of_not_point ?_
      cases power with
      | none => exact fun hpoint => (hrest _ hpoint).2.1 rfl
      | some power => rintro ⟨⟩
  | some digits =>
      obtain ⟨hall, hnonempty⟩ := hdigits digits rfl
      rw [Option.elim_some, List.cons_append, readFraction, takeWhile_run hall hstops,
        dropWhile_run hall hstops]
      simp [hnonempty]

/-- The sign is read first. -/
theorem readNumber_signed (negative : Bool) {unsigned : List Char} (h : '-' ∉ unsigned.head?) :
    readNumber ((if negative then ['-'] else []) ++ unsigned) =
      let whole := unsigned.takeWhile isDigit
      if whole.isEmpty || (whole.head? == some '0' && 1 < whole.length) then none
      else do
        let (fraction, rest) ← readFraction (unsigned.dropWhile isDigit)
        let (power, rest) ← readExponent rest
        return (ofNumeral negative whole fraction power, rest) := by
  cases negative with
  | true => rfl
  | false =>
      cases unsigned with
      | nil => rfl
      | cons c more =>
          have hminus : c ≠ '-' := fun hc => h (hc ▸ rfl)
          simp only [readNumber, Bool.false_eq_true, if_false, List.nil_append]
          split
          · rename_i hmatch
            exact absurd (List.cons.inj hmatch).1 hminus
          · rfl

/-- A numeral is read part by part. -/
theorem readNumber_numeral {numeral : Numeral} (hformed : numeral.WellFormed) (hrest : Ends rest)
    (negative : Bool) :
    readNumber ((if negative then ['-'] else []) ++ (numeral.text ++ rest)) =
      some (ofNumeral negative numeral.whole numeral.fraction numeral.power, rest) := by
  obtain ⟨whole, fraction, power⟩ := numeral
  obtain ⟨hwhole, hnonempty, hleading, hdigits⟩ := hformed
  dsimp only at *
  have hfraction := readFraction_eq power hrest hdigits
  have hexponent := readExponent_eq power hrest
  have hexponents := stops_of_ends power hrest
  dsimp only at hfraction
  rw [Numeral.text, List.append_assoc, List.append_assoc]
  generalize power.elim [] (fun power => 'e' :: signed power) ++ rest = exponent at *
  have hstops : Stops (fraction.elim [] ('.' :: ·) ++ exponent) := by
    cases fraction with
    | none => exact hexponents
    | some digits =>
        rintro _ ⟨⟩
        rfl
  generalize fraction.elim [] ('.' :: ·) ++ exponent = tail at *
  have hguard : (whole.isEmpty || (whole.head? == some '0' && 1 < whole.length)) = false := by
    by_cases hzero : whole.head? = some '0'
    · simp [hnonempty, hleading hzero]
    · simp [hnonempty, hzero]
  have hminus : '-' ∉ (whole ++ tail).head? := by
    obtain ⟨c, more, rfl, -, hminus, -⟩ := hwhole.exists_cons hnonempty
    rintro ⟨⟩
    exact hminus rfl
  rw [readNumber_signed negative hminus, takeWhile_run hwhole hstops, dropWhile_run hwhole hstops]
  simp only [hguard, hfraction, hexponent, Option.bind_eq_bind, Option.bind_some]
  rfl

theorem digits_wellFormed (n : Nat) : (Numeral.mk (digits n) none none).WellFormed where
  whole := allDigits_digits n
  nonempty := digits_ne_nil n
  leading hzero := by
    by_cases hn : n = 0
    · rw [hn]
      rfl
    · exact absurd hzero (head?_digits_ne_zero (Nat.pos_of_ne_zero hn))
  fraction _ hdigits := nomatch hdigits

/-- An integer of 64 bits is read back from its text. -/
theorem readNumber_integer {i : Int} (hlow : -2 ^ 63 ≤ i) (hhigh : i < 2 ^ 64)
    (hrest : Ends rest) : readNumber (signed i ++ rest) = some (.integer i, rest) := by
  have hread := readNumber_numeral (digits_wellFormed i.natAbs) hrest (i < 0)
  have hsigned : signed i ++ rest = (if decide (i < 0) then ['-'] else []) ++
      ((Numeral.mk (digits i.natAbs) none none).text ++ rest) := by
    simp only [signed, Numeral.text, decide_eq_true_eq]
    split <;> simp
  have hinteger : ofNumeral (i < 0) (digits i.natAbs) none none = .integer i := by
    simp only [ofNumeral, value_digits, Nat.pow_eq]
    by_cases hnegative : i < 0
    · have hsize : 0 < i.natAbs ∧ i.natAbs ≤ 2 ^ 63 := by omega
      have hneg : -((i.natAbs : Nat) : Int) = i := by omega
      simp only [hnegative, hsize, hneg, decide_true, Option.isNone_none, Bool.and_true,
        Bool.not_true, Bool.and_false, Bool.false_and, Bool.false_eq_true, if_false, if_true]
    · have hsize : i.natAbs < 2 ^ 64 := by omega
      have hpos : ((i.natAbs : Nat) : Int) = i := by omega
      simp only [hnegative, hsize, hpos, decide_true, decide_false, Option.isNone_none,
        Bool.and_true, Bool.not_false, if_true]
  rw [hsigned, hread, hinteger]

/-- With a point or an exponent a numeral denotes a double, if that is finite. -/
theorem ofNumeral_fractional {numeral : Numeral} (hfractional : numeral.IsFractional)
    {negative : Bool} {d : Double} (hfinite : d.isFinite)
    (hvalue : Double.ofDecimal negative numeral.mantissa numeral.scale = d) :
    ofNumeral negative numeral.whole numeral.fraction numeral.power = .double d := by
  have hinteger : (numeral.fraction.isNone && numeral.power.isNone) = false := by
    rcases hfractional with h | h <;> simp [Option.isNone_eq_false_iff.mpr h]
  rw [Numeral.mantissa, Numeral.scale] at hvalue
  simp [ofNumeral, hinteger, hvalue, hfinite]

/-- A finite double is read back from its text. -/
theorem readNumber_double {d : Double} (hfinite : d.isFinite) (hrest : Ends rest) :
    readNumber (d.text.toList ++ rest) = some (.double d, rest) := by
  obtain ⟨numeral, htext, hformed, hfractional, hvalue⟩ := Double.text_eq hfinite
  rw [htext, List.append_assoc, readNumber_numeral hformed hrest,
    ofNumeral_fractional hfractional hfinite hvalue]

end Specialization.Json
