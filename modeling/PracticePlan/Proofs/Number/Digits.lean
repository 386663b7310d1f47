import PracticePlan.Number.Text
import PracticePlan.Proofs.Number.Shortest
import PracticePlan.Proofs.Text.Numeral

namespace PracticePlan

/-!
# Runs of digits as numbers

Reading a run of digits with a power of ten gives the nearest number, whatever
the length of the run and the size of the power (`ofScaledDigits_of_digits`).
The reader skips zeros in front and does not compute numbers beyond the range of
binary64; both shortcuts agree with the plain rounding.
-/

namespace Text

/-! ## The value of a run of digits -/

theorem valueFrom_append (start : Nat) (front back : List Char) :
    valueFrom start (front ++ back) = valueFrom (valueFrom start front) back :=
  List.foldl_append

theorem valueFrom_zeros (start count : Nat) :
    valueFrom start (List.replicate count '0') = start * Nat.pow 10 count := by
  induction count generalizing start with
  | zero => exact (Nat.mul_one start).symm
  | succ count inductionHypothesis =>
      calc valueFrom start (List.replicate (count + 1) '0')
          = valueFrom (10 * start + 0) (List.replicate count '0') := rfl
        _ = 10 * start * Nat.pow 10 count := inductionHypothesis _
        _ = start * (Nat.pow 10 count * 10) := by
            rw [Nat.mul_comm 10 start, Nat.mul_assoc, Nat.mul_comm 10]

/-- Zeros in front of a number do not count. -/
theorem valueFrom_dropWhile_zeros (digits : List Char) :
    valueFrom 0 (digits.dropWhile (· = '0')) = valueFrom 0 digits := by
  induction digits with
  | nil => rfl
  | cons c others inductionHypothesis =>
      by_cases zero : c = '0'
      · subst zero
        exact inductionHypothesis
      · rw [List.dropWhile_cons_of_neg (by simpa using zero)]

theorem digitValue_lt {c : Char} (digit : c.isDigit = true) : digitValue c < 10 := by
  have bounds : 48 ≤ c.toNat ∧ c.toNat ≤ 57 := Char.isDigit_iff_toNat.mp digit
  have zero : ('0' : Char).toNat = 48 := rfl
  rw [digitValue, zero]
  omega

theorem digitValue_pos {c : Char} (digit : c.isDigit = true) (nonzero : c ≠ '0') :
    0 < digitValue c := by
  have bounds : 48 ≤ c.toNat ∧ c.toNat ≤ 57 := Char.isDigit_iff_toNat.mp digit
  have zero : ('0' : Char).toNat = 48 := rfl
  have other : c.toNat ≠ 48 := fun same => nonzero (Char.toNat_inj.mp (same.trans zero.symm))
  rw [digitValue, zero]
  omega

/-- Digits behind a prefix shift it and add less than one to its last place. -/
theorem valueFrom_bounds (start : Nat) {digits : List Char}
    (all : ∀ c ∈ digits, c.isDigit = true) :
    start * Nat.pow 10 digits.length ≤ valueFrom start digits ∧
      valueFrom start digits < (start + 1) * Nat.pow 10 digits.length := by
  induction digits generalizing start with
  | nil =>
      constructor
      · exact Nat.le_of_eq (Nat.mul_one start)
      · exact Nat.lt_of_lt_of_eq (Nat.lt_succ_self start) (Nat.mul_one (start + 1)).symm
  | cons c others inductionHypothesis =>
      have small := digitValue_lt (all c List.mem_cons_self)
      rcases inductionHypothesis (10 * start + digitValue c)
        (fun other member => all other (List.mem_cons_of_mem c member)) with ⟨least, most⟩
      have shift (value : Nat) : value * Nat.pow 10 (others.length + 1) =
          10 * value * Nat.pow 10 others.length := by
        rw [Nat.mul_comm 10 value, Nat.mul_assoc, Nat.mul_comm 10]
        rfl
      rw [List.length_cons, shift, shift]
      constructor
      · exact Nat.le_trans (Nat.mul_le_mul_right _ (by omega)) least
      · exact Nat.lt_of_lt_of_le most (Nat.mul_le_mul_right _ (by omega))

end Text

namespace Binary64

/-! ## Powers of ten beyond the range -/

/-- Below 10^-330 a decimal is rounded to zero. -/
theorem nearestIndex_eq_zero_of_digits {digits : List Char}
    (all : ∀ c ∈ digits, c.isDigit = true) {exponent : Int}
    (small : (digits.length : Int) + exponent < -330) :
    Decimal.nearestIndex ⟨Text.valueFrom 0 digits, exponent⟩ = 0 := by
  have below : Text.valueFrom 0 digits < Nat.pow 10 digits.length :=
    Nat.lt_of_lt_of_eq (Text.valueFrom_bounds 0 all).2 (Nat.one_mul _)
  have unscaled : exponent.toNat = 0 := by omega
  -- The number of places is bound, so that no later step evaluates the power.
  obtain ⟨places, room, halfUnit⟩ : ∃ places, digits.length + places ≤ (-exponent).toNat ∧
      2 * unitsPerOne ≤ Nat.pow 10 places := ⟨331, by omega, by decide +kernel⟩
  apply nearestIndex_eq_zero
  rw [Decimal.dividend, Decimal.divisor, unscaled, show Nat.pow 10 0 = 1 from rfl, Nat.mul_one]
  generalize unitsPerOne = units at halfUnit
  calc 2 * (Text.valueFrom 0 digits * units)
      = Text.valueFrom 0 digits * (2 * units) := Nat.mul_left_comm _ _ _
    _ ≤ Text.valueFrom 0 digits * Nat.pow 10 places := Nat.mul_le_mul_left _ halfUnit
    _ < Nat.pow 10 digits.length * Nat.pow 10 places :=
        (Nat.mul_lt_mul_right (Nat.pow_pos (by decide))).mpr below
    _ = Nat.pow 10 (digits.length + places) := (Nat.pow_add 10 _ _).symm
    _ ≤ Nat.pow 10 (-exponent).toNat := Nat.pow_le_pow_right (by decide) room

/-- From 10^310 on a decimal is rounded to infinity. -/
theorem nearestIndex_eq_infinityIndex_of_digits {first : Char} {others : List Char}
    (all : ∀ c ∈ first :: others, c.isDigit = true) (nonzero : first ≠ '0') {exponent : Int}
    (large : 310 < ((first :: others).length : Int) + exponent) :
    Decimal.nearestIndex ⟨Text.valueFrom 0 (first :: others), exponent⟩ = infinityIndex := by
  have leading : 0 < Text.digitValue first := Text.digitValue_pos (all first List.mem_cons_self) nonzero
  have least : Nat.pow 10 others.length ≤ Text.valueFrom 0 (first :: others) := by
    have rest := Text.valueFrom_bounds (Text.digitValue first)
      fun c member => all c (List.mem_cons_of_mem first member)
    have same : Text.valueFrom 0 (first :: others) =
        Text.valueFrom (Text.digitValue first) others := by
      rw [Text.valueFrom, List.foldl_cons, Nat.mul_zero, Nat.zero_add]
      rfl
    rw [same]
    exact Nat.le_trans (Nat.le_mul_of_pos_left _ leading) rest.1
  rw [List.length_cons] at large
  obtain ⟨power, beyond, places, room, enough⟩ : ∃ power, 1025 ≤ power ∧ ∃ places,
      (-exponent).toNat + places ≤ others.length + exponent.toNat ∧
        Nat.pow 2 power ≤ Nat.pow 10 places :=
    ⟨1025, Nat.le_refl 1025, 310, by omega, by decide +kernel⟩
  apply nearestIndex_eq_infinityIndex (Decimal.divisor_pos _) beyond
  rw [Decimal.dividend, Decimal.divisor]
  calc Nat.pow 10 (-exponent).toNat * Nat.pow 2 power
      ≤ Nat.pow 10 (-exponent).toNat * Nat.pow 10 places := Nat.mul_le_mul_left _ enough
    _ = Nat.pow 10 ((-exponent).toNat + places) := (Nat.pow_add 10 _ _).symm
    _ ≤ Nat.pow 10 (others.length + exponent.toNat) := Nat.pow_le_pow_right (by decide) room
    _ = Nat.pow 10 others.length * Nat.pow 10 exponent.toNat := Nat.pow_add 10 _ _
    _ ≤ Text.valueFrom 0 (first :: others) * Nat.pow 10 exponent.toNat :=
        Nat.mul_le_mul_right _ least

/-! ## The reader -/

theorem nearestIndex_of_no_digits (exponent : Int) : Decimal.nearestIndex ⟨0, exponent⟩ = 0 := by
  apply nearestIndex_eq_zero
  rw [Decimal.dividend, Nat.zero_mul, Nat.zero_mul, Nat.mul_zero]
  exact Decimal.divisor_pos _

/-- A run of digits with a power of ten is read as the nearest number. -/
theorem ofScaledDigits_of_digits (negative : Bool) {digits : List Char}
    (all : ∀ c ∈ digits, c.isDigit = true) (exponent : Int) :
    ofScaledDigits negative digits exponent =
      ofIndex negative (Decimal.nearestIndex ⟨Text.valueFrom 0 digits, exponent⟩) := by
  have significantAll : ∀ c ∈ digits.dropWhile (· = '0'), c.isDigit = true := fun c member =>
    all c ((List.dropWhile_sublist _).subset member)
  have stopped := List.head?_dropWhile_not (fun (c : Char) => decide (c = '0')) digits
  unfold ofScaledDigits
  dsimp only
  rw [← Text.valueFrom_dropWhile_zeros digits]
  generalize digits.dropWhile (· = '0') = significant at significantAll stopped
  cases significant with
  | nil => exact congrArg (ofIndex negative) (nearestIndex_of_no_digits exponent).symm
  | cons first others =>
      have nonzero : first ≠ '0' := by simpa using stopped
      rw [List.isEmpty_cons, Bool.false_or]
      split
      · next small =>
          rw [nearestIndex_eq_zero_of_digits significantAll (of_decide_eq_true small)]
      · split
        · next large =>
            rw [nearestIndex_eq_infinityIndex_of_digits significantAll nonzero large]
        · rfl

end Binary64
end PracticePlan
