import PracticePlan.Number.Binary64

namespace PracticePlan
namespace Binary64

/-!
# Rounding a quotient

The nearest magnitude to a quotient depends on the quotient alone, not on how
it is written as a fraction (`nearestIndex_eq_of_proportional`).  A quotient
that is a finite magnitude is rounded to that magnitude, a quotient below half
of the least positive magnitude to zero, and one far above all finite
magnitudes to infinity.  Whatever the quotient, it is rounded to a number
(`isNaN_ofQuotient`).
-/

/-! ## Whole numbers -/

theorem roundedQuotient_mul {factor : Nat} (positive : 0 < factor) (dividend divisor : Nat) :
    roundedQuotient (dividend * factor) (divisor * factor) = roundedQuotient dividend divisor := by
  have below : 2 * (dividend % divisor * factor) < divisor * factor ↔
      2 * (dividend % divisor) < divisor := by
    rw [← Nat.mul_assoc]
    exact Nat.mul_lt_mul_right positive
  have above : divisor * factor < 2 * (dividend % divisor * factor) ↔
      divisor < 2 * (dividend % divisor) := by
    rw [← Nat.mul_assoc]
    exact Nat.mul_lt_mul_right positive
  unfold roundedQuotient
  simp only [Nat.mul_div_mul_right _ _ positive, Nat.mul_mod_mul_right, below, above]

theorem roundedQuotient_of_exact {divisor : Nat} (positive : 0 < divisor) (quotient : Nat) :
    roundedQuotient (quotient * divisor) divisor = quotient := by
  unfold roundedQuotient
  rw [Nat.mul_div_cancel quotient positive, Nat.mul_mod_left]
  exact if_pos positive

/-! ## Equal quotients -/

theorem nearestIndex_mul {factor : Nat} (positive : 0 < factor) (dividend divisor : Nat) :
    nearestIndex (dividend * factor) (divisor * factor) = nearestIndex dividend divisor := by
  have scaled : dividend * factor * unitsPerOne = dividend * unitsPerOne * factor :=
    Nat.mul_right_comm dividend factor unitsPerOne
  have spread (places : Nat) : divisor * factor * Nat.pow 2 places =
      divisor * Nat.pow 2 places * factor := Nat.mul_right_comm divisor factor (Nat.pow 2 places)
  unfold nearestIndex
  simp only [scaled, spread, Nat.mul_div_mul_right _ _ positive, roundedQuotient_mul positive]

/-- Fractions of equal value are rounded alike. -/
theorem nearestIndex_eq_of_proportional {first second firstDivisor secondDivisor : Nat}
    (firstPositive : 0 < firstDivisor) (secondPositive : 0 < secondDivisor)
    (equal : first * secondDivisor = second * firstDivisor) :
    nearestIndex first firstDivisor = nearestIndex second secondDivisor := by
  calc nearestIndex first firstDivisor
      = nearestIndex (first * secondDivisor) (firstDivisor * secondDivisor) :=
        (nearestIndex_mul secondPositive first firstDivisor).symm
    _ = nearestIndex (second * firstDivisor) (secondDivisor * firstDivisor) := by
        rw [equal, Nat.mul_comm firstDivisor secondDivisor]
    _ = nearestIndex second secondDivisor := nearestIndex_mul firstPositive second secondDivisor

/-! ## Magnitudes -/

/-- The index from the parts of a magnitude that is not subnormal. -/
theorem log2_unitsOf_of_le {index : Nat} (normal : 0x10000000000000 ≤ index) :
    (unitsOf index).log2 = 52 + (index / 0x10000000000000 - 1) := by
  have rest := Nat.mod_lt index (show 0 < 0x10000000000000 by decide)
  have positive : 0 < Nat.pow 2 (index / 0x10000000000000 - 1) := Nat.pow_pos (by decide)
  rw [unitsOf, if_neg (Nat.not_lt.mpr normal)]
  generalize index / 0x10000000000000 - 1 = power at positive
  have whole : (0x10000000000000 + index % 0x10000000000000) * Nat.pow 2 power ≠ 0 := by
    apply Nat.mul_ne_zero
    · omega
    · exact Nat.ne_of_gt positive
  apply (Nat.log2_eq_iff whole).mpr
  constructor
  · rw [Nat.pow_add]
    exact Nat.mul_le_mul_right _ (by omega)
  · rw [show 52 + power + 1 = 53 + power by omega, Nat.pow_add]
    exact (Nat.mul_lt_mul_right positive).mpr (by omega)

/-- A quotient that is a finite magnitude is rounded to it. -/
theorem nearestIndex_of_exact {index dividend divisor : Nat} (finite : index < infinityIndex)
    (positive : 0 < divisor) (equal : dividend * unitsPerOne = unitsOf index * divisor) :
    nearestIndex dividend divisor = index := by
  have quotient : dividend * unitsPerOne / divisor = unitsOf index := by
    rw [equal, Nat.mul_div_cancel _ positive]
  unfold nearestIndex
  simp only [quotient]
  rw [equal]
  by_cases subnormal : index < 0x10000000000000
  · have same : unitsOf index = index := if_pos subnormal
    have short : index.log2 - 52 = 0 := by
      by_cases zero : index = 0
      · rw [zero]
        rfl
      · have below : index.log2 < 52 := (Nat.log2_lt zero).mpr subnormal
        omega
    rw [same, short, Nat.zero_mul, Nat.zero_add, show Nat.pow 2 0 = 1 from rfl, Nat.mul_one,
      roundedQuotient_of_exact positive]
    exact Nat.min_eq_right (Nat.le_of_lt finite)
  · have normal : 0x10000000000000 ≤ index := Nat.le_of_not_lt subnormal
    have power : 52 + (index / 0x10000000000000 - 1) - 52 = index / 0x10000000000000 - 1 := by
      omega
    have spacing : 0 < divisor * Nat.pow 2 (index / 0x10000000000000 - 1) :=
      Nat.mul_pos positive (Nat.pow_pos (by decide))
    have parts : unitsOf index * divisor = (0x10000000000000 + index % 0x10000000000000) *
        (divisor * Nat.pow 2 (index / 0x10000000000000 - 1)) := by
      rw [unitsOf, if_neg subnormal]
      exact (Nat.mul_assoc _ _ _).trans (congrArg _ (Nat.mul_comm _ _))
    have sum : (index / 0x10000000000000 - 1) * 0x10000000000000 +
        (0x10000000000000 + index % 0x10000000000000) = index := by omega
    rw [log2_unitsOf_of_le normal, power, parts, roundedQuotient_of_exact spacing, sum]
    exact Nat.min_eq_right (Nat.le_of_lt finite)

/-- A quotient below half of the least positive magnitude is rounded to zero. -/
theorem nearestIndex_eq_zero {dividend divisor : Nat}
    (small : 2 * (dividend * unitsPerOne) < divisor) : nearestIndex dividend divisor = 0 := by
  have below : dividend * unitsPerOne < divisor := by omega
  have short : (dividend * unitsPerOne / divisor).log2 - 52 = 0 := by
    rw [Nat.div_eq_of_lt below]
    rfl
  have rounded : roundedQuotient (dividend * unitsPerOne) divisor = 0 := by
    unfold roundedQuotient
    rw [Nat.div_eq_of_lt below, Nat.mod_eq_of_lt below]
    exact if_pos small
  unfold nearestIndex
  simp only [short]
  rw [Nat.zero_mul, Nat.zero_add, show Nat.pow 2 0 = 1 from rfl, Nat.mul_one, rounded]
  exact Nat.min_zero infinityIndex

/-- The binary places of a quotient, counted in units. -/
theorem le_log2_scaled {dividend divisor power places : Nat} (positive : 0 < divisor)
    (large : divisor * Nat.pow 2 power ≤ dividend) :
    power + places ≤ (dividend * Nat.pow 2 places / divisor).log2 := by
  have quotient : 2 ^ (power + places) ≤ dividend * Nat.pow 2 places / divisor := by
    rw [Nat.le_div_iff_mul_le positive]
    calc 2 ^ (power + places) * divisor
        = divisor * Nat.pow 2 power * Nat.pow 2 places := by
          rw [Nat.pow_add, Nat.mul_comm, ← Nat.mul_assoc]
          rfl
      _ ≤ dividend * Nat.pow 2 places := Nat.mul_le_mul_right _ large
  have whole : dividend * Nat.pow 2 places / divisor ≠ 0 :=
    Nat.ne_of_gt (Nat.lt_of_lt_of_le (Nat.pow_pos (by decide)) quotient)
  exact (Nat.le_log2 whole).mpr quotient

/-- A quotient of at least 2^1025 is rounded to infinity. -/
theorem nearestIndex_eq_infinityIndex {dividend divisor power : Nat} (positive : 0 < divisor)
    (beyond : 1025 ≤ power) (large : divisor * Nat.pow 2 power ≤ dividend) :
    nearestIndex dividend divisor = infinityIndex := by
  obtain ⟨units, size, isPower⟩ : ∃ places, places = 1074 ∧ unitsPerOne = Nat.pow 2 places :=
    ⟨1074, rfl, by decide +kernel⟩
  have leading : power + units ≤ (dividend * unitsPerOne / divisor).log2 := by
    rw [isPower]
    exact le_log2_scaled positive large
  have places : 2047 ≤ (dividend * unitsPerOne / divisor).log2 - 52 := by omega
  unfold nearestIndex
  dsimp only
  apply Nat.min_eq_left
  rw [infinityIndex]
  exact Nat.le_trans (Nat.mul_le_mul_right _ places) (Nat.le_add_right _ _)

/-! ## Rounded numbers -/

theorem index_ofIndex (negative : Bool) {index : Nat} (fits : index < 0x8000000000000000) :
    (ofIndex negative index).index = index := by
  unfold ofIndex Binary64.index
  rw [UInt64.toNat_ofNat']
  cases negative with
  | true => simp only [if_true]; omega
  | false => simp only [Bool.false_eq_true, if_false]; omega

/-- A rounded quotient may be infinite, but it is a number. -/
theorem isNaN_ofQuotient (negative : Bool) (dividend divisor : Nat) :
    (ofQuotient negative dividend divisor).isNaN = false := by
  have bound : nearestIndex dividend divisor ≤ infinityIndex := Nat.min_le_left _ _
  have own : (ofQuotient negative dividend divisor).index = nearestIndex dividend divisor :=
    index_ofIndex negative (Nat.lt_of_le_of_lt bound (by decide))
  rw [isNaN, own]
  exact decide_eq_false (Nat.not_lt.mpr bound)

theorem same_self {number : Binary64} (isNumber : number.isNaN = false) :
    number.same number = true := by
  unfold same
  rw [isNumber, BEq.rfl]
  rfl

end Binary64
end PracticePlan
