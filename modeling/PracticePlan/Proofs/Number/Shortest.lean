import PracticePlan.Number.Shortest
import PracticePlan.Proofs.Number.Rounding

namespace PracticePlan
namespace Decimal

/-!
# The shortest decimal is read back

The nearest magnitude to a decimal does not change when zeros at the end of its
digits move into the exponent.  Every candidate of the search has passed the
rounding test, and the exact expansion that stands behind the search passes it
too.  So the decimal chosen for a finite magnitude is nearest to that magnitude,
whichever way ties go (`nearestIndex_shortest`).
-/

theorem divisor_pos (decimal : Decimal) : 0 < decimal.divisor :=
  Nat.pow_pos (by decide)

/-! ## Decimals of equal value -/

theorem nearestIndex_tens (digits : Nat) (exponent : Int) :
    nearestIndex ⟨digits * 10, exponent⟩ = nearestIndex ⟨digits, exponent + 1⟩ := by
  apply Binary64.nearestIndex_eq_of_proportional (divisor_pos _) (divisor_pos _)
  have step (power : Nat) : Nat.pow 10 (power + 1) = 10 * Nat.pow 10 power :=
    Nat.mul_comm (Nat.pow 10 power) 10
  unfold dividend divisor
  dsimp only
  by_cases whole : 0 ≤ exponent
  · have raised : (exponent + 1).toNat = exponent.toNat + 1 := by omega
    have unscaled : (-(exponent + 1)).toNat = (-exponent).toNat := by omega
    rw [raised, unscaled, step, Nat.mul_assoc digits]
  · have lowered : (-exponent).toNat = (-(exponent + 1)).toNat + 1 := by omega
    have unscaled : (exponent + 1).toNat = exponent.toNat := by omega
    rw [lowered, unscaled, step, Nat.mul_right_comm digits 10, Nat.mul_assoc _ 10]

/-- Digits that are already scaled need no exponent. -/
theorem nearestIndex_scaled (digits power : Nat) :
    nearestIndex ⟨digits * Nat.pow 10 power, 0⟩ = nearestIndex ⟨digits, power⟩ := by
  have unscaled : (-(power : Int)).toNat = 0 := by omega
  have same : dividend ⟨digits * Nat.pow 10 power, 0⟩ = dividend ⟨digits, power⟩ := by
    rw [dividend, dividend, Int.toNat_natCast]
    exact Nat.mul_one _
  have whole : divisor ⟨digits * Nat.pow 10 power, 0⟩ = divisor ⟨digits, power⟩ := by
    rw [divisor, divisor, unscaled]
    rfl
  rw [nearestIndex, nearestIndex, same, whole]

theorem nearestIndex_stripZeros (fuel : Nat) (decimal : Decimal) :
    (stripZeros fuel decimal).nearestIndex = decimal.nearestIndex := by
  induction fuel generalizing decimal with
  | zero => rfl
  | succ fuel inductionHypothesis =>
      unfold stripZeros
      split
      · next ends =>
          have zero : decimal.digits % 10 = 0 := by simpa using (Bool.and_eq_true_iff.mp ends).1
          have whole : decimal.digits / 10 * 10 = decimal.digits :=
            Nat.div_mul_cancel (Nat.dvd_of_mod_eq_zero zero)
          rw [inductionHypothesis, ← nearestIndex_tens, whole]
      · rfl

/-! ## The search -/

theorem nearestIndex_of_onGrid? {tie : Tie} {index : Nat} {exponent : Int} {decimal : Decimal}
    (found : onGrid? tie index exponent = some decimal) : decimal.nearestIndex = index := by
  unfold onGrid? at found
  dsimp only at found
  have passed := List.find?_some found
  simpa only [decide_eq_true_eq] using passed

theorem nearestIndex_exactly {index : Nat} (finite : index < Binary64.infinityIndex) :
    (exactly (Binary64.unitsOf index)).nearestIndex = index := by
  have tens : Nat.pow 5 1074 * Nat.pow 10 (-1074 : Int).toNat * Binary64.unitsPerOne =
      Nat.pow 10 (- -1074 : Int).toNat := by
    decide +kernel
  apply Binary64.nearestIndex_of_exact finite (divisor_pos _)
  rw [dividend, divisor, exactly, ← tens]
  generalize Nat.pow 5 1074 = fives
  rw [← Nat.mul_assoc, ← Nat.mul_assoc]

/-- The shortest decimal of a finite magnitude is nearest to that magnitude. -/
theorem nearestIndex_shortest (tie : Tie) {index : Nat} (finite : index < Binary64.infinityIndex) :
    (shortest tie index).nearestIndex = index := by
  unfold shortest
  dsimp only
  rw [nearestIndex_stripZeros]
  cases search : (List.range 17).findSome? fun (places : Nat) =>
      onGrid? tie index (leadingPower (Binary64.unitsOf index) - places) with
  | none => exact nearestIndex_exactly finite
  | some decimal =>
      rcases List.exists_of_findSome?_eq_some search with ⟨places, -, found⟩
      exact nearestIndex_of_onGrid? found

end Decimal
end PracticePlan
