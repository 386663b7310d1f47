import PracticePlan.Proofs.Text.Trimming
import PracticePlan.Text.Numeral

namespace PracticePlan
namespace Text

/-!
# Numerals of numbers

The digits of a number are read back as that number.  They are never empty, hold
nothing but ASCII digits, and start with a zero only when the number is zero.
-/

theorem digitsOf_ne_nil (value : Nat) : digitsOf value ≠ [] :=
  Nat.toDigits_ne_nil

theorem isDigit_of_mem_digitsOf {value : Nat} {c : Char} (member : c ∈ digitsOf value) :
    c.isDigit = true :=
  Nat.isDigit_of_mem_toDigits (by decide) (by decide) member

theorem valueFrom_digitsOf (value : Nat) : valueFrom 0 (digitsOf value) = value :=
  Nat.ofDigitChars_ten_toDigits

theorem numeral?_digitsOf (value : Nat) : numeral? (digitsOf value) = some value := by
  have digits : (digitsOf value).all Char.isDigit = true :=
    List.all_eq_true.mpr fun c member => isDigit_of_mem_digitsOf member
  have present : (digitsOf value).isEmpty = false :=
    List.isEmpty_eq_false_iff.mpr (digitsOf_ne_nil value)
  rw [numeral?, digits, present, valueFrom_digitsOf]
  rfl

/-- No number but zero starts with the digit zero. -/
theorem head?_digitsOf_ne_zero {value : Nat} (positive : value ≠ 0) :
    (digitsOf value).head? ≠ some '0' := by
  induction value using Nat.strongRecOn with
  | ind value inductionHypothesis =>
      by_cases small : value < 10
      · rw [digitsOf, Nat.toDigits_of_lt_base small]
        have each : ∀ digit : Fin 10, digit.val ≠ 0 → [digit.val.digitChar].head? ≠ some '0' := by
          decide
        exact each ⟨value, small⟩ positive
      · have large : 10 ≤ value := Nat.le_of_not_lt small
        have tens : value / 10 ≠ 0 := by omega
        rw [digitsOf, Nat.toDigits_of_base_le (by decide) large, List.head?_append]
        have front := inductionHypothesis (value / 10) (by omega) tens
        cases first : (digitsOf (value / 10)).head? with
        | none => exact absurd (List.head?_eq_none_iff.mp first) (digitsOf_ne_nil _)
        | some c =>
            rw [first] at front
            rw [show (Nat.toDigits 10 (value / 10)).head? = some c from first]
            exact front

theorem isBlank_of_isDigit {c : Char} (digit : c.isDigit = true) : isBlank c = false := by
  have bounds : 48 ≤ c.toNat ∧ c.toNat ≤ 57 := Char.isDigit_iff_toNat.mp digit
  simp only [isBlank, inRanges, blankRanges, List.any_cons, List.any_nil, Bool.or_false,
    Bool.or_eq_false_iff, Bool.and_eq_false_iff, decide_eq_false_iff_not]
  omega

theorem tight_digitsOf (value : Nat) : Tight (digitsOf value) :=
  tight_of_solid fun _ member => isBlank_of_isDigit (isDigit_of_mem_digitsOf member)

/-- The digits of a number below a bound are read back, since no sign stands in
front of them. -/
theorem signedNumeralBelow?_digitsOf (bound value : Nat) :
    signedNumeralBelow? bound (digitsOf value) = if value < bound then some value else none := by
  unfold signedNumeralBelow?
  dsimp only
  split
  · next starts =>
      exact absurd (isDigit_of_mem_digitsOf (starts ▸ List.mem_cons_self)) (by decide)
  · rw [numeral?_digitsOf, Option.filter_some]
    simp only [decide_eq_true_eq]

end Text
end PracticePlan
