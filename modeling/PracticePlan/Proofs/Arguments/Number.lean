import PracticePlan.Arguments.Positional
import PracticePlan.Proofs.Number.ReadBack

namespace PracticePlan

/-!
# Number arguments

A number argument is always finite, since any other text stands for zero.  Its
own text is read as the same number (`same_numberOf_numberText`).  The bits may
change in one case only: a negative zero is written without its sign.  Texts of
numbers have no blanks, so trimming does nothing to them.
-/

namespace Binary64

theorem same_self_of_isFinite {number : Binary64} (finite : number.isFinite = true) :
    number.same number = true :=
  same_self (isNaN_of_isFinite finite)

theorem isFinite_of_isZero {number : Binary64} (zero : number.isZero = true) :
    number.isFinite = true := by
  have index : number.index = 0 := of_decide_eq_true zero
  rw [isFinite, index]
  rfl

theorem same_of_isZero {first second : Binary64} (firstZero : first.isZero = true)
    (secondZero : second.isZero = true) : first.same second = true := by
  unfold same
  rw [isNaN_of_isFinite (isFinite_of_isZero firstZero),
    isNaN_of_isFinite (isFinite_of_isZero secondZero), firstZero, secondZero]
  exact Bool.or_true _

/-- Equal numbers have the same bits unless they are the two zeros. -/
theorem eq_or_isZero_of_same {first second : Binary64} (equal : first.same second = true) :
    first = second ∨ first.isZero = true ∧ second.isZero = true := by
  simp only [same, Bool.and_eq_true, Bool.or_eq_true, beq_iff_eq] at equal
  rcases equal.2 with bits | zeros
  · left
    cases first
    cases second
    exact congrArg Binary64.mk bits
  · exact Or.inr zeros

theorem index_eq_zero_of_unitsOf {index : Nat} (zero : unitsOf index = 0) : index = 0 := by
  unfold unitsOf at zero
  split at zero
  · exact zero
  · exfalso
    rcases Nat.mul_eq_zero.mp zero with leading | spacing
    · omega
    · exact absurd spacing (Nat.ne_of_gt (Nat.pow_pos (by decide)))

/-! ## Whole numbers -/

theorem toInt?_of_isZero {number : Binary64} (zero : number.isZero = true) :
    number.toInt? = some 0 := by
  have index : number.index = 0 := of_decide_eq_true zero
  have units : number.units = 0 := by
    rw [units, index]
    rfl
  rw [toInt?, isFinite_of_isZero zero, units, Nat.zero_mod, Nat.zero_div]
  cases number.isNegative <;> rfl

/-- A number without a fractional part is its sign and a whole number of ones. -/
theorem exists_units_of_toInt? {number : Binary64} {value : Int}
    (whole : number.toInt? = some value) :
    number.units = value.natAbs * unitsPerOne ∧ number.isFinite = true ∧
      (number.isZero = false → decide (value < 0) = number.isNegative) := by
  unfold toInt? at whole
  split at whole
  · next shape =>
      simp only [Bool.and_eq_true, decide_eq_true_eq] at shape
      have units : number.units / unitsPerOne * unitsPerOne = number.units :=
        Nat.div_mul_cancel (Nat.dvd_of_mod_eq_zero shape.2)
      have signed := Option.some.inj whole
      generalize number.units / unitsPerOne = magnitude at units signed
      have absolute : value.natAbs = magnitude := by
        rw [← signed]
        split <;> omega
      refine ⟨by rw [absolute, units], shape.1, ?_⟩
      intro nonzero
      have positive : magnitude ≠ 0 := by
        intro zero
        rw [zero, Nat.zero_mul] at units
        have index : number.index = 0 := index_eq_zero_of_unitsOf units.symm
        rw [isZero, index] at nonzero
        cases nonzero
      subst value
      cases number.isNegative with
      | true =>
          rw [if_pos rfl]
          exact decide_eq_true (by omega)
      | false =>
          rw [if_neg Bool.false_ne_true]
          exact decide_eq_false (by omega)
  · cases whole

/-- The whole number zero is one of the two zeros. -/
theorem isZero_of_toInt? {number : Binary64} (whole : number.toInt? = some 0) :
    number.isZero = true := by
  rcases exists_units_of_toInt? whole with ⟨units, -, -⟩
  rw [Int.natAbs_zero, Nat.zero_mul] at units
  exact decide_eq_true (index_eq_zero_of_unitsOf units)

theorem nearestIndex_of_units {number : Binary64} {magnitude : Nat}
    (finite : number.isFinite = true) (units : number.units = magnitude * unitsPerOne) :
    Decimal.nearestIndex ⟨magnitude, 0⟩ = number.index := by
  apply nearestIndex_of_exact (of_decide_eq_true finite) (Decimal.divisor_pos _)
  have dividend : Decimal.dividend ⟨magnitude, 0⟩ = magnitude := Nat.mul_one magnitude
  have divisor : Decimal.divisor ⟨magnitude, 0⟩ = 1 := rfl
  rw [dividend, divisor, Nat.mul_one]
  exact units.symm

/-- The integer spelling of a whole number is read as that number. -/
theorem exists_same_of_toInt? {number : Binary64} {value : Int}
    (whole : number.toInt? = some value) :
    ∃ read, ofText? ((if value < 0 then ['-'] else []) ++ Text.digitsOf value.natAbs) = some read ∧
      read.isFinite = true ∧ read.same number = true := by
  rcases exists_units_of_toInt? whole with ⟨units, finite, sign⟩
  have spelled : ofText? ((if value < 0 then ['-'] else []) ++ Text.digitsOf value.natAbs) =
      some (ofIndex (decide (value < 0)) number.index) := by
    have signed := ofText?_of_isSpelling (decide (value < 0))
      (Decimal.isSpelling_digitsOf value.natAbs)
    rw [nearestIndex_of_units finite units] at signed
    simpa only [decide_eq_true_eq] using signed
  cases zero : number.isZero with
  | false =>
      have read : ofIndex (decide (value < 0)) number.index = number := by
        rw [sign zero, ofIndex_index]
      exact ⟨number, by rw [spelled, read], finite, same_self_of_isFinite finite⟩
  | true =>
      have index : number.index = 0 := of_decide_eq_true zero
      have read : (ofIndex (decide (value < 0)) 0).isZero = true := by
        cases decide (value < 0) <;> rfl
      rw [index] at spelled
      exact ⟨_, spelled, isFinite_of_isZero read, same_of_isZero read zero⟩

end Binary64

/-! ## The text of an argument -/

namespace ArgValue

/-- Equal numbers have the same text. -/
theorem numberText_of_same {first second : Binary64} (equal : first.same second = true) :
    numberText first = numberText second := by
  have zeroText {number : Binary64} (zero : number.isZero = true) : numberText number = "0" := by
    rw [numberText, Binary64.toInt?_of_isZero zero]
    rfl
  rcases Binary64.eq_or_isZero_of_same equal with same | ⟨firstZero, secondZero⟩
  · rw [same]
  · rw [zeroText firstZero, zeroText secondZero]

theorem exists_same_of_numberText {number : Binary64} (finite : number.isFinite = true) :
    ∃ read, Binary64.ofText? (numberText number).toList = some read ∧
      read.isFinite = true ∧ read.same number = true := by
  have positional : ∃ read, Binary64.ofText? number.toText.toList = some read ∧
      read.isFinite = true ∧ read.same number = true :=
    ⟨number, Binary64.ofText?_toText finite, finite, Binary64.same_self_of_isFinite finite⟩
  unfold numberText
  split
  · next value whole =>
      split
      · rw [String.toList_ofList]
        exact Binary64.exists_same_of_toInt? whole
      · exact positional
  · exact positional

theorem tight_signed (negative : Prop) [Decidable negative] {digits : List Char}
    {decimal : Decimal} (spells : Decimal.IsSpelling digits decimal) :
    Text.Tight ((if negative then ['-'] else []) ++ digits) := by
  apply Text.tight_of_solid
  intro c member
  rcases List.mem_append.mp member with sign | behind
  · have minus : c = '-' := by
      split at sign
      · exact List.mem_singleton.mp sign
      · cases sign
    rw [minus]
    rfl
  · rcases spells.isDigit_or_point c behind with digit | point
    · exact Text.isBlank_of_isDigit digit
    · rw [point]
      rfl

theorem tight_numberText {number : Binary64} (finite : number.isFinite = true) :
    Text.Tight (numberText number).toList := by
  have positional : Text.Tight number.toText.toList := by
    rcases Binary64.exists_isSpelling_toText finite with ⟨digits, decimal, text, spells, -⟩
    rw [text]
    exact tight_signed _ spells
  unfold numberText
  split
  · split
    · rw [String.toList_ofList]
      exact tight_signed _ (Decimal.isSpelling_digitsOf _)
    · exact positional
  · exact positional

end ArgValue

namespace ArgSpec

theorem isFinite_numberOf (text : String) : (numberOf text).isFinite = true := by
  unfold numberOf
  cases read : (Binary64.ofText? (Text.trim text.toList)).filter Binary64.isFinite with
  | none => rfl
  | some number => exact (Option.filter_eq_some_iff.mp read).2

/-- A finite number is read back from its text. -/
theorem same_numberOf_numberText {number : Binary64} (finite : number.isFinite = true) :
    (numberOf (ArgValue.numberText number)).same number = true := by
  rcases ArgValue.exists_same_of_numberText finite with ⟨read, spelled, readFinite, equal⟩
  rw [numberOf, Text.trim_of_tight (ArgValue.tight_numberText finite), spelled,
    Option.filter_some_pos readFinite]
  exact equal

end ArgSpec
end PracticePlan
