import Mathlib.Data.List.TakeWhile
import PracticePlan.Proofs.Number.Digits

namespace PracticePlan

/-!
# Numbers are read back from their texts

The digits that `Decimal.positional` arranges around a point are read as that
decimal, and the shortest decimal of a finite number is nearest to it.  So the
text of every finite number is read as the same bits (`ofText?_toText`), the
sign of zero included.
-/

/-! ## Digits with a point -/

namespace Decimal

/-- The texts that spell a decimal: its digits with the missing ones filled up, or
with a point between or in front of them. -/
inductive IsSpelling : List Char → Decimal → Prop
  | whole {digits : List Char} {decimal : Decimal} (present : digits ≠ [])
      (all : ∀ c ∈ digits, c.isDigit = true)
      (value : nearestIndex ⟨Text.valueFrom 0 digits, 0⟩ = decimal.nearestIndex) :
      IsSpelling digits decimal
  | pointed {whole fraction : List Char} {decimal : Decimal} (present : whole ≠ [])
      (wholeAll : ∀ c ∈ whole, c.isDigit = true) (fractionAll : ∀ c ∈ fraction, c.isDigit = true)
      (value : Text.valueFrom 0 (whole ++ fraction) = decimal.digits)
      (exponent : -(fraction.length : Int) = decimal.exponent) :
      IsSpelling (whole ++ '.' :: fraction) decimal

/-- The digits arranged around a point spell the decimal. -/
theorem isSpelling_positional (decimal : Decimal) :
    IsSpelling (decimal.positional []) decimal := by
  have all : ∀ c ∈ Text.digitsOf decimal.digits, c.isDigit = true := fun c member =>
    Text.isDigit_of_mem_digitsOf member
  have zeros (count : Nat) : ∀ c ∈ List.replicate count '0', c.isDigit = true := by
    intro c member
    rw [List.eq_of_mem_replicate member]
    rfl
  have present : 0 < (Text.digitsOf decimal.digits).length :=
    List.length_pos_iff.mpr (Text.digitsOf_ne_nil decimal.digits)
  have value : Text.valueFrom 0 (Text.digitsOf decimal.digits) = decimal.digits :=
    Text.valueFrom_digitsOf decimal.digits
  unfold positional
  dsimp only
  rw [show Nat.toDigits 10 decimal.digits = Text.digitsOf decimal.digits from rfl]
  generalize Text.digitsOf decimal.digits = digits at all present value
  split
  · next whole =>
      -- The missing digits are written as zeros.
      have exponent : (decimal.exponent.toNat : Int) = decimal.exponent := Int.toNat_of_nonneg whole
      rw [List.append_nil]
      apply IsSpelling.whole
      · exact List.append_ne_nil_of_left_ne_nil (List.ne_nil_of_length_pos present) _
      · exact fun c member => (List.mem_append.mp member).elim (all c) (zeros _ c)
      · rw [Text.valueFrom_append, value, Text.valueFrom_zeros, nearestIndex_scaled, exponent]
  · next below =>
      split
      · next before =>
          -- The point stands between two digits.
          apply IsSpelling.pointed
          · apply List.ne_nil_of_length_pos
            rw [List.length_take]
            omega
          · exact fun c member => all c (List.mem_of_mem_take member)
          · exact fun c member => all c (List.mem_of_mem_drop member)
          · rw [List.take_append_drop, value]
          · rw [List.length_drop]
            omega
      · next before =>
          -- The point stands in front of the digits, with zeros in between.
          have zero : Text.valueFrom 0 ['0'] = 0 := rfl
          apply IsSpelling.pointed (List.cons_ne_nil '0' []) (zeros 1)
          · exact fun c member => (List.mem_append.mp member).elim (zeros _ c) (all c)
          · rw [Text.valueFrom_append, Text.valueFrom_append, zero, Text.valueFrom_zeros,
              Nat.zero_mul, value]
          · rw [List.length_append, List.length_replicate]
            omega

theorem isSpelling_digitsOf (value : Nat) : IsSpelling (Text.digitsOf value) ⟨value, 0⟩ := by
  apply IsSpelling.whole
  · exact Text.digitsOf_ne_nil value
  · exact fun c member => Text.isDigit_of_mem_digitsOf member
  · rw [Text.valueFrom_digitsOf]

theorem IsSpelling.starts {text : List Char} {decimal : Decimal} (spells : IsSpelling text decimal) :
    ∃ first others, text = first :: others ∧ first.isDigit = true := by
  cases spells with
  | whole present all value =>
      rcases List.exists_cons_of_ne_nil present with ⟨first, others, rfl⟩
      exact ⟨first, others, rfl, all first List.mem_cons_self⟩
  | pointed present wholeAll fractionAll value exponent =>
      rcases List.exists_cons_of_ne_nil present with ⟨first, others, rfl⟩
      exact ⟨first, _, rfl, wholeAll first List.mem_cons_self⟩

theorem IsSpelling.isDigit_or_point {text : List Char} {decimal : Decimal}
    (spells : IsSpelling text decimal) : ∀ c ∈ text, c.isDigit = true ∨ c = '.' := by
  intro c member
  cases spells with
  | whole present all value => exact Or.inl (all c member)
  | pointed present wholeAll fractionAll value exponent =>
      rcases List.mem_append.mp member with front | back
      · exact Or.inl (wholeAll c front)
      · rcases List.mem_cons.mp back with point | behind
        · exact Or.inr point
        · exact Or.inl (fractionAll c behind)

end Decimal

namespace Binary64

theorem unsignedOfText?_of_digits (negative : Bool) {digits : List Char} (present : digits ≠ [])
    (all : ∀ c ∈ digits, c.isDigit = true) :
    unsignedOfText? negative digits =
      some (ofIndex negative (Decimal.nearestIndex ⟨Text.valueFrom 0 digits, 0⟩)) := by
  have whole : digits.takeWhile Char.isDigit = digits := List.takeWhile_eq_self_iff.mpr all
  have nothing : digits.dropWhile Char.isDigit = [] := List.dropWhile_eq_nil_iff.mpr all
  have nonempty : digits.isEmpty = false := List.isEmpty_eq_false_iff.mpr present
  unfold unsignedOfText?
  simp only [whole, nothing, nonempty, List.head?_nil, reduceCtorEq, if_false, Bool.false_and,
    Bool.false_eq_true, Option.map_some, List.append_nil, List.length_nil]
  rw [ofScaledDigits_of_digits negative all]
  rfl

theorem unsignedOfText?_of_point (negative : Bool) {whole fraction : List Char}
    (present : whole ≠ []) (wholeAll : ∀ c ∈ whole, c.isDigit = true)
    (fractionAll : ∀ c ∈ fraction, c.isDigit = true) :
    unsignedOfText? negative (whole ++ '.' :: fraction) =
      some (ofIndex negative
        (Decimal.nearestIndex ⟨Text.valueFrom 0 (whole ++ fraction), -fraction.length⟩)) := by
  have point : Char.isDigit '.' = false := rfl
  have front : (whole ++ '.' :: fraction).takeWhile Char.isDigit = whole := by
    rw [List.takeWhile_append_of_pos wholeAll, List.takeWhile_cons_of_neg (by simp [point]),
      List.append_nil]
  have back : (whole ++ '.' :: fraction).dropWhile Char.isDigit = '.' :: fraction := by
    rw [List.dropWhile_append_of_pos wholeAll, List.dropWhile_cons_of_neg (by simp [point])]
  have digits : fraction.takeWhile Char.isDigit = fraction :=
    List.takeWhile_eq_self_iff.mpr fractionAll
  have nothing : fraction.dropWhile Char.isDigit = [] := List.dropWhile_eq_nil_iff.mpr fractionAll
  have nonempty : whole.isEmpty = false := List.isEmpty_eq_false_iff.mpr present
  have both : ∀ c ∈ whole ++ fraction, c.isDigit = true := fun c member =>
    (List.mem_append.mp member).elim (wholeAll c) (fractionAll c)
  unfold unsignedOfText?
  simp only [front, back, digits, nothing, nonempty, List.head?_cons, if_true, Bool.false_and,
    Bool.false_eq_true, if_false, Option.map_some]
  rw [ofScaledDigits_of_digits negative both, Int.zero_sub]

/-- A spelling of a decimal is read as the number nearest to it. -/
theorem unsignedOfText?_of_isSpelling (negative : Bool) {text : List Char} {decimal : Decimal}
    (spells : Decimal.IsSpelling text decimal) :
    unsignedOfText? negative text = some (ofIndex negative decimal.nearestIndex) := by
  cases spells with
  | whole present all value => rw [unsignedOfText?_of_digits negative present all, value]
  | pointed present wholeAll fractionAll value exponent =>
      rw [unsignedOfText?_of_point negative present wholeAll fractionAll, value, exponent]

/-! ## Whole texts -/

/-- A text that starts with a digit has no sign. -/
theorem ofText?_of_isDigit {first : Char} (digit : first.isDigit = true) (others : List Char) :
    ofText? (first :: others) = unsignedOfText? false (first :: others) := by
  unfold ofText?
  split
  · next starts => exact absurd ((List.cons.inj starts).1 ▸ digit) (by decide)
  · next starts => exact absurd ((List.cons.inj starts).1 ▸ digit) (by decide)
  · rfl

theorem ofText?_of_isSpelling (negative : Bool) {text : List Char} {decimal : Decimal}
    (spells : Decimal.IsSpelling text decimal) :
    ofText? ((if negative then ['-'] else []) ++ text) =
      some (ofIndex negative decimal.nearestIndex) := by
  rw [← unsignedOfText?_of_isSpelling negative spells]
  cases negative with
  | true => rfl
  | false =>
      rcases spells.starts with ⟨first, others, rfl, digit⟩
      exact ofText?_of_isDigit digit others

theorem ofIndex_index (number : Binary64) : ofIndex number.isNegative number.index = number := by
  have bits : (if number.isNegative then 0x8000000000000000 else 0) + number.index =
      number.bits.toNat := by
    have range := number.bits.toNat_lt
    unfold isNegative index
    simp only [decide_eq_true_eq]
    split <;> omega
  rw [ofIndex, bits, UInt64.ofNat_toNat]

theorem isNaN_of_isFinite {number : Binary64} (finite : number.isFinite = true) :
    number.isNaN = false := by
  have below : number.index < infinityIndex := of_decide_eq_true finite
  exact decide_eq_false (Nat.not_lt.mpr (Nat.le_of_lt below))

theorem toText_of_isFinite {number : Binary64} (finite : number.isFinite = true) :
    number.toText.toList = (if number.isNegative then ['-'] else []) ++
      if number.isZero then ['0'] else (Decimal.shortest .upward number.index).positional [] := by
  unfold toText
  simp only [isNaN_of_isFinite finite, finite, Bool.not_true, Bool.false_eq_true, if_false,
    String.toList_ofList]

/-- The text of a finite number spells a decimal that is nearest to the number. -/
theorem exists_isSpelling_toText {number : Binary64} (finite : number.isFinite = true) :
    ∃ digits decimal, number.toText.toList = (if number.isNegative then ['-'] else []) ++ digits ∧
      Decimal.IsSpelling digits decimal ∧ decimal.nearestIndex = number.index := by
  rw [toText_of_isFinite finite]
  by_cases zero : number.isZero = true
  · have index : number.index = 0 := of_decide_eq_true zero
    refine ⟨['0'], ⟨0, 0⟩, ?_, Decimal.isSpelling_digitsOf 0, ?_⟩
    · rw [if_pos zero]
    · rw [index, nearestIndex_of_no_digits]
  · refine ⟨_, Decimal.shortest .upward number.index, ?_, Decimal.isSpelling_positional _, ?_⟩
    · rw [if_neg zero]
    · exact Decimal.nearestIndex_shortest _ (of_decide_eq_true finite)

/-- The text of a finite number is read as the same bits. -/
theorem ofText?_toText {number : Binary64} (finite : number.isFinite = true) :
    ofText? number.toText.toList = some number := by
  rcases exists_isSpelling_toText finite with ⟨digits, decimal, text, spells, nearest⟩
  rw [text, ofText?_of_isSpelling _ spells, nearest, ofIndex_index]

end Binary64
end PracticePlan
