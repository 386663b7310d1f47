import Mathlib.Data.List.Forall2
import Mathlib.Data.Nat.Digits.Defs
import PracticePlan.Duration
import PracticePlan.Proofs.Text.Cutting
import PracticePlan.Proofs.Text.Numeral

namespace PracticePlan

/-!
# What a duration text denotes

One, two or three numerals with colons between them denote a number of seconds.
The numerals may be of any length, so the number is a natural number without
bound (`Duration.Denotes`).  The reader computes it in words of 64 bits.  It finds
the number exactly when that fits a word (`Duration.unsignedSeconds?_eq_some_iff`),
whatever the size of the numerals and of the products and sums on the way.
-/

namespace Text

/-- A nonempty run of ASCII digits and its value in the decimal system. -/
structure IsNumeral (text : List Char) (value : Nat) : Prop where
  present : text ≠ []
  digits : ∀ c ∈ text, c.isDigit = true
  value_eq : Nat.ofDigits 10 (text.map digitValue).reverse = value

theorem valueFrom_eq_ofDigits (start : Nat) (text : List Char) :
    valueFrom start text =
      start * 10 ^ text.length + Nat.ofDigits 10 (text.map digitValue).reverse := by
  induction text generalizing start with
  | nil => simp [valueFrom]
  | cons c rest inductionHypothesis =>
      have step : valueFrom start (c :: rest) = valueFrom (10 * start + digitValue c) rest := rfl
      rw [step, inductionHypothesis, List.map_cons, Nat.ofDigits_reverse_cons, List.length_map,
        List.length_cons]
      ring

theorem numeral?_eq_some_iff {text : List Char} {value : Nat} :
    numeral? text = some value ↔ IsNumeral text value := by
  rw [numeral?, valueFrom_eq_ofDigits, Nat.zero_mul, Nat.zero_add]
  constructor
  · intro read
    split at read
    · next run =>
        rw [Bool.and_eq_true, Bool.not_eq_true', List.isEmpty_eq_false_iff, List.all_eq_true] at run
        exact ⟨run.1, run.2, Option.some.inj read⟩
    · cases read
  · rintro ⟨present, digits, rfl⟩
    have run : (!text.isEmpty && text.all Char.isDigit) = true := by
      rw [Bool.and_eq_true, Bool.not_eq_true', List.isEmpty_eq_false_iff, List.all_eq_true]
      exact ⟨present, digits⟩
    rw [if_pos run]

namespace IsNumeral

theorem colon_not_mem {text : List Char} {value : Nat} (numeral : IsNumeral text value) :
    ':' ∉ text :=
  fun member => absurd (numeral.digits ':' member) (by decide)

theorem exists_head {text : List Char} {value : Nat} (numeral : IsNumeral text value) :
    ∃ c rest, text = c :: rest ∧ c.isDigit = true := by
  obtain ⟨c, rest, rfl⟩ := List.exists_cons_of_ne_nil numeral.present
  exact ⟨c, rest, rfl, numeral.digits c List.mem_cons_self⟩

/-- Zeros in front do not change the value. -/
theorem zeros_append {text : List Char} {value : Nat} (numeral : IsNumeral text value)
    (count : Nat) : IsNumeral (List.replicate count '0' ++ text) value := by
  refine ⟨List.append_ne_nil_of_right_ne_nil _ numeral.present, ?digits, ?value⟩
  case digits =>
    intro c member
    rcases List.mem_append.mp member with zero | own
    · rw [List.eq_of_mem_replicate zero]
      rfl
    · exact numeral.digits c own
  case value =>
    rw [List.map_append, List.map_replicate, List.reverse_append, List.reverse_replicate,
      show digitValue '0' = 0 from rfl, Nat.ofDigits_append_replicate_zero, numeral.value_eq]

end IsNumeral

theorem isNumeral_digitsOf (value : Nat) : IsNumeral (digitsOf value) value :=
  numeral?_eq_some_iff.mp (numeral?_digitsOf value)

/-- Texts are read together when each of them is. -/
theorem mapM_eq_some_iff {α β : Type} {read : α → Option β} {texts : List α} {values : List β} :
    texts.mapM read = some values ↔
      List.Forall₂ (fun text value => read text = some value) texts values := by
  induction texts generalizing values with
  | nil =>
      rw [List.mapM_nil, List.forall₂_nil_left_iff, Option.pure_def, Option.some_inj, eq_comm]
  | cons text rest inductionHypothesis =>
      rw [List.mapM_cons, List.forall₂_cons_left_iff, Option.bind_eq_bind, Option.bind_eq_some_iff]
      constructor
      · rintro ⟨value, read, others⟩
        rcases Option.bind_eq_some_iff.mp others with ⟨behind, readAll, same⟩
        exact ⟨value, behind, read, inductionHypothesis.mp readAll, (Option.some.inj same).symm⟩
      · rintro ⟨value, behind, read, readAll, rfl⟩
        exact ⟨value, read, Option.bind_eq_some_iff.mpr ⟨behind, inductionHypothesis.mpr readAll, rfl⟩⟩

end Text

namespace Duration

open Text (IsNumeral)

/-! ## Texts and numbers of seconds -/

/-- The number of seconds that an unsigned duration text denotes, without bound. -/
inductive Denotes : List Char → Nat → Prop
  | seconds {text : List Char} {seconds : Nat} (last : IsNumeral text seconds) :
      Denotes text seconds
  | minutes {front back : List Char} {minutes seconds : Nat} (first : IsNumeral front minutes)
      (last : IsNumeral back seconds) (small : seconds < 60) :
      Denotes (front ++ ':' :: back) (minutes * 60 + seconds)
  | hours {front middle back : List Char} {hours minutes seconds : Nat}
      (first : IsNumeral front hours) (second : IsNumeral middle minutes)
      (last : IsNumeral back seconds) (few : minutes < 60) (small : seconds < 60) :
      Denotes (front ++ ':' :: (middle ++ ':' :: back)) (hours * 3600 + minutes * 60 + seconds)

/-- What `secondsOf?` computes, on natural numbers. -/
def total? : List Nat → Option Nat
  | [seconds] => some seconds
  | [minutes, seconds] => if seconds < 60 then some (minutes * 60 + seconds) else none
  | [hours, minutes, seconds] =>
      if minutes < 60 ∧ seconds < 60 then some (hours * 3600 + minutes * 60 + seconds) else none
  | _ => none

/-- A text of pieces that are numerals denotes their total. -/
theorem denotes_iff {text : List Char} {count : Nat} :
    Denotes text count ↔ ∃ numbers,
      List.Forall₂ IsNumeral (Text.pieces ':' text) numbers ∧ total? numbers = some count := by
  constructor
  · intro denotes
    cases denotes with
    | seconds last =>
        rw [Text.pieces_of_not_mem last.colon_not_mem]
        exact ⟨[count], .cons last .nil, rfl⟩
    | minutes first last small =>
        rw [Text.pieces_append_cons first.colon_not_mem, Text.pieces_of_not_mem last.colon_not_mem]
        exact ⟨_, .cons first (.cons last .nil), if_pos small⟩
    | hours first second last few small =>
        rw [Text.pieces_append_cons first.colon_not_mem,
          Text.pieces_append_cons second.colon_not_mem, Text.pieces_of_not_mem last.colon_not_mem]
        exact ⟨_, .cons first (.cons second (.cons last .nil)), if_pos ⟨few, small⟩⟩
  · rintro ⟨numbers, numerals, total⟩
    have whole := Text.flatMap_pieces ':' text
    generalize Text.pieces ':' text = parts at numerals whole
    unfold total? at total
    split at total
    · rcases numerals with _ | ⟨last, _ | _⟩
      obtain rfl : _ = text := by simpa using whole
      cases total
      exact .seconds last
    · split at total
      · next small =>
          rcases numerals with _ | ⟨first, _ | ⟨last, _ | _⟩⟩
          obtain rfl : _ = text := by simpa using whole
          cases total
          exact .minutes first last small
      · cases total
    · split at total
      · next small =>
          rcases numerals with _ | ⟨first, _ | ⟨second, _ | ⟨last, _ | _⟩⟩⟩
          obtain rfl : _ = text := by simpa using whole
          cases total
          exact .hours first second last small.1 small.2
      · cases total
    · cases total

/-- A text denotes at most one number. -/
theorem Denotes.unique {text : List Char} {count other : Nat} (denotes : Denotes text count)
    (also : Denotes text other) : count = other := by
  rcases denotes_iff.mp denotes with ⟨numbers, numerals, total⟩
  rcases denotes_iff.mp also with ⟨others, rest, totalToo⟩
  have same : numbers = others := List.right_unique_forall₂'
    (fun _ _ _ first second => first.value_eq.symm.trans second.value_eq) numerals rest
  rw [same, totalToo] at total
  exact (Option.some.inj total).symm

/-- A duration text starts with a digit. -/
theorem Denotes.exists_head {text : List Char} {count : Nat} (denotes : Denotes text count) :
    ∃ c rest, text = c :: rest ∧ c.isDigit = true := by
  cases denotes with
  | seconds last => exact last.exists_head
  | minutes first =>
      obtain ⟨c, rest, rfl, digit⟩ := first.exists_head
      exact ⟨c, _, rfl, digit⟩
  | hours first =>
      obtain ⟨c, rest, rfl, digit⟩ := first.exists_head
      exact ⟨c, _, rfl, digit⟩

theorem not_denotes_minus {rest : List Char} {count : Nat} : ¬ Denotes ('-' :: rest) count := by
  intro denotes
  obtain ⟨c, others, same, digit⟩ := denotes.exists_head
  rw [← (List.cons.inj same).1] at digit
  exact absurd digit (by decide)

/-! ## Words -/

/-- Minutes and seconds below an hour are combined without leaving the words. -/
theorem toNat_minutes_seconds {minutes seconds : UInt64} (few : minutes < 60) (small : seconds < 60) :
    (minutes * 60).toNat = minutes.toNat * 60 ∧
      (minutes * 60 + seconds).toNat = minutes.toNat * 60 + seconds.toNat := by
  have fewer : minutes.toNat < 60 := UInt64.lt_iff_toNat_lt.mp few
  have smaller : seconds.toNat < 60 := UInt64.lt_iff_toNat_lt.mp small
  have product : (minutes * 60).toNat = minutes.toNat * 60 := by
    rw [UInt64.toNat_mul, show (60 : UInt64).toNat = 60 from rfl]
    omega
  refine ⟨product, ?_⟩
  rw [UInt64.toNat_add, product]
  omega

/-- Words have a total when the numbers that they hold have one that is a word. -/
theorem secondsOf?_eq_some_iff {words : List UInt64} {word : UInt64} :
    secondsOf? words = some word ↔ total? (words.map UInt64.toNat) = some word.toNat := by
  have sixty (seconds : UInt64) : seconds < 60 ↔ seconds.toNat < 60 := UInt64.lt_iff_toNat_lt
  match words with
  | [] => simp [secondsOf?, total?]
  | [seconds] =>
      rw [secondsOf?, List.map_singleton, total?, Option.some_inj, Option.some_inj,
        UInt64.toNat_inj]
  | [minutes, seconds] =>
      rw [secondsOf?, List.map_cons, List.map_singleton, total?]
      by_cases small : seconds < 60
      · rw [if_pos small, if_pos ((sixty seconds).mp small), Word.mul?_bind_add?_eq_some_iff,
          Option.some_inj, eq_comm]
        rfl
      · rw [if_neg small, if_neg (mt (sixty seconds).mpr small)]
        simp
  | [hours, minutes, seconds] =>
      have sixties := and_congr (sixty minutes) (sixty seconds)
      rw [secondsOf?, List.map_cons, List.map_cons, List.map_singleton, total?]
      by_cases small : minutes < 60 ∧ seconds < 60
      · rw [if_pos small, if_pos (sixties.mp small), Word.mul?_bind_add?_eq_some_iff,
          (toNat_minutes_seconds small.1 small.2).2, ← Nat.add_assoc, Option.some_inj, eq_comm]
        rfl
      · rw [if_neg small, if_neg (mt sixties.mpr small)]
        simp
  | _ :: _ :: _ :: _ :: _ => simp [secondsOf?, total?]

/-- No number is larger than the total that it is part of. -/
theorem le_of_total? {numbers : List Nat} {count number : Nat} (total : total? numbers = some count)
    (member : number ∈ numbers) : number ≤ count := by
  unfold total? at total
  split at total
  · cases total
    exact Nat.le_of_eq (List.mem_singleton.mp member)
  · split at total
    · cases total
      simp only [List.mem_cons, List.not_mem_nil, or_false] at member
      omega
    · cases total
  · split at total
    · cases total
      simp only [List.mem_cons, List.not_mem_nil, or_false] at member
      omega
    · cases total
  · cases total

/-- Numbers below a total that is a word are words. -/
theorem exists_words {numbers : List Nat} {word : UInt64}
    (total : total? numbers = some word.toNat) :
    ∃ words : List UInt64, words.map UInt64.toNat = numbers := by
  refine ⟨numbers.map UInt64.ofNat, ?_⟩
  rw [List.map_map, List.map_congr_left, List.map_id]
  intro number member
  have bound : number < UInt64.size :=
    Nat.lt_of_le_of_lt (le_of_total? total member) word.toNat_lt
  exact UInt64.toNat_ofNat_of_lt bound

/-- The reader finds the number that a text denotes, and fails only when there is
none or when it is no word. -/
theorem unsignedSeconds?_eq_some_iff {text : List Char} {word : UInt64} :
    unsignedSeconds? text = some word ↔ Denotes text word.toNat := by
  have piecewise (words : List UInt64) :
      ((Text.pieces ':' text).mapM fun piece => (Text.numeral? piece).bind Word.ofNat?) = some words ↔
        List.Forall₂ IsNumeral (Text.pieces ':' text) (words.map UInt64.toNat) := by
    rw [Text.mapM_eq_some_iff, List.forall₂_map_right_iff]
    simp only [Option.bind_eq_some_iff, Word.ofNat?_eq_some_iff, Text.numeral?_eq_some_iff]
    simp only [exists_eq_right']
  rw [unsignedSeconds?, Option.bind_eq_some_iff, denotes_iff]
  simp only [piecewise, secondsOf?_eq_some_iff]
  constructor
  · rintro ⟨words, numerals, total⟩
    exact ⟨_, numerals, total⟩
  · rintro ⟨numbers, numerals, total⟩
    obtain ⟨words, rfl⟩ := exists_words total
    exact ⟨words, numerals, total⟩

end Duration
end PracticePlan
