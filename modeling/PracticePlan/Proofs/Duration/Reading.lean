import PracticePlan.Proofs.Duration.Clock

namespace PracticePlan
namespace Duration

/-!
# Reading durations

A text without its blanks is a clock text, a minus sign with a clock text, or
neither.  `IsReadAs` says what each is read as, in terms of the number of seconds
without bound that the clock text denotes.  A duration is read exactly or not at
all: there is an error from 2^63 seconds on, which for a negative text changes
its kind from 2^64 seconds on.  The reader works in words of 64 bits and answers
the same (`ofText_eq_iff_isReadAs`).
-/

/-! ## Seconds -/

theorem eq_of_nanoseconds {first second : Duration}
    (same : first.nanoseconds = second.nanoseconds) : first = second := by
  cases first
  cases second
  cases same
  rfl

theorem ofNanoseconds?_eq_some_iff {count : Int} {duration : Duration} :
    ofNanoseconds? count = some duration ↔ duration.nanoseconds = count := by
  unfold ofNanoseconds?
  constructor
  · intro found
    split at found
    · rw [← Option.some.inj found]
    · cases found
  · intro same
    subst same
    exact dif_pos duration.in_range

theorem ofSeconds?_eq_some_iff {count : Nat} {duration : Duration} :
    ofSeconds? count = some duration ↔
      count < 2 ^ 63 ∧ duration.nanoseconds = count * 1000000000 := by
  rw [ofSeconds?, ofNanoseconds?_eq_some_iff]
  constructor
  · intro length
    have inside := duration.in_range
    exact ⟨by omega, length⟩
  · exact fun both => both.2

/-- Fewer than 2^63 seconds are a duration. -/
theorem exists_ofSeconds? {count : Nat} (fits : count < 2 ^ 63) :
    ∃ duration, ofSeconds? count = some duration :=
  ⟨⟨count * 1000000000, by omega⟩, ofNanoseconds?_eq_some_iff.mpr rfl⟩

/-! ## What a text is read as -/

/-- What a text is read as, by the number of seconds that it denotes. -/
inductive IsReadAs (text : String) : Except DurationError Duration → Prop
  | unsigned {count : Nat} {duration : Duration} (denotes : Denotes (Text.trim text.toList) count)
      (fits : count < 2 ^ 63) (length : duration.nanoseconds = count * 1000000000) :
      IsReadAs text (.ok duration)
  | tooLong {count : Nat} (denotes : Denotes (Text.trim text.toList) count)
      (large : 2 ^ 63 ≤ count) : IsReadAs text (.error (.malformed text))
  | negativeZero {body : List Char} {duration : Duration}
      (signed : Text.trim text.toList = '-' :: body) (denotes : Denotes body 0)
      (length : duration.nanoseconds = 0) : IsReadAs text (.ok duration)
  | negative {body : List Char} {count : Nat} (signed : Text.trim text.toList = '-' :: body)
      (denotes : Denotes body count) (positive : 0 < count) (fits : count < 2 ^ 64) :
      IsReadAs text (.error (.negative text))
  | tooNegative {body : List Char} {count : Nat} (signed : Text.trim text.toList = '-' :: body)
      (denotes : Denotes body count) (large : 2 ^ 64 ≤ count) :
      IsReadAs text (.error (.malformed text))
  | shapeless (unsigned : ∀ count, ¬ Denotes (Text.trim text.toList) count)
      (signed : ∀ body count, Text.trim text.toList = '-' :: body → ¬ Denotes body count) :
      IsReadAs text (.error (.malformed text))

/-- Every text is read as something. -/
theorem exists_isReadAs (text : String) : ∃ outcome, IsReadAs text outcome := by
  by_cases unsigned : ∃ count, Denotes (Text.trim text.toList) count
  · obtain ⟨count, denotes⟩ := unsigned
    rcases Nat.lt_or_ge count (2 ^ 63) with fits | large
    · obtain ⟨duration, made⟩ := exists_ofSeconds? fits
      exact ⟨_, .unsigned denotes fits (ofSeconds?_eq_some_iff.mp made).2⟩
    · exact ⟨_, .tooLong denotes large⟩
  · by_cases signed : ∃ body count, Text.trim text.toList = '-' :: body ∧ Denotes body count
    · obtain ⟨body, count, minus, denotes⟩ := signed
      rcases Nat.eq_zero_or_pos count with rfl | positive
      · exact ⟨.ok zero, .negativeZero minus denotes rfl⟩
      · rcases Nat.lt_or_ge count (2 ^ 64) with fits | large
        · exact ⟨_, .negative minus denotes positive fits⟩
        · exact ⟨_, .tooNegative minus denotes large⟩
    · exact ⟨_, .shapeless (fun count denotes => unsigned ⟨count, denotes⟩)
        fun body count minus denotes => signed ⟨body, count, minus, denotes⟩⟩

/-! ## The reader -/

theorem exists_word_of_denotes {text : List Char} {count : Nat} (denotes : Denotes text count)
    (fits : count < 2 ^ 64) : ∃ word, unsignedSeconds? text = some word ∧ word.toNat = count := by
  obtain ⟨word, rfl⟩ := Word.exists_toNat_eq fits
  exact ⟨word, unsignedSeconds?_eq_some_iff.mpr denotes, rfl⟩

theorem unsignedSeconds?_eq_none {text : List Char}
    (large : ∀ count, Denotes text count → 2 ^ 64 ≤ count) : unsignedSeconds? text = none := by
  cases found : unsignedSeconds? text with
  | none => rfl
  | some word =>
      have least := large word.toNat (unsignedSeconds?_eq_some_iff.mp found)
      exact absurd word.toNat_lt (Nat.not_lt.mpr least)

/-- How a text with a minus sign is read. -/
theorem ofText_of_signed {text : String} {body : List Char}
    (signed : Text.trim text.toList = '-' :: body) :
    ofText text = match unsignedSeconds? body with
      | some seconds => if 0 < seconds then .error (.negative text) else .ok zero
      | none => .error (.malformed text) := by
  rw [ofText, signed]
  rfl

/-- How a text without a minus sign is read. -/
theorem ofText_of_unsigned {text : String}
    (unsigned : ∀ body, Text.trim text.toList ≠ '-' :: body) :
    ofText text = match (unsignedSeconds? (Text.trim text.toList)).bind fun seconds =>
        ofSeconds? seconds.toNat with
      | some duration => .ok duration
      | none => .error (.malformed text) := by
  unfold ofText
  split
  · next body signed => exact absurd signed (unsigned body)
  · rfl

theorem ofText_of_isReadAs {text : String} {outcome : Except DurationError Duration}
    (reads : IsReadAs text outcome) : ofText text = outcome := by
  have unsigned {count : Nat} (denotes : Denotes (Text.trim text.toList) count) :
      ∀ body, Text.trim text.toList ≠ '-' :: body := fun body minus =>
    not_denotes_minus (minus ▸ denotes)
  cases reads with
  | unsigned denotes fits length =>
      obtain ⟨word, found, rfl⟩ := exists_word_of_denotes denotes (by omega)
      rw [ofText_of_unsigned (unsigned denotes), found, Option.bind_some,
        ofSeconds?_eq_some_iff.mpr ⟨fits, length⟩]
  | @tooLong count denotes large =>
      -- A word may have been found, but it is the same number and no duration.
      have none : (unsignedSeconds? (Text.trim text.toList)).bind
          (fun seconds => ofSeconds? seconds.toNat) = none := by
        rw [Option.bind_eq_none_iff]
        intro word found
        have same := denotes.unique (unsignedSeconds?_eq_some_iff.mp found)
        rw [Option.eq_none_iff_forall_ne_some]
        intro duration made
        have fits := (ofSeconds?_eq_some_iff.mp made).1
        omega
      rw [ofText_of_unsigned (unsigned denotes), none]
  | @negativeZero body duration signed denotes length =>
      obtain ⟨word, found, nothing⟩ := exists_word_of_denotes denotes (by decide)
      have least : ¬ 0 < word := fun positive =>
        absurd (UInt64.lt_iff_toNat_lt.mp positive) (by rw [nothing]; decide)
      rw [ofText_of_signed signed, found]
      have same : duration = zero := eq_of_nanoseconds length
      rw [same]
      exact if_neg least
  | negative signed denotes positive fits =>
      obtain ⟨word, found, rfl⟩ := exists_word_of_denotes denotes fits
      rw [ofText_of_signed signed, found]
      have above : 0 < word := UInt64.lt_iff_toNat_lt.mpr positive
      exact if_pos above
  | tooNegative signed denotes large =>
      have none := unsignedSeconds?_eq_none fun count also => denotes.unique also ▸ large
      rw [ofText_of_signed signed, none]
  | shapeless unshaped signed =>
      by_cases minus : ∃ body, Text.trim text.toList = '-' :: body
      · obtain ⟨body, minus⟩ := minus
        have none := unsignedSeconds?_eq_none fun count denotes =>
          absurd denotes (signed body count minus)
        rw [ofText_of_signed minus, none]
      · have none := unsignedSeconds?_eq_none fun count denotes => absurd denotes (unshaped count)
        rw [ofText_of_unsigned fun body same => minus ⟨body, same⟩, none]
        rfl

theorem isReadAs_ofText (text : String) : IsReadAs text (ofText text) := by
  obtain ⟨outcome, reads⟩ := exists_isReadAs text
  rwa [ofText_of_isReadAs reads]

/-- No text is read as a negative duration. -/
theorem nonneg_of_ofText {text : String} {duration : Duration}
    (read : ofText text = .ok duration) : 0 ≤ duration.nanoseconds := by
  have reads := isReadAs_ofText text
  rw [read] at reads
  cases reads with
  | unsigned denotes fits length => omega
  | negativeZero signed denotes length => omega

/-- Reading is exact.  The outcome is the one that the number of seconds without
bound determines, the word that is computed is that number whenever it fits one,
and the only product and sum that are not checked stay below an hour. -/
theorem ofText_eq_iff_isReadAs :
    (∀ (text : String) (outcome : Except DurationError Duration),
        ofText text = outcome ↔ IsReadAs text outcome) ∧
      (∀ (body : List Char) (word : UInt64),
        unsignedSeconds? body = some word ↔ Denotes body word.toNat) ∧
      ∀ minutes seconds : UInt64, minutes < 60 → seconds < 60 →
        (minutes * 60).toNat = minutes.toNat * 60 ∧
          (minutes * 60 + seconds).toNat = minutes.toNat * 60 + seconds.toNat := by
  refine ⟨fun text outcome => ⟨?_, ofText_of_isReadAs⟩,
    fun body word => unsignedSeconds?_eq_some_iff, fun minutes seconds => toNat_minutes_seconds⟩
  rintro rfl
  exact isReadAs_ofText text

/-- The longest text of hours that is a duration, and one second more. -/
theorem ofText_longest :
    (30 : UInt64) < 60 ∧ (7 : UInt64) < 60 ∧ (30 * 60 + 7 : UInt64).toNat = 30 * 60 + 7 ∧
      unsignedSeconds? "2562047788015215:30:08".toList = some 9223372036854775808 ∧
      ofText " 2562047788015215:30:07" = .ok ⟨9223372036854775807000000000, by decide⟩ ∧
      ofText "2562047788015215:30:08" = .error (.malformed "2562047788015215:30:08") := by
  have few : (30 : UInt64) < 60 := by decide
  have small : (7 : UInt64) < 60 := by decide
  have word : unsignedSeconds? "2562047788015215:30:07".toList = some 9223372036854775807 := by
    decide
  have next : unsignedSeconds? "2562047788015215:30:08".toList = some 9223372036854775808 := by
    decide
  have denotes := (ofText_eq_iff_isReadAs.2.1 _ _).mp word
  have more := (ofText_eq_iff_isReadAs.2.1 _ _).mp next
  refine ⟨few, small, (ofText_eq_iff_isReadAs.2.2 30 7 few small).2, next, ?_, ?_⟩
  · exact (ofText_eq_iff_isReadAs.1 _ _).mpr (.unsigned denotes (by decide) (by decide))
  · exact (ofText_eq_iff_isReadAs.1 _ _).mpr (.tooLong more (by decide))

end Duration
end PracticePlan
