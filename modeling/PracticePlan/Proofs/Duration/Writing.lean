import PracticePlan.Proofs.Duration.Reading

namespace PracticePlan
namespace Duration

/-!
# Writing durations

A duration is written as its whole seconds.  What is written is a clock text,
with a minus sign when the whole seconds are negative, and the clock text
denotes them whichever of its two shapes it has (`denotes_clock`).  Reading
therefore gives the whole seconds back or says that they are negative
(`ofText_toText`).  Both hold on the whole range of durations.
-/

/-! ## Clock texts -/

theorem toList_toText (duration : Duration) :
    duration.toText.toList =
      (if duration.wholeSeconds < 0 then ['-'] else []) ++ clock duration.wholeSeconds.natAbs := by
  rw [toText, String.toList_ofList]

theorem isNumeral_twoDigits (value : Nat) : Text.IsNumeral (twoDigits value) value :=
  (Text.isNumeral_digitsOf value).zeros_append _

/-- A clock text denotes the seconds that it was written for. -/
theorem denotes_clock (total : Nat) : Denotes (clock total) total := by
  have seconds := isNumeral_twoDigits (total % 60)
  have small : total % 60 < 60 := Nat.mod_lt total (by decide)
  unfold clock
  dsimp only
  split
  · have denotes := Denotes.hours (Text.isNumeral_digitsOf (total / 3600))
      (isNumeral_twoDigits (total % 3600 / 60)) seconds (by omega) small
    have whole : total / 3600 * 3600 + total % 3600 / 60 * 60 + total % 60 = total := by omega
    rw [whole] at denotes
    rwa [List.append_assoc]
  · have denotes := Denotes.minutes (Text.isNumeral_digitsOf (total % 3600 / 60)) seconds small
    have whole : total % 3600 / 60 * 60 + total % 60 = total := by omega
    rwa [whole] at denotes

theorem clock_injective : Function.Injective clock := by
  intro total other same
  exact (denotes_clock total).unique (same ▸ denotes_clock other)

/-- Nothing but digits and colons stands in a clock text. -/
theorem Denotes.isDigit_or_colon {text : List Char} {count : Nat} (denotes : Denotes text count) :
    ∀ c ∈ text, c.isDigit = true ∨ c = ':' := by
  intro c member
  cases denotes with
  | seconds last => exact .inl (last.digits c member)
  | minutes first last =>
      rw [List.mem_append, List.mem_cons] at member
      rcases member with front | colon | back
      · exact .inl (first.digits c front)
      · exact .inr colon
      · exact .inl (last.digits c back)
  | hours first second last =>
      simp only [List.mem_append, List.mem_cons] at member
      rcases member with front | colon | middle | colon | back
      · exact .inl (first.digits c front)
      · exact .inr colon
      · exact .inl (second.digits c middle)
      · exact .inr colon
      · exact .inl (last.digits c back)

/-- No blank stands in what is written. -/
theorem trim_toText (duration : Duration) :
    Text.trim duration.toText.toList = duration.toText.toList := by
  apply Text.trim_of_tight
  apply Text.tight_of_solid
  intro c member
  rw [toList_toText] at member
  rcases List.mem_append.mp member with sign | body
  · split at sign
    · rw [List.mem_singleton.mp sign]
      decide
    · cases sign
  · rcases (denotes_clock _).isDigit_or_colon c body with digit | colon
    · exact Text.isBlank_of_isDigit digit
    · rw [colon]
      decide

/-! ## Reading what is written -/

/-- The whole seconds of a duration fit a signed word of 64 bits. -/
theorem wholeSeconds_bounds (duration : Duration) :
    -(2 ^ 63) ≤ duration.wholeSeconds ∧ duration.wholeSeconds < 2 ^ 63 := by
  have inside := duration.in_range
  rcases Int.le_total 0 duration.nanoseconds with positive | negative
  · rw [wholeSeconds, Int.tdiv_eq_ediv_of_nonneg positive]
    omega
  · have flipped : duration.wholeSeconds = -(-duration.nanoseconds / 1000000000) := by
      rw [wholeSeconds, ← Int.tdiv_eq_ediv_of_nonneg (Int.neg_nonneg_of_nonpos negative),
        Int.neg_tdiv, Int.neg_neg]
    rw [flipped]
    omega

theorem isReadAs_toText_of_nonneg {duration : Duration} (positive : 0 ≤ duration.wholeSeconds)
    {read : Duration} (length : read.nanoseconds = duration.wholeSeconds * 1000000000) :
    IsReadAs duration.toText (.ok read) := by
  have fits := duration.wholeSeconds_bounds
  have denotes := denotes_clock duration.wholeSeconds.natAbs
  have text : Text.trim duration.toText.toList = clock duration.wholeSeconds.natAbs := by
    rw [trim_toText, toList_toText, if_neg (Int.not_lt.mpr positive), List.nil_append]
  exact .unsigned (text ▸ denotes) (by omega) (by omega)

theorem isReadAs_toText_of_neg {duration : Duration} (negative : duration.wholeSeconds < 0) :
    IsReadAs duration.toText (.error (.negative duration.toText)) := by
  have fits := duration.wholeSeconds_bounds
  have text : Text.trim duration.toText.toList = '-' :: clock duration.wholeSeconds.natAbs := by
    rw [trim_toText, toList_toText, if_pos negative, List.singleton_append]
  exact .negative text (denotes_clock _) (by omega) (by omega)

theorem clock_ne_minus {total : Nat} {rest : List Char} : clock total ≠ '-' :: rest := by
  intro same
  exact not_denotes_minus (same ▸ denotes_clock total)

/-- Two durations are written alike when they have the same whole seconds. -/
theorem toText_eq_iff {first second : Duration} :
    first.toText = second.toText ↔ first.wholeSeconds = second.wholeSeconds := by
  constructor
  · intro same
    have texts := congrArg String.toList same
    rw [toList_toText, toList_toText] at texts
    by_cases negative : first.wholeSeconds < 0 <;> by_cases also : second.wholeSeconds < 0
    · rw [if_pos negative, if_pos also, List.append_cancel_left_eq] at texts
      have sizes := clock_injective texts
      omega
    · rw [if_pos negative, if_neg also] at texts
      exact absurd texts.symm clock_ne_minus
    · rw [if_neg negative, if_pos also] at texts
      exact absurd texts clock_ne_minus
    · rw [if_neg negative, if_neg also, List.append_cancel_left_eq] at texts
      have sizes := clock_injective texts
      omega
  · intro same
    rw [toText, toText, same]

/-- What is read has no fraction of a second. -/
theorem nanoseconds_of_ofText {text : String} {duration : Duration}
    (read : ofText text = .ok duration) :
    0 ≤ duration.wholeSeconds ∧ duration.nanoseconds = duration.wholeSeconds * 1000000000 := by
  have reads := isReadAs_ofText text
  have dropped : duration.wholeSeconds = duration.nanoseconds / 1000000000 :=
    Int.tdiv_eq_ediv_of_nonneg (nonneg_of_ofText read)
  rw [read] at reads
  cases reads with
  | unsigned denotes fits length => omega
  | negativeZero signed denotes length => omega

/-- Reading undoes writing up to the fraction of a second, and tells negative
durations apart.  No two numbers of whole seconds are written alike, and writing
what was read does not change what it is read as. -/
theorem ofText_toText :
    (∀ duration : Duration, 0 ≤ duration.wholeSeconds →
        ∃ read, ofText duration.toText = .ok read ∧
          read.nanoseconds = duration.wholeSeconds * 1000000000) ∧
      (∀ duration : Duration, duration.wholeSeconds < 0 →
        ofText duration.toText = .error (.negative duration.toText)) ∧
      (∀ first second : Duration,
        first.toText = second.toText ↔ first.wholeSeconds = second.wholeSeconds) ∧
      ∀ (text : String) (duration : Duration), ofText text = .ok duration →
        ofText duration.toText = .ok duration := by
  refine ⟨fun duration positive => ?_, fun duration negative => ?_, fun _ _ => toText_eq_iff,
    fun text duration read => ?_⟩
  · have fits := duration.wholeSeconds_bounds
    have inside : -(0x8000000000000000 * 1000000000 + 999999999) ≤
        duration.wholeSeconds * 1000000000 ∧
          duration.wholeSeconds * 1000000000 ≤ 0x7FFFFFFFFFFFFFFF * 1000000000 + 999999999 := by
      omega
    exact ⟨⟨_, inside⟩, ofText_of_isReadAs (isReadAs_toText_of_nonneg positive rfl), rfl⟩
  · exact ofText_of_isReadAs (isReadAs_toText_of_neg negative)
  · rcases nanoseconds_of_ofText read with ⟨positive, whole⟩
    exact ofText_of_isReadAs (isReadAs_toText_of_nonneg positive whole)

/-- The shortest duration, and an hour with a fraction of a second. -/
theorem ofText_toText_shortest :
    let shortest : Duration := ⟨-9223372036854775808999999999, by decide⟩
    let hour : Duration := ⟨3600500000000, by decide⟩
    shortest.wholeSeconds < 0 ∧ 0 ≤ hour.wholeSeconds ∧
      ofText shortest.toText = .error (.negative shortest.toText) ∧
      (∃ read, ofText hour.toText = .ok read ∧ read.nanoseconds = 3600 * 1000000000) ∧
      ofText "60:00" = .ok ⟨3600000000000, by decide⟩ ∧
      ofText (toText ⟨3600000000000, by decide⟩) = .ok ⟨3600000000000, by decide⟩ := by
  intro shortest hour
  have negative : shortest.wholeSeconds < 0 := by decide
  have positive : 0 ≤ hour.wholeSeconds := by decide
  have read : ofText "60:00" = .ok ⟨3600000000000, by decide⟩ := by decide
  exact ⟨negative, positive, ofText_toText.2.1 shortest negative, ofText_toText.1 hour positive,
    read, ofText_toText.2.2.2 "60:00" _ read⟩

end Duration
end PracticePlan
