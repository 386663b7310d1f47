import PracticePlan.Number.Word
import PracticePlan.Text.Blank
import PracticePlan.Text.Numeral
import PracticePlan.Text.Pieces
import PracticePlan.Text.Quoted

namespace PracticePlan

/-!
# Durations

A duration is a signed number of nanoseconds.  Its whole seconds fit a signed
64-bit word, and that bound is part of the type, so a sum that leaves the range
is visible as a missing value and never as a wrapped number.

Plans write durations as `ss`, `m:ss` or `h:mm:ss`.  Minutes are unbounded in
the two-part form, so `90:00` is an hour and a half.  Seconds, and minutes in
the three-part form, stay below sixty.  The reader works with 64-bit words and
gives up where a number, a product or a sum does not fit.  A text whose value is
negative is told apart from a text that has no value, except that a negative
text of 2^64 seconds or more counts as having none.
-/

/-- A length of time in nanoseconds whose whole seconds fit a signed 64-bit word. -/
structure Duration where
  nanoseconds : Int
  in_range : -(0x8000000000000000 * 1000000000 + 999999999) ≤ nanoseconds ∧
    nanoseconds ≤ 0x7FFFFFFFFFFFFFFF * 1000000000 + 999999999
deriving DecidableEq

/-- Why a text is not a duration that an interval can have. -/
inductive DurationError where
  | malformed (text : String)
  | negative (text : String)
deriving DecidableEq, Repr

namespace DurationError

/-- The wording of an error, with the text as it was given. -/
def message : DurationError → String
  | malformed text => "invalid duration " ++ Text.quoted text
  | negative text => "negative duration " ++ Text.quoted text

end DurationError

namespace Duration

/-- The duration of a number of nanoseconds, when it is in range. -/
def ofNanoseconds? (count : Int) : Option Duration :=
  if inside : -(0x8000000000000000 * 1000000000 + 999999999) ≤ count ∧
      count ≤ 0x7FFFFFFFFFFFFFFF * 1000000000 + 999999999 then
    some ⟨count, inside⟩
  else none

/-- The duration of a number of seconds, when it is in range. -/
def ofSeconds? (count : Int) : Option Duration :=
  ofNanoseconds? (count * 1000000000)

/-- No time at all. -/
def zero : Duration :=
  ⟨0, by decide⟩

def longest : Duration :=
  ⟨0x7FFFFFFFFFFFFFFF * 1000000000 + 999999999, by decide⟩

/-- A number of minutes.  A 32-bit count cannot leave the range. -/
def ofMinutes (count : UInt32) : Duration :=
  ⟨(count.toNat : Int) * 60 * 1000000000, by
    have bound := count.toNat_lt
    omega⟩

/-- The sum of two durations, when it is in range. -/
def add? (first second : Duration) : Option Duration :=
  ofNanoseconds? (first.nanoseconds + second.nanoseconds)

/-- The whole seconds, with the fraction dropped toward zero. -/
def wholeSeconds (duration : Duration) : Int :=
  duration.nanoseconds.tdiv 1000000000

/-- The number of seconds that one, two or three words denote. -/
def secondsOf? : List UInt64 → Option UInt64
  | [seconds] => some seconds
  | [minutes, seconds] =>
      if seconds < 60 then (Word.mul? minutes 60).bind fun count => Word.add? count seconds
      else none
  | [hours, minutes, seconds] =>
      -- The minutes and seconds below an hour are combined without a check.
      if minutes < 60 ∧ seconds < 60 then
        (Word.mul? hours 3600).bind fun count => Word.add? count (minutes * 60 + seconds)
      else none
  | _ => none

/-- The number of seconds of an unsigned duration text. -/
def unsignedSeconds? (text : List Char) : Option UInt64 :=
  ((Text.pieces ':' text).mapM fun piece => (Text.numeral? piece).bind Word.ofNat?).bind secondsOf?

/-- Read a duration.  Blanks around the text are ignored.  Zero may carry a
minus sign, every other negative value is refused. -/
def ofText (text : String) : Except DurationError Duration :=
  match Text.trim text.toList with
  | '-' :: rest =>
      match unsignedSeconds? rest with
      | some seconds => if 0 < seconds then .error (.negative text) else .ok zero
      | none => .error (.malformed text)
  | unsigned =>
      match (unsignedSeconds? unsigned).bind fun seconds => ofSeconds? seconds.toNat with
      | some duration => .ok duration
      | none => .error (.malformed text)

/-- A number below sixty with two digits. -/
def twoDigits (value : Nat) : List Char :=
  Text.padLeft '0' 2 (Text.digitsOf value)

/-- A number of seconds as `m:ss`, or as `h:mm:ss` from one hour on. -/
def clock (total : Nat) : List Char :=
  let hours := total / 3600
  let minutes := total % 3600 / 60
  let seconds := total % 60
  if 0 < hours then
    Text.digitsOf hours ++ ':' :: twoDigits minutes ++ ':' :: twoDigits seconds
  else Text.digitsOf minutes ++ ':' :: twoDigits seconds

/-- Write the whole seconds, with a minus sign when they are negative. -/
def toText (duration : Duration) : String :=
  let total := duration.wholeSeconds
  let sign := if total < 0 then ['-'] else []
  String.ofList (sign ++ clock total.natAbs)

end Duration
end PracticePlan
