import PracticePlan.Json.Basic
import PracticePlan.Text.Numeral

namespace PracticePlan
namespace Json

/-!
# The value of a JSON number

A number without point and exponent is an integer when it fits a signed or an
unsigned 64-bit word.  Negative zero and every other number is floating point.

The floating point value is computed in double precision, not from the exact
decimal.  The digits are gathered in an unsigned 64-bit word.  Once the next
digit of the integer part would not fit, the remaining integer digits only
raise the power of ten, and fraction digits that would not fit are dropped.
The word is rounded once, and then multiplied or divided by a rounded power of
ten.  The result can differ from the nearest number in the last place.  A
number beyond the finite range has no value.
-/

/-- The parts of a number as it is written. -/
structure NumberText where
  negative : Bool
  whole : List Char
  fraction : Option (List Char)
  exponent : Option (Bool × List Char)
deriving DecidableEq, Repr

/-- Gather digits while the value stays below 2^64.  The result is the value
and the digits left over. -/
def gather (value : Nat) : List Char → Nat × List Char
  | [] => (value, [])
  | c :: rest =>
      let next := 10 * value + Text.digitValue c
      if next < 0x10000000000000000 then gather next rest else (value, c :: rest)

/-- The rounded power of ten, for exponents up to 308. -/
def powerOfTen (exponent : Nat) : Binary64 :=
  Binary64.ofQuotient false (Nat.pow 10 exponent) 1

/-- Divide by a power of ten, by at most 308 places at a time. -/
def scaledDown (number : Binary64) (places : Nat) : Binary64 :=
  if places ≤ 308 then number.dividedBy (powerOfTen places)
  else if number.isZero then number
  else scaledDown (number.dividedBy (powerOfTen 308)) (places - 308)
termination_by places

/-- Multiply by a power of ten, when the result is finite. -/
def scaledUp? (number : Binary64) (places : Nat) : Option Binary64 :=
  if places ≤ 308 then
    let product := number.times (powerOfTen places)
    if product.isFinite then some product else none
  else if number.isZero then some number
  else none

/-- The floating point number `word * 10 ^ exponent` with a sign. -/
def scaledWord? (negative : Bool) (word : Nat) (exponent : Int) : Option Binary64 :=
  let number := Binary64.ofQuotient negative word 1
  if 0 ≤ exponent then scaledUp? number exponent.toNat
  else some (scaledDown number (-exponent).toNat)

namespace NumberText

/-- The value of an integer text whose digits fit a word. -/
def integerValue (negative : Bool) (word : Nat) : Json :=
  if !negative then integer word
  else if word = 0 ∨ 0x8000000000000000 < word then float (Binary64.ofQuotient true word 1)
  else integer (-(word : Int))

/-- The value of a number, unless it is too large. -/
def value? (text : NumberText) : Option Json :=
  let gathered := gather 0 text.whole
  if text.fraction.isNone && text.exponent.isNone && gathered.2.isEmpty then
    some (integerValue text.negative gathered.1)
  else
    let fraction := text.fraction.getD []
    let all := gather gathered.1 fraction
    let point : Int := (gathered.2.length : Int) - ((fraction.length : Int) - all.2.length)
    let power : Int := match text.exponent with
      | none => 0
      | some (true, digits) => -(Text.valueFrom 0 digits : Int)
      | some (false, digits) => Text.valueFrom 0 digits
    (scaledWord? text.negative all.1 (point + power)).map float

end NumberText

end Json
end PracticePlan
