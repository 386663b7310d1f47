namespace PracticePlan

/-!
# Binary floating point numbers of 64 bits

Numeric arguments are binary64 numbers, kept as their bits.  All arithmetic is
done on naturals.  Every finite magnitude is a whole number of *units* of
2^-1074, so comparing two magnitudes compares two naturals, and rounding an
exact quotient is one integer division.

A magnitude is addressed by its *index*, the low 63 bits read as a number.
Indices order magnitudes, the index below 2^53 is its own number of units, and
the index 2047 * 2^52 stands for infinity.  Larger indices are not numbers.

Rounding goes to the nearest magnitude, and to the even index when two are
equally near.
-/

/-- The bits of a binary64 number: sign, eleven bits of exponent, fraction. -/
structure Binary64 where
  bits : UInt64
deriving DecidableEq

namespace Binary64

/-- The least index that is not a finite magnitude. -/
def infinityIndex : Nat :=
  2047 * 0x10000000000000

def unitsPerOne : Nat :=
  Nat.pow 2 1074

/-- The units of the finite magnitude with this index. -/
def unitsOf (index : Nat) : Nat :=
  if index < 0x10000000000000 then index
  else (0x10000000000000 + index % 0x10000000000000) * Nat.pow 2 (index / 0x10000000000000 - 1)

/-- The quotient rounded to a whole number, a half to the even neighbour. -/
def roundedQuotient (dividend divisor : Nat) : Nat :=
  let whole := dividend / divisor
  let rest := dividend % divisor
  if 2 * rest < divisor then whole
  else if divisor < 2 * rest then whole + 1
  else if whole % 2 = 0 then whole else whole + 1

/-- The index of the magnitude nearest to a quotient of naturals, which may be
the index of infinity.  Above 2^53 units the spacing doubles with every power
of two, so that many binary places are rounded away at once. -/
def nearestIndex (dividend divisor : Nat) : Nat :=
  let scaled := dividend * unitsPerOne
  let places := (scaled / divisor).log2 - 52
  min infinityIndex
    (places * 0x10000000000000 + roundedQuotient scaled (divisor * Nat.pow 2 places))

/-- The number with a sign and the index of its magnitude. -/
def ofIndex (negative : Bool) (index : Nat) : Binary64 :=
  ⟨UInt64.ofNat ((if negative then 0x8000000000000000 else 0) + index)⟩

/-- The number nearest to a signed quotient of naturals. -/
def ofQuotient (negative : Bool) (dividend divisor : Nat) : Binary64 :=
  ofIndex negative (nearestIndex dividend divisor)

def index (number : Binary64) : Nat :=
  number.bits.toNat % 0x8000000000000000

/-- Whether the sign bit is set, also for zero. -/
def isNegative (number : Binary64) : Bool :=
  0x8000000000000000 ≤ number.bits.toNat

/-- Whether the bits stand for a real number. -/
def isFinite (number : Binary64) : Bool :=
  number.index < infinityIndex

/-- Whether the bits stand for no number at all. -/
def isNaN (number : Binary64) : Bool :=
  infinityIndex < number.index

/-- Whether the number is zero, of either sign. -/
def isZero (number : Binary64) : Bool :=
  number.index = 0

/-- The magnitude of a finite number in units. -/
def units (number : Binary64) : Nat :=
  unitsOf number.index

/-- Positive zero. -/
def zero : Binary64 :=
  ofIndex false 0

/-- Numerical equality.  The two zeros are equal, and what is not a number
equals nothing. -/
def same (first second : Binary64) : Bool :=
  !first.isNaN && !second.isNaN &&
    (first.bits == second.bits || (first.isZero && second.isZero))

/-- The value of a finite number without a fractional part. -/
def toInt? (number : Binary64) : Option Int :=
  if number.isFinite && number.units % unitsPerOne = 0 then
    let magnitude := number.units / unitsPerOne
    some (if number.isNegative then -(magnitude : Int) else magnitude)
  else none

/-- The magnitude of a product of finite numbers, with the sign of the first. -/
def times (first second : Binary64) : Binary64 :=
  ofQuotient first.isNegative (first.units * second.units) (unitsPerOne * unitsPerOne)

/-- The magnitude of a quotient of finite numbers, with the sign of the first.
The divisor must not be zero. -/
def dividedBy (first second : Binary64) : Binary64 :=
  ofQuotient first.isNegative first.units second.units

end Binary64
end PracticePlan
