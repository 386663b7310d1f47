import PracticePlan.Number.Binary64

namespace PracticePlan

/-!
# The fewest decimal digits of a binary number

A finite binary64 number is written with the fewest significant digits that
are read back to it, and among those with the digits nearest to it.  The test
for a candidate is the rounding function of the reader itself, so a selected
decimal reads back by construction.

For one digit, two digits and so on the search looks at the two neighbours of
the number on the decimal grid of that many digits.  The first grid with a
neighbour that reads back wins.  When both do, the nearer is taken, and an
exact tie follows the stated rule, since the formats that print numbers differ
in it.  Should seventeen digits not suffice, the exact decimal expansion is the
answer, and no digit is ever guessed.
-/

/-- The number `digits * 10 ^ exponent`. -/
structure Decimal where
  digits : Nat
  exponent : Int
deriving DecidableEq, Repr

/-- Which of two equally near decimals is chosen. -/
inductive Tie where
  | toEven
  | upward
deriving DecidableEq, Repr

namespace Decimal

/-- The numerator of the decimal over `divisor`. -/
def dividend (decimal : Decimal) : Nat :=
  decimal.digits * Nat.pow 10 decimal.exponent.toNat

/-- The power of ten below the decimal's point. -/
def divisor (decimal : Decimal) : Nat :=
  Nat.pow 10 (-decimal.exponent).toNat

/-- The index of the magnitude nearest to the decimal. -/
def nearestIndex (decimal : Decimal) : Nat :=
  Binary64.nearestIndex decimal.dividend decimal.divisor

/-- How many digits a number has in base ten. -/
def digitCount (value : Nat) : Nat :=
  (Nat.toDigits 10 value).length

/-- The power of ten of the leading digit of a positive number of units. -/
def leadingPower (units : Nat) : Int :=
  if Binary64.unitsPerOne ≤ units then (digitCount (units / Binary64.unitsPerOne) : Int) - 1
  else -(digitCount ((Binary64.unitsPerOne - 1) / units) : Int)

/-- The nearer of a number's two neighbours on a decimal grid, if it reads
back, or else the other one, if that does. -/
def onGrid? (tie : Tie) (index : Nat) (exponent : Int) : Option Decimal :=
  let scaled := Binary64.unitsOf index * Nat.pow 10 (-exponent).toNat
  let spacing := Binary64.unitsPerOne * Nat.pow 10 exponent.toNat
  let lower : Decimal := ⟨scaled / spacing, exponent⟩
  let upper : Decimal := ⟨scaled / spacing + 1, exponent⟩
  let twiceRest := 2 * (scaled % spacing)
  let prefersLower :=
    if twiceRest < spacing then true
    else if spacing < twiceRest then false
    else match tie with
      | .toEven => lower.digits % 2 = 0
      | .upward => false
  let candidates := if prefersLower then [lower, upper] else [upper, lower]
  candidates.find? fun candidate => candidate.nearestIndex = index

/-- Move zeros at the end of the digits into the exponent, at most `fuel` of
them.  The number stays the same. -/
def stripZeros : Nat → Decimal → Decimal
  | 0, decimal => decimal
  | fuel + 1, decimal =>
      if decimal.digits % 10 = 0 && decimal.digits ≠ 0 then
        stripZeros fuel ⟨decimal.digits / 10, decimal.exponent + 1⟩
      else decimal

/-- The exact decimal expansion of a number of units. -/
def exactly (units : Nat) : Decimal :=
  ⟨units * Nat.pow 5 1074, -1074⟩

/-- The fewest digits that read back to the positive finite magnitude with
this index. -/
def shortest (tie : Tie) (index : Nat) : Decimal :=
  let leading := leadingPower (Binary64.unitsOf index)
  let found := (List.range 17).findSome? fun (places : Nat) => onGrid? tie index (leading - places)
  let decimal := found.getD (exactly (Binary64.unitsOf index))
  stripZeros (digitCount decimal.digits) decimal

/-- The power of ten of the leading digit. -/
def leading (decimal : Decimal) : Int :=
  decimal.exponent + digitCount decimal.digits - 1

/-- The digits with a point, or with zeros in place of the missing digits
before it.  A whole number is followed by `whole`. -/
def positional (whole : List Char) (decimal : Decimal) : List Char :=
  let digits := Nat.toDigits 10 decimal.digits
  if 0 ≤ decimal.exponent then
    digits ++ List.replicate decimal.exponent.toNat '0' ++ whole
  else
    let before := (digits.length : Int) + decimal.exponent
    if 0 < before then digits.take before.toNat ++ '.' :: digits.drop before.toNat
    else '0' :: '.' :: (List.replicate (-before).toNat '0' ++ digits)

/-- One digit before the point and an exponent, which always has a sign. -/
def scientific (decimal : Decimal) : List Char :=
  let digits := Nat.toDigits 10 decimal.digits
  let power := decimal.leading
  let mantissa := match digits with
    | first :: second :: others => first :: '.' :: second :: others
    | short => short
  mantissa ++ 'e' :: (if power < 0 then '-' else '+') :: Nat.toDigits 10 power.natAbs

end Decimal
end PracticePlan
