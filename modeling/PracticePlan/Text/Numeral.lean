namespace PracticePlan
namespace Text

/-!
# Decimal numerals

Natural numbers as runs of ASCII digits.  A run may have leading zeros and may
be of any length; a bound on the value is the business of the caller, which
compares the unbounded value with its limit.  Signs, separators and digits of
other scripts are refused.
-/

def digitValue (c : Char) : Nat :=
  c.toNat - '0'.toNat

/-- The value of a run of digits read after a prefix of value `start`. -/
def valueFrom (start : Nat) (digits : List Char) : Nat :=
  digits.foldl (fun value c => 10 * value + digitValue c) start

/-- The value of a nonempty run of ASCII digits, and nothing for other texts. -/
def numeral? (text : List Char) : Option Nat :=
  if !text.isEmpty && text.all Char.isDigit then some (valueFrom 0 text) else none

/-- Like `numeral?` with an optional plus sign, for values below `bound`. -/
def signedNumeralBelow? (bound : Nat) (text : List Char) : Option Nat :=
  let digits := match text with
    | '+' :: rest => rest
    | _ => text
  (numeral? digits).filter (· < bound)

/-- The digits of a number, most significant first and without leading zeros. -/
def digitsOf (value : Nat) : List Char :=
  Nat.toDigits 10 value

/-- Fill up with `filler` in front until the text has `width` characters. -/
def padLeft (filler : Char) (width : Nat) (text : List Char) : List Char :=
  List.replicate (width - text.length) filler ++ text

end Text
end PracticePlan
