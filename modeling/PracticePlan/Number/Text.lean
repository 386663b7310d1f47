import PracticePlan.Number.Shortest
import PracticePlan.Text.Numeral

namespace PracticePlan
namespace Binary64

/-!
# Numbers as argument texts

A numeric argument is written positionally, never with an exponent, with the
fewest digits that read back.  Whole numbers have no point, a tie between two
equally near digit strings goes upward, and the sign of zero is kept.

The reader accepts an optional sign, digits with an optional point and at least
one digit in all, and an optional exponent with digits.  Blanks, separators and
other notations are refused.  The value is rounded once.  The names of
infinities and of what is not a number are not decimal texts and are refused
too, since no argument may have such a value.
-/

def toText (number : Binary64) : String :=
  if number.isNaN then "NaN"
  else
    let sign := if number.isNegative then ['-'] else []
    let magnitude :=
      if !number.isFinite then ['i', 'n', 'f']
      else if number.isZero then ['0']
      else (Decimal.shortest .upward number.index).positional []
    String.ofList (sign ++ magnitude)

/-- The number nearest to `digits * 10 ^ exponent` for a run of digits.  The
powers of ten beyond every finite number and below half of the least are not
computed: there the nearest magnitude is infinity or zero whatever the digits. -/
def ofScaledDigits (negative : Bool) (digits : List Char) (exponent : Int) : Binary64 :=
  let significant := digits.dropWhile (· = '0')
  let power := (significant.length : Int) + exponent
  if significant.isEmpty || power < -330 then ofIndex negative 0
  else if 310 < power then ofIndex negative infinityIndex
  else
    let decimal : Decimal := ⟨Text.valueFrom 0 significant, exponent⟩
    ofIndex negative decimal.nearestIndex

/-- Read an exponent: an optional sign and at least one digit. -/
def exponent? : List Char → Option Int
  | '-' :: digits => (Text.numeral? digits).map fun value => -(value : Int)
  | '+' :: digits => (Text.numeral? digits).map fun value => (value : Int)
  | digits => (Text.numeral? digits).map fun value => (value : Int)

def unsignedOfText? (negative : Bool) (text : List Char) : Option Binary64 :=
  let whole := text.takeWhile Char.isDigit
  let afterWhole := text.dropWhile Char.isDigit
  let tail := match afterWhole with
    | '.' :: rest => rest
    | rest => rest
  let hasPoint := afterWhole.head? = some '.'
  let fraction := if hasPoint then tail.takeWhile Char.isDigit else []
  let afterFraction := if hasPoint then tail.dropWhile Char.isDigit else tail
  if whole.isEmpty && fraction.isEmpty then none
  else
    let exponent := match afterFraction with
      | [] => some 0
      | mark :: rest => if mark = 'e' ∨ mark = 'E' then exponent? rest else none
    exponent.map fun power =>
      ofScaledDigits negative (whole ++ fraction) (power - fraction.length)

/-- Read a decimal text with an optional sign. -/
def ofText? : List Char → Option Binary64
  | '-' :: rest => unsignedOfText? true rest
  | '+' :: rest => unsignedOfText? false rest
  | text => unsignedOfText? false text

end Binary64
end PracticePlan
