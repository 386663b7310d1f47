import PracticePlan.Json.Basic
import PracticePlan.Number.Shortest

namespace PracticePlan
namespace Json

/-!
# Writing JSON

Two layouts share everything but the blanks between tokens.  The compact layout
has none.  The indented layout puts every element and every member on a line of
its own, two spaces deeper than its array or object, and writes empty arrays
and objects on one line.

In strings the quote, the backslash and the control characters below U+0020 are
escaped, by a letter where one exists.  All other characters stand as they are.

Floating point numbers are written with the fewest digits that identify them,
an exact tie going to the even digit.  They always show that they are not
integers: positionally with a point when the leading digit stands for a power
of ten from -5 to 15, and with a signed exponent otherwise.
-/

/-- A character as it stands inside a string. -/
def escaped (c : Char) : List Char :=
  if c = '"' then ['\\', '"']
  else if c = '\\' then ['\\', '\\']
  else if c = Char.ofNat 8 then ['\\', 'b']
  else if c = Char.ofNat 12 then ['\\', 'f']
  else if c = '\n' then ['\\', 'n']
  else if c = '\r' then ['\\', 'r']
  else if c = '\t' then ['\\', 't']
  else if c.toNat < 0x20 then
    let digits := Nat.toDigits 16 c.toNat
    ['\\', 'u'] ++ List.replicate (4 - digits.length) '0' ++ digits
  else [c]

def quotedString (text : String) : List Char :=
  '"' :: text.toList.flatMap escaped ++ ['"']

def integerText (value : Int) : List Char :=
  (if value < 0 then ['-'] else []) ++ Nat.toDigits 10 value.natAbs

def floatText (number : Binary64) : List Char :=
  let sign := if number.isNegative then ['-'] else []
  if number.isZero then sign ++ ['0', '.', '0']
  else
    let decimal := Decimal.shortest .toEven number.index
    let power := decimal.leading
    sign ++ (if -5 ≤ power ∧ power ≤ 15 then decimal.positional ['.', '0']
      else decimal.scientific)

/-- A value that holds no other values. -/
def scalarText : Json → List Char
  | null => ['n', 'u', 'l', 'l']
  | boolean true => ['t', 'r', 'u', 'e']
  | boolean false => ['f', 'a', 'l', 's', 'e']
  | integer value => integerText value
  | float value => floatText value
  | string text => quotedString text
  | _ => []

mutual

def compactChars : Json → List Char
  | array elements => '[' :: compactElements true elements
  | object members => '\x7b' :: compactMembers true members
  | scalar => scalarText scalar

/-- The elements of an array and its end. -/
def compactElements (first : Bool) : List Json → List Char
  | [] => [']']
  | element :: rest =>
      (if first then [] else [',']) ++ compactChars element ++ compactElements false rest

/-- The members of an object and its end. -/
def compactMembers (first : Bool) : List (String × Json) → List Char
  | [] => ['\x7d']
  | (key, value) :: rest =>
      (if first then [] else [',']) ++ quotedString key ++ ':' :: compactChars value ++
        compactMembers false rest

end

/-- A new line, indented. -/
def newLine (depth : Nat) : List Char :=
  '\n' :: List.replicate (2 * depth) ' '

mutual

/-- A value whose lines are indented by `depth` steps, its first line apart. -/
def indentedChars (depth : Nat) : Json → List Char
  | array [] => ['[', ']']
  | array (element :: rest) => '[' :: indentedElements depth true (element :: rest)
  | object [] => ['\x7b', '\x7d']
  | object (member :: rest) => '\x7b' :: indentedMembers depth true (member :: rest)
  | scalar => scalarText scalar

/-- The elements of an array, each on its line, and the array's end. -/
def indentedElements (depth : Nat) (first : Bool) : List Json → List Char
  | [] => newLine depth ++ [']']
  | element :: rest =>
      (if first then [] else [',']) ++ newLine (depth + 1) ++ indentedChars (depth + 1) element ++
        indentedElements depth false rest

/-- The members of an object, each on its line, and the object's end. -/
def indentedMembers (depth : Nat) (first : Bool) : List (String × Json) → List Char
  | [] => newLine depth ++ ['\x7d']
  | (key, value) :: rest =>
      (if first then [] else [',']) ++ newLine (depth + 1) ++ quotedString key ++ [':', ' '] ++
        indentedChars (depth + 1) value ++ indentedMembers depth false rest

end

def compact (value : Json) : String :=
  String.ofList (compactChars value)

def indented (value : Json) : String :=
  String.ofList (indentedChars 0 value)

end Json
end PracticePlan
