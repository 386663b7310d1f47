namespace PracticePlan
namespace Text

/-!
# Blank characters

A practice plan is typed by hand, so every field is read without the blanks
around it.  Blank means the Unicode property White_Space: twenty-five code
points, of which core's `Char.isWhitespace` knows the four ASCII ones that
occur most.  No other notion of white space is used for plan texts.  The
reader of JSON, whose blanks are four characters by definition, has its own.

Trimming is stated on lists of characters, where the lemmas live.  `trimmed`
is the same function on strings.
-/

/-- Closed ranges of the code points with the property White_Space, ascending
and apart. -/
def blankRanges : List (Nat × Nat) :=
  [(0x09, 0x0D), (0x20, 0x20), (0x85, 0x85), (0xA0, 0xA0), (0x1680, 0x1680), (0x2000, 0x200A),
   (0x2028, 0x2029), (0x202F, 0x202F), (0x205F, 0x205F), (0x3000, 0x3000)]

/-- Whether a code point lies in one of the closed ranges. -/
def inRanges (ranges : List (Nat × Nat)) (point : Nat) : Bool :=
  ranges.any fun range => range.1 ≤ point && point ≤ range.2

def isBlank (c : Char) : Bool :=
  inRanges blankRanges c.toNat

def trimStart (text : List Char) : List Char :=
  text.dropWhile isBlank

def trimEnd (text : List Char) : List Char :=
  (text.reverse.dropWhile isBlank).reverse

def trim (text : List Char) : List Char :=
  trimEnd (trimStart text)

/-- The string without the blanks around it. -/
def trimmed (text : String) : String :=
  String.ofList (trim text.toList)

end Text
end PracticePlan
