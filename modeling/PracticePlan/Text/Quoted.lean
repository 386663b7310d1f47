import PracticePlan.Text.Unshown

namespace PracticePlan
namespace Text

/-!
# Quotations in messages

A message that names a word from a plan puts it in double quotes, so that
blanks, line ends and invisible characters in it can be seen.  The quote and
the backslash are written with a backslash, as are the tab, the two line ends
and the null character by their letters.  Any other character that cannot be
shown is written by its code point in lower-case hexadecimal between braces.
The apostrophe stands as it is.
-/

def byPoint (c : Char) : List Char :=
  ['\\', 'u', '\x7b'] ++ Nat.toDigits 16 c.toNat ++ ['\x7d']

/-- A character as it stands inside a quotation. -/
def quotedChar (c : Char) : List Char :=
  if c = '"' then ['\\', '"']
  else if c = '\\' then ['\\', '\\']
  else if c = '\n' then ['\\', 'n']
  else if c = '\r' then ['\\', 'r']
  else if c = '\t' then ['\\', 't']
  else if c = Char.ofNat 0 then ['\\', '0']
  else if isUnshown c then byPoint c
  else [c]

def quoted (text : String) : String :=
  String.ofList ('"' :: text.toList.flatMap quotedChar ++ ['"'])

end Text
end PracticePlan
