import PracticePlan.Notation.Basic
import PracticePlan.Files.Name
import PracticePlan.Text.Blank

namespace PracticePlan
namespace Notation
namespace Format

/-!
# Choosing a notation

A notation is chosen by its name, by the extension of a file name, or by
looking at a text.  A text is JSON when the first thing in it is an opening
brace, and lines otherwise.  Names and extensions are read in any case of
ASCII letters.
-/

def name : Format → String
  | text => "text"
  | json => "json"

def other : Format → Format
  | text => json
  | json => text

/-- A text with ASCII letters in lower case. -/
def lowered (word : List Char) : String :=
  String.ofList (word.map Char.toLower)

def ofName (word : String) : Except FormatError Format :=
  let known := lowered word.toList
  if known = "text" ∨ known = "txt" then .ok text
  else if known = "json" then .ok json
  else .error (.unknownFormat known)

/-- The notation of a file, by the extension of its name. -/
def ofPath? (path : String) : Option Format :=
  (FileName.extension? path.toList).bind fun extension =>
    let known := lowered extension
    if known = "json" then some json
    else if known = "txt" ∨ known = "sched" ∨ known = "schedule" then some text
    else none

/-- The notation that a text seems to be in. -/
def detect (words : String) : Format :=
  if (Text.trimStart words.toList).head? = some '\x7b' then json else text

end Format
end Notation
end PracticePlan
