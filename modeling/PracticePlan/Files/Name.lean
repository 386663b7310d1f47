import PracticePlan.Text.Pieces

namespace PracticePlan
namespace FileName

/-!
# File names

A path is cut at its slashes.  Empty pieces and pieces of a single dot say
nothing and are passed over, so the last name of a path is the last piece that
is left.  A piece of two dots is not a name.

A name splits at its last dot into a stem and an extension.  A dot at the very
front of a name does not split it.

The folders around a path are the paths that end at an earlier naming piece.
Pieces of two dots count as naming here.  What is passed over at the end of a
path belongs to the path and to none of the folders around it.
-/

/-- Whether a piece of a path leads anywhere. -/
def isNaming (piece : List Char) : Bool :=
  !piece.isEmpty && piece ≠ ['.']

/-- The last name of a path. -/
def last? (path : List Char) : Option (List Char) :=
  let names := (Text.pieces '/' path).filter isNaming
  names.getLast?.filter fun name => name ≠ ['.', '.']

/-- The stem and the extension of a name that has both. -/
def split? (name : List Char) : Option (List Char × List Char) :=
  ((Text.cut? '.' name.reverse).map fun parts => (parts.2.reverse, parts.1.reverse)).filter
    fun parts => !parts.1.isEmpty

def extension? (path : List Char) : Option (List Char) :=
  ((last? path).bind split?).map Prod.snd

/-- The last name of a path without its extension. -/
def stem? (path : List Char) : Option (List Char) :=
  (last? path).map fun name => match split? name with
    | some parts => parts.1
    | none => name

/-- The parts of a path that end at a naming piece, innermost first.  The pieces
of a path are given last piece first. -/
def endings : List (List Char) → List (List (List Char))
  | [] => []
  | piece :: outer => if isNaming piece then (piece :: outer) :: endings outer else endings outer

/-- The folders around a path, innermost first. -/
def around (path : List Char) : List (List Char) :=
  (endings (Text.pieces '/' path).reverse).tail.map fun pieces =>
    ['/'].intercalate pieces.reverse

end FileName
end PracticePlan
