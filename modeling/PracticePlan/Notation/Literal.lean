import PracticePlan.Notation.Resolve

namespace PracticePlan
namespace Notation

/-!
# Settings literals

The last field of a line may stand for settings.  It then starts with a mark
and a key: `@`, a letter, letters, digits or underscores, perhaps blanks, and a
colon.  What follows the colon is free, but stays on the line.

The shape alone does not make a literal.  The category of the line decides
whether it knows the key, and a field that it does not know is an argument like
any other.  The category is the one that the second field names, provided that
the second field is not the literal itself.
-/

variable {σ φ : Type}

/-- Whether a character may follow the first one of a key. -/
def isKeyChar (c : Char) : Bool :=
  c.isAlphanum || c = '_'

/-- Whether a text behind the mark has the shape of a literal. -/
def isLiteralBody : List Char → Bool
  | [] => false
  | first :: rest =>
      first.isAlpha && match (rest.dropWhile isKeyChar).dropWhile Text.isBlank with
        | ':' :: value => !value.contains '\n'
        | _ => false

/-- The text behind the mark, when a field has the shape of a literal. -/
def literalBody? : List Char → Option String
  | '@' :: body => if isLiteralBody body then some (String.ofList body) else none
  | _ => none

/-- The field that names the feature type while the last field may still be a
literal. -/
def typeField : List String → String
  | _ :: field :: _ :: _ => field
  | _ => ""

/-- What the last of the fields stands for, when it is a literal that the
category of the fields knows. -/
def lastLiteral? (registry : Registry σ φ) (standard : Category σ φ) (fields : List String)
    (last : List Char) : Option (String × Except SettingsError σ) :=
  (literalBody? last).bind fun body =>
    ((resolve registry standard (typeField fields)).1.settingsOfLiteral? body).map fun outcome =>
      (body, outcome)

end Notation
end PracticePlan
