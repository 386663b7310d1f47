import PracticePlan.Registry.Basic
import PracticePlan.Text.Blank

namespace PracticePlan
namespace Notation

/-!
# Names of feature types in lines

A line names its feature type in one field, and one category is the default.
The field may name another category in front of a slash.  Without that, a type
of the default category comes first, then the first type of this name in the
registry.  A name that nothing matches belongs to the default category.

`fieldOf` is the way back, and writes the category unless it is the default.
-/

variable {σ φ : Type}

/-- The part of a field in front of its first slash and the part behind it. -/
def qualified? (field : String) : Option (String × String) :=
  (Text.cut? '/' field.toList).map fun parts =>
    (String.ofList (Text.trim parts.1), String.ofList (Text.trim parts.2))

/-- The category that a field names in front of a slash, with the rest. -/
def explicit? (registry : Registry σ φ) (field : String) : Option (Category σ φ × String) :=
  (qualified? field).bind fun parts =>
    (registry.category? parts.1).map fun category => (category, parts.2)

/-- The category in which the registry first finds a type. -/
def elsewhere? (registry : Registry σ φ) (field : String) : Option (Category σ φ) :=
  (registry.findType? field).bind fun type => registry.category? type.category

/-- The category and the name of the type that a field stands for. -/
def resolve (registry : Registry σ φ) (standard : Category σ φ) (field : String) :
    Category σ φ × String :=
  if field.isEmpty then (standard, "")
  else match explicit? registry field with
    | some found => found
    | none =>
        if (standard.type? field).isSome then (standard, field)
        else match elsewhere? registry field with
          | some category => (category, field)
          | none => (standard, field)

/-- The field for a type of a category. -/
def fieldOf (standard : Category σ φ) (categoryName featureType : String) : String :=
  if categoryName.isEmpty || categoryName == standard.name then featureType
  else categoryName ++ "/" ++ featureType

end Notation
end PracticePlan
