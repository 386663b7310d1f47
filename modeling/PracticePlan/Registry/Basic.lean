import PracticePlan.Arguments.Basic
import PracticePlan.Duration
import PracticePlan.Named
import PracticePlan.Schema.Basic
import PracticePlan.Settings.Basic

namespace PracticePlan

/-!
# The registry of feature types

A registry lists categories, and a category lists feature types.  Each feature
type has a schema for its arguments and makes features from them.  Each
category knows the default of its settings and how settings are read.

Nothing here depends on a particular type of settings or features.  Names are
unique by construction: registering under a known name replaces what was
there, in its place and as a whole.  A category is registered only when each of
its types belongs to it and has a schema that passes its check.  Looking up an
unknown name has no answer and is never an error, since plans may name types
that no longer exist.
-/

/-- What a feature may depend on besides its arguments. -/
structure Context (σ : Type) where
  index : Nat
  duration : Duration
  settings : σ

/-- A type of features. -/
class Feature (φ : Type) where
  /-- The name of the feature's type. -/
  typeName : φ → String
  /-- A description in one line. -/
  summary : φ → String

/-- A named kind of feature.  Making one fails with an explanation. -/
structure FeatureType (σ φ : Type) where
  category : String
  name : String
  displayName : String
  schema : Schema
  make : Arguments → Context σ → Except String φ

/-- Feature types that share their settings. -/
structure Category (σ φ : Type) where
  name : String
  displayName : String
  types : List (FeatureType σ φ)
  defaultSettings : σ
  settingsOfJson : Json → Except SettingsError σ
  settingsOfLiteral? : String → Option (Except SettingsError σ)

/-- Categories in the order of their registration. -/
structure Registry (σ φ : Type) where
  categories : List (Category σ φ)

/-- Why a category is not registered. -/
inductive RegistrationError where
  | foreignType (owner : String) (category : String)
  | schema (error : SchemaError)
deriving DecidableEq, Repr

namespace RegistrationError

def message : RegistrationError → String
  | foreignType owner category =>
      "invalid schema for " ++ owner ++ ": descriptor belongs to category " ++ Text.quoted category
  | schema error => error.message

end RegistrationError

variable {σ φ : Type}

namespace FeatureType

/-- The name under which faults of the schema are reported. -/
def owner (category : String) (type : FeatureType σ φ) : String :=
  category ++ "/" ++ type.name

/-- Check that the type belongs to a category and has a usable schema. -/
def checkIn (category : String) (type : FeatureType σ φ) : Except RegistrationError Unit :=
  if type.category = category then
    (Schema.check (type.owner category) type.schema).mapError .schema
  else .error (.foreignType (type.owner category) type.category)

end FeatureType

namespace Category

def withType (category : Category σ φ) (type : FeatureType σ φ) : Category σ φ :=
  { category with types := Named.replace FeatureType.name type category.types }

def type? (category : Category σ φ) (name : String) : Option (FeatureType σ φ) :=
  Named.find? FeatureType.name name category.types

def check (category : Category σ φ) : Except RegistrationError Unit :=
  category.types.forM fun type => type.checkIn category.name

end Category

namespace Registry

def empty : Registry σ φ :=
  ⟨[]⟩

/-- Register a category, if it passes its check. -/
def register (registry : Registry σ φ) (category : Category σ φ) :
    Except RegistrationError (Registry σ φ) :=
  category.check.map fun _ => ⟨Named.replace Category.name category registry.categories⟩

/-- Register categories one after the other, up to the first that is refused. -/
def ofCategories (categories : List (Category σ φ)) : Except RegistrationError (Registry σ φ) :=
  categories.foldlM register empty

def category? (registry : Registry σ φ) (name : String) : Option (Category σ φ) :=
  Named.find? Category.name name registry.categories

/-- A category that is found under a name has that name. -/
theorem name_of_category? {registry : Registry σ φ} {name : String} {category : Category σ φ}
    (found : registry.category? name = some category) : category.name = name :=
  Named.nameOf_of_find? found

/-- A registry of one category finds no other. -/
theorem eq_of_category?_singleton {category other : Category σ φ} {name : String}
    (found : (⟨[category]⟩ : Registry σ φ).category? name = some other) : other = category := by
  rw [category?, Named.find?] at found
  exact List.mem_singleton.mp (List.mem_of_find?_eq_some found)

/-- The feature type with a name in the category with a name. -/
def type? (registry : Registry σ φ) (category name : String) : Option (FeatureType σ φ) :=
  (registry.category? category).bind fun found => found.type? name

/-- The first feature type with a name, in whichever category. -/
def findType? (registry : Registry σ φ) (name : String) : Option (FeatureType σ φ) :=
  registry.categories.findSome? fun category => category.type? name

end Registry
end PracticePlan
