import PracticePlan.Settings.Basic

namespace PracticePlan

/-!
# Rows of a plan

A plan is a flat list of rows.  A group row opens a section at a level.  An
interval row is something to do for a while.

The fields of an interval are kept as they were written.  The duration is a
text, the feature type is a name that no registry needs to know, and the
arguments are positional texts.  Whether they make sense is decided when a
timeline is built, so that a plan can be edited while it does not.
-/

/-- The head of a section. -/
structure GroupRow where
  level : UInt32
  name : String
deriving DecidableEq, Repr

/-- Something to do for a while. -/
structure IntervalRow (σ : Type) where
  duration : String
  task : String
  categoryName : String
  featureType : String
  arguments : List String
  settings : σ

/-- A row of a plan. -/
inductive Row (σ : Type) where
  | group (row : GroupRow)
  | interval (row : IntervalRow σ)

namespace GroupRow

/-- A group row.  Levels start at one. -/
def make? (level : UInt32) (name : String) : Option GroupRow :=
  if level = 0 then none else some ⟨level, name⟩

/-- The wording of the refusal of level zero. -/
def levelFault : String :=
  "validation failed: group level must be at least 1"

end GroupRow

variable {σ : Type} [IntervalSettings σ]

namespace IntervalRow

/-- The duration of an interval for which none was written. -/
def standardDuration : String :=
  "0:00"

/-- An interval with settings and nothing else. -/
def ofSettings (settings : σ) : IntervalRow σ :=
  ⟨standardDuration, "", IntervalSettings.category settings, "", [], settings⟩

def hasFeature (row : IntervalRow σ) : Bool :=
  !row.featureType.isEmpty

/-- Equality of intervals, with settings compared by their JSON form. -/
def same (first second : IntervalRow σ) : Bool :=
  first.duration == second.duration && first.task == second.task &&
    first.categoryName == second.categoryName && first.featureType == second.featureType &&
    first.arguments == second.arguments && IntervalSettings.same first.settings second.settings

end IntervalRow

namespace Row

/-- The group row, if the row is one. -/
def group? : Row σ → Option GroupRow
  | group row => some row
  | interval _ => none

/-- The interval row, if the row is one. -/
def interval? : Row σ → Option (IntervalRow σ)
  | interval row => some row
  | group _ => none

def level? (row : Row σ) : Option UInt32 :=
  row.group?.map GroupRow.level

def same : Row σ → Row σ → Bool
  | group first, group second => first == second
  | interval first, interval second => first.same second
  | _, _ => false

def sameAll : List (Row σ) → List (Row σ) → Bool
  | [], [] => true
  | first :: firsts, second :: seconds => first.same second && sameAll firsts seconds
  | _, _ => false

end Row
end PracticePlan
