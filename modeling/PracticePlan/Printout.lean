import PracticePlan.Timeline.Build

namespace PracticePlan
namespace Printout

/-!
# Printouts

Three things are printed for people: the outline of a plan, the clock of a
timeline, and the list of feature types.  Nesting is shown by two blanks a
step.  Times are set flush right in columns, whose width counts characters, and
a text that is wider than its column pushes the rest to the right.
-/

def line (text : String) : String :=
  text ++ "\n"

/-- A text at the right end of a column. -/
def flushRight (width : Nat) (text : String) : String :=
  String.ofList (Text.padLeft ' ' width text.toList)

/-- The blanks in front of a nested text. -/
def nesting (depth : UInt32) : String :=
  String.ofList (List.replicate (2 * depth.toNat) ' ')

variable {σ φ : Type}

def outlineRow (row : Row σ) (indent : UInt32) : String :=
  match row with
  | .group group =>
      line (nesting indent ++ String.ofList (List.replicate group.level.toNat '#') ++ " " ++
        group.name)
  | .interval interval =>
      line (nesting indent ++ flushRight 7 interval.duration ++ "  " ++ interval.task ++
        (if interval.hasFeature then
          " (" ++ interval.categoryName ++ "/" ++ interval.featureType ++ ")"
        else ""))

/-- The rows of a plan, nested, after its name if it has one. -/
def outline (plan : Plan σ) : String :=
  let head := if plan.name.isEmpty then "" else line plan.name
  head ++ String.join (List.zipWith outlineRow plan.rows plan.indents)

variable [Feature φ]

def timelineStep (step : Step φ) : String :=
  line (flushRight 8 step.start.toText ++ "  " ++ flushRight 7 step.duration.toText ++ "  " ++
    nesting step.indent ++ step.summary)

/-- The steps of a timeline and the total. -/
def timeline (timeline : Timeline φ) : String :=
  String.join (timeline.steps.map timelineStep) ++ line ("total " ++ timeline.total.toText)

/-- The kind of value that an argument has. -/
def valueKind (spec : ArgSpec) : String :=
  match spec.baseType with
  | .text => "text"
  | .number => "number"
  | .boolean => "true|false"
  | .choice => Text.joined "|" spec.labels
  | .block => "settings"

/-- An argument in a list of feature types. -/
def argument (spec : ArgSpec) : String :=
  spec.name ++ ": " ++ valueKind spec ++ (if spec.isVariadic then "..." else "")

def featureType (type : FeatureType σ φ) : String :=
  line ("  " ++ type.name ++ "(" ++ Text.joined ", " (type.schema.map argument) ++ ")")

/-- A category in a list, followed by its feature types. -/
def category (category : Category σ φ) : String :=
  line category.displayName ++ String.join (category.types.map featureType)

/-- All categories, or the one with a name. -/
def features? (registry : Registry σ φ) (only : Option String) : Option String :=
  match only with
  | none => some (String.join (registry.categories.map category))
  | some name => (registry.category? name).map category

/-- The wording of the refusal of an unknown category. -/
def unknownCategory (name : String) : String :=
  "unknown category " ++ Text.quoted name

end Printout
end PracticePlan
