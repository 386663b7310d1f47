import PracticePlan.Arguments.Positional
import PracticePlan.Plan.Basic
import PracticePlan.Registry.Basic

namespace PracticePlan

/-!
# Timelines

A timeline is a plan that can be played.  Its steps are the intervals of the
plan in their order, each with its duration as a number, the time at which it
starts, and its feature, if it names one.

A plan that cannot be played is refused as a whole.  The error names the row
that is at fault, by its position and its label, and the cause.
-/

/-- How long a plan may be. -/
structure Limits where
  longest : Duration

/-- One interval of a timeline. -/
structure Step (φ : Type) where
  index : Nat
  label : String
  indent : UInt32
  start : Duration
  duration : Duration
  categoryName : String
  feature? : Option φ

/-- A plan that can be played. -/
structure Timeline (φ : Type) where
  name : String
  steps : List (Step φ)
  total : Duration

/-- What is wrong with a row. -/
inductive BuildFault where
  | duration (error : DurationError)
  | tooLong (total : Duration) (limit : Duration)
  | unknownCategory (name : String)
  | unknownType (name : String) (category : String)
  | arguments (error : ArityError)
  | feature (explanation : String)

/-- What is wrong, and with which row. -/
structure BuildError where
  index : Nat
  label : String
  fault : BuildFault

namespace Limits

def ofMinutes (minutes : UInt32) : Limits :=
  ⟨.ofMinutes minutes⟩

def standard : Limits :=
  ofMinutes 180

end Limits

namespace Step

variable {φ : Type} [Feature φ]

/-- The label and, in brackets, what the feature says about itself. -/
def summary (step : Step φ) : String :=
  match step.feature? with
  | some feature => step.label ++ " [" ++ Feature.summary feature ++ "]"
  | none => step.label

end Step

namespace BuildFault

def message : BuildFault → String
  | duration error => error.message
  | tooLong total limit =>
      "total duration " ++ total.toText ++ " exceeds the limit of " ++ limit.toText
  | unknownCategory name => "unknown category " ++ Text.quoted name
  | unknownType name category =>
      "unknown feature type " ++ Text.quoted name ++ " in " ++ category
  | arguments error => error.message
  | feature explanation => explanation

end BuildFault

namespace BuildError

def message (error : BuildError) : String :=
  error.label ++ " (row " ++ String.ofList (Text.digitsOf error.index) ++ "): " ++
    error.fault.message

end BuildError
end PracticePlan
