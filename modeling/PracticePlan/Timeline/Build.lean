import PracticePlan.Timeline.Basic

namespace PracticePlan
namespace Timeline

/-!
# Building a timeline

The intervals are taken in their order.  Each must have a duration, must keep
the total within the limit, and must have a feature that can be made, if it
names one.  These three are looked at in this order, and the first fault ends
the building.

The total is added up exactly.  A sum that no duration can hold is over every
limit, and is reported as the longest duration.
-/

variable {σ φ : Type} [IntervalSettings σ]

/-- The total after one more duration, when it stays within the limit. -/
def extend (limits : Limits) (total duration : Duration) : Except BuildFault Duration :=
  match total.add? duration with
  | some sum =>
      if sum.nanoseconds ≤ limits.longest.nanoseconds then .ok sum
      else .error (.tooLong sum limits.longest)
  | none => .error (.tooLong .longest limits.longest)

/-- The feature type that an interval names. -/
def typeOf (registry : Registry σ φ) (row : IntervalRow σ) :
    Except BuildFault (FeatureType σ φ) :=
  match registry.category? row.categoryName with
  | none => .error (.unknownCategory row.categoryName)
  | some category => match category.type? row.featureType with
      | none => .error (.unknownType row.featureType row.categoryName)
      | some type => .ok type

def makeFeature (type : FeatureType σ φ) (row : IntervalRow σ) (index : Nat)
    (duration : Duration) : Except BuildFault φ :=
  ((Arguments.checkArity type.schema row.arguments).mapError .arguments).bind fun _ =>
    (type.make (.ofTexts type.schema row.arguments (some row.settings))
      ⟨index, duration, row.settings⟩).mapError .feature

/-- The feature of an interval, if it names one. -/
def featureOf (registry : Registry σ φ) (row : IntervalRow σ) (index : Nat)
    (duration : Duration) : Except BuildFault (Option φ) :=
  if row.hasFeature then
    (typeOf registry row).bind fun type => (makeFeature type row index duration).map some
  else .ok none

/-- The step of an interval that starts when `total` has passed, and the total
after it. -/
def stepOf (registry : Registry σ φ) (limits : Limits) (plan : Plan σ) (total : Duration)
    (index : Nat) (row : IntervalRow σ) : Except BuildFault (Step φ × Duration) :=
  ((Duration.ofText row.duration).mapError .duration).bind fun duration =>
    (extend limits total duration).bind fun after =>
      (featureOf registry row index duration).map fun feature? =>
        ({ index
           label := plan.label index
           indent := plan.indents.getD index 0
           start := total
           duration
           categoryName := row.categoryName
           feature? }, after)

/-- The steps of intervals, the first of which starts when `total` has passed,
and the total after the last. -/
def stepsFrom (registry : Registry σ φ) (limits : Limits) (plan : Plan σ) (total : Duration) :
    List (Nat × IntervalRow σ) → Except BuildError (List (Step φ) × Duration)
  | [] => .ok ([], total)
  | (index, row) :: rest =>
      match stepOf registry limits plan total index row with
      | .error fault => .error ⟨index, plan.label index, fault⟩
      | .ok (step, after) =>
          (stepsFrom registry limits plan after rest).map fun others =>
            (step :: others.1, others.2)

def ofPlan (registry : Registry σ φ) (limits : Limits) (plan : Plan σ) :
    Except BuildError (Timeline φ) :=
  (stepsFrom registry limits plan .zero plan.intervals).map fun built =>
    ⟨plan.name, built.1, built.2⟩

end Timeline
end PracticePlan
