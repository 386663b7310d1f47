import PracticePlan.Proofs.Duration.Reading
import PracticePlan.Proofs.Outcome
import PracticePlan.Timeline.Build

namespace PracticePlan

/-!
# One step of a timeline

Building looks at the intervals one after the other.  What one interval
contributes depends on the intervals before it only through the time that has
passed, so a step is described completely by `stepOf_eq_ok_iff`: a duration can
be read, the total after it is an exact sum within the limit, and there is a
feature if one is named.  As no text is read as a negative duration, the time
that has passed never decreases.
-/

namespace Timeline

variable {σ φ : Type}

/-! ## The total -/

/-- The total is extended by exact addition, and only within the limit. -/
theorem extend_eq_ok_iff {limits : Limits} {total duration after : Duration} :
    extend limits total duration = .ok after ↔
      after.nanoseconds = total.nanoseconds + duration.nanoseconds ∧
        after.nanoseconds ≤ limits.longest.nanoseconds := by
  unfold extend
  constructor
  · intro extended
    split at extended
    · next sum found =>
        split at extended
        · next within =>
            rw [← Except.ok.inj extended]
            exact ⟨Duration.ofNanoseconds?_eq_some_iff.mp found, within⟩
        · cases extended
    · cases extended
  · rintro ⟨exactSum, within⟩
    have found : total.add? duration = some after :=
      Duration.ofNanoseconds?_eq_some_iff.mpr exactSum
    rw [found]
    exact if_pos within

/-! ## The feature -/

variable {registry : Registry σ φ} {row : IntervalRow σ} {index : Nat}

theorem typeOf_eq_ok_iff {type : FeatureType σ φ} :
    typeOf registry row = .ok type ↔
      ∃ category, registry.category? row.categoryName = some category ∧
        category.type? row.featureType = some type := by
  unfold typeOf
  constructor
  · intro found
    split at found
    · cases found
    · next category registered =>
        split at found
        · cases found
        · next offered => exact ⟨category, registered, Except.ok.inj found ▸ offered⟩
  · rintro ⟨category, registered, offered⟩
    rw [registered]
    dsimp only
    rw [offered]

variable [IntervalSettings σ]

/-- What an interval has for a feature.  It has none when it names none, and
otherwise one that a registered type has made of its arguments. -/
inductive HasFeature (registry : Registry σ φ) (index : Nat) (row : IntervalRow σ)
    (duration : Duration) : Option φ → Prop
  | nothing (unnamed : row.hasFeature = false) : HasFeature registry index row duration none
  | made {category : Category σ φ} {type : FeatureType σ φ} {feature : φ}
      (named : row.hasFeature = true)
      (registered : registry.category? row.categoryName = some category)
      (offered : category.type? row.featureType = some type)
      (fitting : Arguments.checkArity type.schema row.arguments = .ok ())
      (success : type.make (.ofTexts type.schema row.arguments (some row.settings))
        ⟨index, duration, row.settings⟩ = .ok feature) :
      HasFeature registry index row duration (some feature)

theorem makeFeature_eq_ok_iff {type : FeatureType σ φ} {duration : Duration} {feature : φ} :
    makeFeature type row index duration = .ok feature ↔
      Arguments.checkArity type.schema row.arguments = .ok () ∧
        type.make (.ofTexts type.schema row.arguments (some row.settings))
          ⟨index, duration, row.settings⟩ = .ok feature := by
  simp only [makeFeature, Except.bind_eq_ok_iff, Except.mapError_eq_ok_iff]
  constructor
  · rintro ⟨_, fitting, success⟩
    exact ⟨fitting, success⟩
  · rintro ⟨fitting, success⟩
    exact ⟨(), fitting, success⟩

theorem featureOf_eq_ok_iff {duration : Duration} {feature? : Option φ} :
    featureOf registry row index duration = .ok feature? ↔
      HasFeature registry index row duration feature? := by
  unfold featureOf
  constructor
  · intro found
    split at found
    · next named =>
        rcases Except.bind_eq_ok_iff.mp found with ⟨type, known, rest⟩
        rcases Except.map_eq_ok_iff.mp rest with ⟨feature, outcome, rfl⟩
        rcases typeOf_eq_ok_iff.mp known with ⟨category, registered, offered⟩
        rcases makeFeature_eq_ok_iff.mp outcome with ⟨fitting, success⟩
        exact .made named registered offered fitting success
    · next unnamed =>
        rw [← Except.ok.inj found]
        exact .nothing (Bool.eq_false_iff.mpr unnamed)
  · intro has
    cases has with
    | nothing unnamed => rw [unnamed, if_neg Bool.false_ne_true]
    | made named registered offered fitting success =>
        have known := typeOf_eq_ok_iff.mpr ⟨_, registered, offered⟩
        have outcome := makeFeature_eq_ok_iff.mpr ⟨fitting, success⟩
        rw [if_pos named]
        exact Except.bind_eq_ok_iff.mpr
          ⟨_, known, Except.map_eq_ok_iff.mpr ⟨_, outcome, rfl⟩⟩

/-! ## The step -/

/-- All that makes a step: a duration, a total within the limit and a feature. -/
theorem stepOf_eq_ok_iff {limits : Limits} {plan : Plan σ} {total : Duration} {step : Step φ}
    {after : Duration} :
    stepOf registry limits plan total index row = .ok (step, after) ↔
      ∃ duration feature?, Duration.ofText row.duration = .ok duration ∧
        extend limits total duration = .ok after ∧
        HasFeature registry index row duration feature? ∧
        step = ⟨index, plan.label index, plan.indents.getD index 0, total, duration,
          row.categoryName, feature?⟩ := by
  unfold stepOf
  constructor
  · intro made
    rcases Except.bind_eq_ok_iff.mp made with ⟨duration, read, rest⟩
    rcases Except.bind_eq_ok_iff.mp rest with ⟨sum, extended, last⟩
    rcases Except.map_eq_ok_iff.mp last with ⟨feature?, found, pair⟩
    rcases Prod.mk.inj pair with ⟨sameStep, sameSum⟩
    exact ⟨duration, feature?, Except.mapError_eq_ok_iff.mp read, sameSum ▸ extended,
      featureOf_eq_ok_iff.mp found, sameStep.symm⟩
  · rintro ⟨duration, feature?, read, extended, has, rfl⟩
    apply Except.bind_eq_ok_iff.mpr
    refine ⟨duration, Except.mapError_eq_ok_iff.mpr read, ?_⟩
    apply Except.bind_eq_ok_iff.mpr
    refine ⟨after, extended, ?_⟩
    exact Except.map_eq_ok_iff.mpr ⟨feature?, featureOf_eq_ok_iff.mpr has, rfl⟩

end Timeline
end PracticePlan
