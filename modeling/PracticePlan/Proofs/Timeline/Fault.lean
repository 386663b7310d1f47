import PracticePlan.Proofs.Timeline.Step

namespace PracticePlan

/-!
# The first fault of an interval

Several things may be wrong with one interval.  Faults are looked for in six
turns, and what is reported is the fault of the earliest turn
(`Timeline.stepOf_eq_error_iff`).  `HasFault` says of each fault when an interval has
it, without regard to the others: an interval whose duration cannot be read may
at the same time name an unknown category.

What an interval does not name cannot be wrong with it.  Without a feature type
only the duration and the total are left.
-/

namespace BuildFault

/-- The turn in which a fault is looked for. -/
def turn : BuildFault → Nat
  | duration _ => 0
  | tooLong _ _ => 1
  | unknownCategory _ => 2
  | unknownType _ _ => 3
  | arguments _ => 4
  | feature _ => 5

theorem turn_le_five (fault : BuildFault) : fault.turn ≤ 5 := by
  cases fault <;> simp [turn]

end BuildFault

namespace Timeline

variable {σ φ : Type} [IntervalSettings σ]

/-- A fault that an interval has when `passed` nanoseconds have gone by before
it.  A total that no duration can hold is told as the longest duration. -/
inductive HasFault (registry : Registry σ φ) (limits : Limits) (passed : Int) (index : Nat)
    (row : IntervalRow σ) : BuildFault → Prop
  | duration {error : DurationError} (refused : Duration.ofText row.duration = .error error) :
      HasFault registry limits passed index row (.duration error)
  | tooLong {duration told : Duration} (read : Duration.ofText row.duration = .ok duration)
      (exceeded : limits.longest.nanoseconds < passed + duration.nanoseconds)
      (exactOrLongest : told.nanoseconds =
        min (passed + duration.nanoseconds) Duration.longest.nanoseconds) :
      HasFault registry limits passed index row (.tooLong told limits.longest)
  | unknownCategory (named : row.hasFeature = true)
      (absent : registry.category? row.categoryName = none) :
      HasFault registry limits passed index row (.unknownCategory row.categoryName)
  | unknownType {category : Category σ φ} (named : row.hasFeature = true)
      (registered : registry.category? row.categoryName = some category)
      (absent : category.type? row.featureType = none) :
      HasFault registry limits passed index row (.unknownType row.featureType row.categoryName)
  | arguments {category : Category σ φ} {type : FeatureType σ φ} {error : ArityError}
      (named : row.hasFeature = true)
      (registered : registry.category? row.categoryName = some category)
      (offered : category.type? row.featureType = some type)
      (surplus : Arguments.checkArity type.schema row.arguments = .error error) :
      HasFault registry limits passed index row (.arguments error)
  | feature {category : Category σ φ} {type : FeatureType σ φ} {duration : Duration}
      {explanation : String} (named : row.hasFeature = true)
      (registered : registry.category? row.categoryName = some category)
      (offered : category.type? row.featureType = some type)
      (read : Duration.ofText row.duration = .ok duration)
      (refused : type.make (.ofTexts type.schema row.arguments (some row.settings))
        ⟨index, duration, row.settings⟩ = .error explanation) :
      HasFault registry limits passed index row (.feature explanation)

/-- The fault of an interval whose turn comes first. -/
structure IsFirstFault (registry : Registry σ φ) (limits : Limits) (passed : Int) (index : Nat)
    (row : IntervalRow σ) (fault : BuildFault) : Prop where
  present : HasFault registry limits passed index row fault
  first : ∀ other, HasFault registry limits passed index row other → fault.turn ≤ other.turn

variable {registry : Registry σ φ} {limits : Limits} {passed : Int} {index : Nat}
  {row : IntervalRow σ} {fault : BuildFault}

/-- An interval has at most one fault in each turn. -/
theorem HasFault.eq_of_turn_eq {other : BuildFault}
    (has : HasFault registry limits passed index row fault)
    (also : HasFault registry limits passed index row other) (same : fault.turn = other.turn) :
    fault = other := by
  cases has <;> cases also <;> cases same
  case duration.duration.refl refused _ again =>
    rw [Except.error.inj (refused.symm.trans again)]
  case tooLong.tooLong.refl duration told read _ exact _ _ again _ exactAgain =>
    rw [Except.ok.inj (read.symm.trans again), ← exactAgain] at exact
    rw [Duration.eq_of_nanoseconds exact]
  case unknownCategory.unknownCategory.refl => rfl
  case unknownType.unknownType.refl => rfl
  case arguments.arguments.refl _ registered offered surplus _ _ _ _ again also surplusAgain =>
    rcases Option.some.inj (registered.symm.trans again) with rfl
    rcases Option.some.inj (offered.symm.trans also) with rfl
    rw [Except.error.inj (surplus.symm.trans surplusAgain)]
  case feature.feature.refl _ registered offered read refused _ _ _ _ _ again also readAgain
      refusedAgain =>
    rcases Option.some.inj (registered.symm.trans again) with rfl
    rcases Option.some.inj (offered.symm.trans also) with rfl
    rcases Except.ok.inj (read.symm.trans readAgain) with rfl
    rw [Except.error.inj (refused.symm.trans refusedAgain)]

/-- An interval has at most one first fault. -/
theorem IsFirstFault.unique {other : BuildFault}
    (isFirst : IsFirstFault registry limits passed index row fault)
    (also : IsFirstFault registry limits passed index row other) : fault = other :=
  isFirst.present.eq_of_turn_eq also.present
    (Nat.le_antisymm (isFirst.first other also.present) (also.first fault isFirst.present))

/-! ## What keeps a turn free of faults -/

section Turns

variable {duration : Duration} {category : Category σ φ} {type : FeatureType σ φ}

theorem HasFault.turn_ne_zero (has : HasFault registry limits passed index row fault)
    (read : Duration.ofText row.duration = .ok duration) : fault.turn ≠ 0 := by
  cases has with
  | duration refused => cases read.symm.trans refused
  | _ => simp [BuildFault.turn]

theorem HasFault.turn_ne_one (has : HasFault registry limits passed index row fault)
    (read : Duration.ofText row.duration = .ok duration)
    (within : passed + duration.nanoseconds ≤ limits.longest.nanoseconds) : fault.turn ≠ 1 := by
  cases has with
  | tooLong again exceeded exactOrLongest =>
      rw [Except.ok.inj (read.symm.trans again)] at within
      exact absurd exceeded (Int.not_lt.mpr within)
  | _ => simp [BuildFault.turn]

theorem HasFault.turn_ne_two (has : HasFault registry limits passed index row fault)
    (registered : registry.category? row.categoryName = some category) : fault.turn ≠ 2 := by
  cases has with
  | unknownCategory named absent => cases registered.symm.trans absent
  | _ => simp [BuildFault.turn]

theorem HasFault.turn_ne_three (has : HasFault registry limits passed index row fault)
    (registered : registry.category? row.categoryName = some category)
    (offered : category.type? row.featureType = some type) : fault.turn ≠ 3 := by
  cases has with
  | unknownType named again absent =>
      rcases Option.some.inj (registered.symm.trans again) with rfl
      cases offered.symm.trans absent
  | _ => simp [BuildFault.turn]

theorem HasFault.turn_ne_four (has : HasFault registry limits passed index row fault)
    (registered : registry.category? row.categoryName = some category)
    (offered : category.type? row.featureType = some type)
    (fitting : Arguments.checkArity type.schema row.arguments = .ok ()) : fault.turn ≠ 4 := by
  cases has with
  | arguments named again also surplus =>
      rcases Option.some.inj (registered.symm.trans again) with rfl
      rcases Option.some.inj (offered.symm.trans also) with rfl
      cases fitting.symm.trans surplus
  | _ => simp [BuildFault.turn]

theorem HasFault.turn_ne_five (has : HasFault registry limits passed index row fault)
    (read : Duration.ofText row.duration = .ok duration)
    (registered : registry.category? row.categoryName = some category)
    (offered : category.type? row.featureType = some type) {feature : φ}
    (success : type.make (.ofTexts type.schema row.arguments (some row.settings))
      ⟨index, duration, row.settings⟩ = .ok feature) : fault.turn ≠ 5 := by
  cases has with
  | feature named again also readAgain refused =>
      rcases Option.some.inj (registered.symm.trans again) with rfl
      rcases Option.some.inj (offered.symm.trans also) with rfl
      rcases Except.ok.inj (read.symm.trans readAgain) with rfl
      cases success.symm.trans refused
  | _ => simp [BuildFault.turn]

end Turns

/-- Without a feature type only the duration and the total can be wrong. -/
theorem HasFault.turn_le_one (has : HasFault registry limits passed index row fault)
    (unnamed : row.hasFeature = false) : fault.turn ≤ 1 := by
  cases has with
  | duration refused => exact Nat.zero_le 1
  | tooLong read exceeded exactOrLongest => exact Nat.le_refl 1
  | unknownCategory named => cases unnamed.symm.trans named
  | unknownType named => cases unnamed.symm.trans named
  | arguments named => cases unnamed.symm.trans named
  | feature named => cases unnamed.symm.trans named

/-! ## What a step reports -/

/-- A total is refused when the exact sum is over the limit. -/
theorem exists_tooLong_of_extend {total duration : Duration}
    (started : 0 ≤ total.nanoseconds + duration.nanoseconds)
    (failed : extend limits total duration = .error fault) :
    limits.longest.nanoseconds < total.nanoseconds + duration.nanoseconds ∧
      ∃ told : Duration, told.nanoseconds =
          min (total.nanoseconds + duration.nanoseconds) Duration.longest.nanoseconds ∧
        fault = .tooLong told limits.longest := by
  have longest : Duration.longest.nanoseconds = 0x7FFFFFFFFFFFFFFF * 1000000000 + 999999999 := rfl
  have limit := limits.longest.in_range.2
  unfold extend at failed
  split at failed
  · next sum found =>
      have exactSum := Duration.ofNanoseconds?_eq_some_iff.mp found
      have bounded := sum.in_range.2
      split at failed
      · cases failed
      · exact ⟨by omega, sum, by omega, (Except.error.inj failed).symm⟩
  · next missing =>
      have beyond : Duration.longest.nanoseconds < total.nanoseconds + duration.nanoseconds := by
        apply Int.not_le.mp
        intro within
        have inside : total.add? duration =
            some ⟨total.nanoseconds + duration.nanoseconds, by omega, by omega⟩ :=
          Duration.ofNanoseconds?_eq_some_iff.mpr rfl
        cases inside.symm.trans missing
      exact ⟨by omega, .longest, by omega, (Except.error.inj failed).symm⟩

/-- A step that is made has no fault in any turn. -/
theorem not_hasFault_of_stepOf {plan : Plan σ} {total : Duration} {made : Step φ × Duration}
    (outcome : stepOf registry limits plan total index row = .ok made) :
    ¬HasFault registry limits total.nanoseconds index row fault := by
  rcases stepOf_eq_ok_iff.mp outcome with ⟨duration, feature?, read, extended, has, -⟩
  rcases extend_eq_ok_iff.mp extended with ⟨exactSum, within⟩
  intro faulty
  have notZero := faulty.turn_ne_zero read
  have notOne := faulty.turn_ne_one read (exactSum ▸ within)
  cases has with
  | nothing unnamed =>
      have early := faulty.turn_le_one unnamed
      omega
  | made named registered offered fitting success =>
      have notTwo := faulty.turn_ne_two registered
      have notThree := faulty.turn_ne_three registered offered
      have notFour := faulty.turn_ne_four registered offered fitting
      have notFive := faulty.turn_ne_five read registered offered success
      have last := fault.turn_le_five
      omega

section Late

variable (late : ∀ other, HasFault registry limits passed index row other → 2 ≤ other.turn)
include late

/-- A type that is not found is the first fault, unless there was one before. -/
theorem isFirstFault_of_typeOf (named : row.hasFeature = true)
    (failed : typeOf registry row = .error fault) :
    IsFirstFault registry limits passed index row fault := by
  unfold typeOf at failed
  split at failed
  · next absent =>
      rw [← Except.error.inj failed]
      exact ⟨.unknownCategory named absent, late⟩
  · next category registered =>
      split at failed
      · next absent =>
          rw [← Except.error.inj failed]
          refine ⟨.unknownType named registered absent, fun other has => ?_⟩
          exact Nat.lt_of_le_of_ne (late other has) (has.turn_ne_two registered).symm
      · cases failed

/-- Arguments that do not fit their type and a maker that fails are the first
fault in this order, unless there was one before. -/
theorem isFirstFault_of_makeFeature {duration : Duration}
    (read : Duration.ofText row.duration = .ok duration) (named : row.hasFeature = true)
    {type : FeatureType σ φ} (known : typeOf registry row = .ok type)
    (failed : makeFeature type row index duration = .error fault) :
    IsFirstFault registry limits passed index row fault := by
  rcases typeOf_eq_ok_iff.mp known with ⟨category, registered, offered⟩
  have later : ∀ other, HasFault registry limits passed index row other → 4 ≤ other.turn := by
    intro other has
    have notEarly := late other has
    have notTwo := has.turn_ne_two registered
    have notThree := has.turn_ne_three registered offered
    omega
  rcases Except.bind_eq_error_iff.mp failed with surplus | ⟨_, fits, refused⟩
  · rcases Except.mapError_eq_error_iff.mp surplus with ⟨error, cause, rfl⟩
    exact ⟨.arguments named registered offered cause, later⟩
  · have fitting := Except.mapError_eq_ok_iff.mp fits
    rcases Except.mapError_eq_error_iff.mp refused with ⟨explanation, cause, rfl⟩
    refine ⟨.feature named registered offered read cause, fun other has => ?_⟩
    exact Nat.lt_of_le_of_ne (later other has)
      (has.turn_ne_four registered offered fitting).symm

end Late

/-- A feature that cannot be made is a fault of one of the last four turns, the
first of them in which there is one. -/
theorem isFirstFault_of_featureOf {duration : Duration}
    (read : Duration.ofText row.duration = .ok duration)
    (within : passed + duration.nanoseconds ≤ limits.longest.nanoseconds)
    (failed : featureOf registry row index duration = .error fault) :
    IsFirstFault registry limits passed index row fault := by
  have late : ∀ other, HasFault registry limits passed index row other → 2 ≤ other.turn := by
    intro other has
    have notZero := has.turn_ne_zero read
    have notOne := has.turn_ne_one read within
    omega
  unfold featureOf at failed
  split at failed
  · next named =>
      rcases Except.bind_eq_error_iff.mp failed with unknown | ⟨type, known, rest⟩
      · exact isFirstFault_of_typeOf late named unknown
      · exact isFirstFault_of_makeFeature late read named known (Except.map_eq_error_iff.mp rest)
  · cases failed

theorem isFirstFault_of_stepOf {plan : Plan σ} {total : Duration}
    (started : 0 ≤ total.nanoseconds)
    (failed : stepOf registry limits plan total index row = .error fault) :
    IsFirstFault registry limits total.nanoseconds index row fault := by
  rcases Except.bind_eq_error_iff.mp failed with refused | ⟨duration, known, rest⟩
  · rcases Except.mapError_eq_error_iff.mp refused with ⟨error, cause, rfl⟩
    exact ⟨.duration cause, fun other _ => Nat.zero_le other.turn⟩
  · have read := Except.mapError_eq_ok_iff.mp known
    have positive := Duration.nonneg_of_ofText read
    rcases Except.bind_eq_error_iff.mp rest with refused | ⟨after, extended, last⟩
    · rcases exists_tooLong_of_extend (by omega) refused with ⟨exceeded, told, exact, rfl⟩
      refine ⟨.tooLong read exceeded exact, fun other has => ?_⟩
      exact Nat.one_le_iff_ne_zero.mpr (has.turn_ne_zero read)
    · rcases extend_eq_ok_iff.mp extended with ⟨sum, within⟩
      exact isFirstFault_of_featureOf read (sum ▸ within) (Except.map_eq_error_iff.mp last)

/-- A step fails with the first fault of its interval. -/
theorem stepOf_eq_error_iff {plan : Plan σ} {total : Duration} (started : 0 ≤ total.nanoseconds) :
    stepOf registry limits plan total index row = .error fault ↔
      IsFirstFault registry limits total.nanoseconds index row fault := by
  constructor
  · exact isFirstFault_of_stepOf started
  · intro isFirst
    cases outcome : stepOf registry limits plan total index row with
    | ok made => exact absurd isFirst.present (not_hasFault_of_stepOf outcome)
    | error other => rw [(isFirstFault_of_stepOf started outcome).unique isFirst]

end Timeline
end PracticePlan
