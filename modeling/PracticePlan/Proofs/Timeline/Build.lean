import Mathlib.Algebra.Ring.Int.Defs
import Mathlib.Data.List.Forall2
import PracticePlan.Catalog.Basic
import PracticePlan.Proofs.Timeline.Step

namespace PracticePlan

/-!
# Which plans become timelines

A plan is built interval by interval, with a running total that is compared
with the limit at every interval.  Nothing of that shows in the result.  A plan
with intervals can be built exactly when each interval can be played by itself
and the exact sum of all durations is within the limit
(`exists_timeline_iff_isPlayable`).  Since durations are never negative, a sum
within the limit keeps every running total within it, too.

The sums are integers without bounds.  A limit is itself a duration, so a plan
whose sum no duration can hold is refused whatever the limit is.
-/

namespace Plan

variable {σ : Type}

/-- The numbered intervals are the interval rows, each with its position. -/
theorem mem_intervalsFrom_iff {position : Nat} {rows : List (Row σ)}
    {interval : Nat × IntervalRow σ} :
    interval ∈ intervalsFrom position rows ↔
      position ≤ interval.1 ∧ rows[interval.1 - position]? = some (.interval interval.2) := by
  induction rows generalizing position with
  | nil => exact ⟨fun member => absurd member List.not_mem_nil, fun found => nomatch found.2⟩
  | cons row rest inductionHypothesis =>
      have behind : interval ∈ intervalsFrom (position + 1) rest ↔ position < interval.1 ∧
          (row :: rest)[interval.1 - position]? = some (.interval interval.2) := by
        rw [inductionHypothesis]
        apply and_congr_right
        intro above
        have next : interval.1 - position = interval.1 - (position + 1) + 1 := by omega
        rw [next, List.getElem?_cons_succ]
      have here : interval.1 = position →
          (row :: rest)[interval.1 - position]? = some row := by
        intro same
        rw [same, Nat.sub_self]
        rfl
      cases row with
      | group row =>
          apply behind.trans
          constructor
          · rintro ⟨above, found⟩
            exact ⟨Nat.le_of_lt above, found⟩
          · rintro ⟨above, found⟩
            refine ⟨Nat.lt_of_le_of_ne above fun same => ?_, found⟩
            rw [here same.symm] at found
            cases found
      | interval row =>
          rw [intervalsFrom, List.mem_cons, behind]
          constructor
          · rintro (rfl | ⟨above, found⟩)
            · exact ⟨Nat.le_refl position, here rfl⟩
            · exact ⟨Nat.le_of_lt above, found⟩
          · rintro ⟨above, found⟩
            rcases Nat.lt_or_eq_of_le above with later | same
            · exact .inr ⟨later, found⟩
            · rw [here same.symm] at found
              exact .inl (Prod.ext same.symm (Row.interval.inj (Option.some.inj found)).symm)

theorem mem_intervals_iff {plan : Plan σ} {interval : Nat × IntervalRow σ} :
    interval ∈ plan.intervals ↔ plan.rows[interval.1]? = some (.interval interval.2) :=
  mem_intervalsFrom_iff.trans (and_iff_right (Nat.zero_le interval.1))

/-- The intervals stand in the order of the rows. -/
theorem pairwise_intervalsFrom (position : Nat) (rows : List (Row σ)) :
    (intervalsFrom position rows).Pairwise fun first second => first.1 < second.1 := by
  induction rows generalizing position with
  | nil => exact .nil
  | cons row rest inductionHypothesis =>
      cases row with
      | group row => exact inductionHypothesis (position + 1)
      | interval row =>
          refine .cons ?_ (inductionHypothesis (position + 1))
          intro other member
          exact (mem_intervalsFrom_iff.mp member).1

/-- Every interval has an indentation. -/
theorem getElem?_indents_of_mem_intervals {plan : Plan σ} {interval : Nat × IntervalRow σ}
    (member : interval ∈ plan.intervals) :
    plan.indents[interval.1]? = some (plan.indents.getD interval.1 0) := by
  have inside : interval.1 < plan.indents.length := by
    rw [indents, Nesting.length_indents, List.length_map]
    exact (List.getElem?_eq_some_iff.mp (mem_intervals_iff.mp member)).1
  rw [List.getD_eq_getElem?_getD, List.getElem?_eq_getElem inside, Option.getD_some]

end Plan

namespace Timeline

variable {σ φ : Type}

/-! ## Sums of durations -/

/-- The duration of an interval, when it can be read. -/
def duration? (interval : Nat × IntervalRow σ) : Option Duration :=
  (Duration.ofText interval.2.duration).toOption

/-- The sum of the durations of intervals in nanoseconds, without bounds. -/
def totalOf (intervals : List (Nat × IntervalRow σ)) : Int :=
  ((intervals.filterMap duration?).map Duration.nanoseconds).sum

theorem totalOf_cons {interval : Nat × IntervalRow σ} {duration : Duration}
    (read : Duration.ofText interval.2.duration = .ok duration)
    (rest : List (Nat × IntervalRow σ)) :
    totalOf (interval :: rest) = duration.nanoseconds + totalOf rest := by
  have found : duration? interval = some duration := by
    rw [duration?, read]
    rfl
  rw [totalOf, List.filterMap_cons_some found, List.map_cons, List.sum_cons]
  rfl

theorem totalOf_nonneg (intervals : List (Nat × IntervalRow σ)) : 0 ≤ totalOf intervals := by
  induction intervals with
  | nil => exact Int.le_refl 0
  | cons interval rest inductionHypothesis =>
      cases read : Duration.ofText interval.2.duration with
      | error error =>
          have missing : duration? interval = none := by
            rw [duration?, read]
            rfl
          rw [totalOf, List.filterMap_cons_none missing]
          exact inductionHypothesis
      | ok duration =>
          have positive := Duration.nonneg_of_ofText read
          rw [totalOf_cons read]
          omega

/-! ## What a timeline says of its plan -/

variable [IntervalSettings σ]

/-- An interval that can be played, whatever stands around it. -/
def IsPlayable (registry : Registry σ φ) (interval : Nat × IntervalRow σ) : Prop :=
  ∃ duration feature?, Duration.ofText interval.2.duration = .ok duration ∧
    HasFeature registry interval.1 interval.2 duration feature?

/-- A step that plays an interval of a plan. -/
structure IsStepOf (registry : Registry σ φ) (plan : Plan σ) (interval : Nat × IntervalRow σ)
    (step : Step φ) : Prop where
  index : step.index = interval.1
  label : step.label = plan.label interval.1
  indent : plan.indents[interval.1]? = some step.indent
  duration : Duration.ofText interval.2.duration = .ok step.duration
  category : step.categoryName = interval.2.categoryName
  feature : HasFeature registry interval.1 interval.2 step.duration step.feature?

/-- Steps that play intervals one after the other, the first when `total` has
passed, and the total after the last. -/
structure IsRun (registry : Registry σ φ) (plan : Plan σ) (total : Duration)
    (intervals : List (Nat × IntervalRow σ)) (built : List (Step φ) × Duration) : Prop where
  steps : List.Forall₂ (IsStepOf registry plan) intervals built.1
  starts : ∀ position step, built.1[position]? = some step →
    step.start.nanoseconds = total.nanoseconds + totalOf (intervals.take position)
  total : built.2.nanoseconds = total.nanoseconds + totalOf intervals

/-- A timeline that plays the intervals of a plan in their order, without a
break and from the start.  Every interval row has one step, and the steps stand
in the order of the rows. -/
structure IsTimelineOf (registry : Registry σ φ) (plan : Plan σ) (timeline : Timeline φ) :
    Prop where
  name : timeline.name = plan.name
  covers : ∀ index row, plan.rows[index]? = some (.interval row) →
    ∃ step ∈ timeline.steps, step.index = index
  ordered : timeline.steps.Pairwise fun first second => first.index < second.index
  steps : List.Forall₂ (IsStepOf registry plan) plan.intervals timeline.steps
  starts : ∀ position step, timeline.steps[position]? = some step →
    step.start.nanoseconds = totalOf (plan.intervals.take position)
  total : timeline.total.nanoseconds = totalOf plan.intervals

/-! ## The run -/

variable {registry : Registry σ φ} {limits : Limits} {plan : Plan σ}

theorem stepsFrom_cons_eq_ok_iff {total : Duration} {interval : Nat × IntervalRow σ}
    {rest : List (Nat × IntervalRow σ)} {built : List (Step φ) × Duration} :
    stepsFrom registry limits plan total (interval :: rest) = .ok built ↔
      ∃ step after others,
        stepOf registry limits plan total interval.1 interval.2 = .ok (step, after) ∧
        stepsFrom registry limits plan after rest = .ok others ∧
        built = (step :: others.1, others.2) := by
  rw [stepsFrom]
  constructor
  · intro run
    split at run
    · cases run
    · next step after made =>
        rcases Except.map_eq_ok_iff.mp run with ⟨others, later, same⟩
        exact ⟨step, after, others, made, later, same.symm⟩
  · rintro ⟨step, after, others, made, later, rfl⟩
    rw [made]
    exact Except.map_eq_ok_iff.mpr ⟨others, later, rfl⟩

/-- What a step adds to a run that follows it. -/
theorem IsRun.cons {total after : Duration} {interval : Nat × IntervalRow σ} {step : Step φ}
    {rest : List (Nat × IntervalRow σ)} {others : List (Step φ) × Duration}
    (member : interval ∈ plan.intervals)
    (made : stepOf registry limits plan total interval.1 interval.2 = .ok (step, after))
    (later : IsRun registry plan after rest others) :
    IsRun registry plan total (interval :: rest) (step :: others.1, others.2) := by
  rcases stepOf_eq_ok_iff.mp made with ⟨duration, feature?, read, extended, has, rfl⟩
  have sum : after.nanoseconds = total.nanoseconds + duration.nanoseconds :=
    (extend_eq_ok_iff.mp extended).1
  refine ⟨.cons ?_ later.steps, ?_, ?_⟩
  · exact ⟨rfl, rfl, Plan.getElem?_indents_of_mem_intervals member, read, rfl, has⟩
  · intro position found present
    cases position with
    | zero =>
        rw [List.getElem?_cons_zero] at present
        rw [← Option.some.inj present]
        exact (Int.add_zero _).symm
    | succ position =>
        rw [List.getElem?_cons_succ] at present
        rw [later.starts position found present, List.take_succ_cons, totalOf_cons read, sum]
        omega
  · rw [later.total, totalOf_cons read, sum]
    omega

/-- Steps that were built are a run, and none of its totals is over the limit. -/
theorem isRun_of_stepsFrom {total : Duration} {intervals : List (Nat × IntervalRow σ)}
    {built : List (Step φ) × Duration} (members : ∀ interval ∈ intervals, interval ∈ plan.intervals)
    (run : stepsFrom registry limits plan total intervals = .ok built) :
    IsRun registry plan total intervals built ∧
      (intervals ≠ [] → built.2.nanoseconds ≤ limits.longest.nanoseconds) := by
  induction intervals generalizing total built with
  | nil =>
      rw [← Except.ok.inj run]
      refine ⟨⟨.nil, ?_, (Int.add_zero _).symm⟩, fun impossible => absurd rfl impossible⟩
      intro position step impossible
      cases impossible
  | cons interval rest inductionHypothesis =>
      rcases stepsFrom_cons_eq_ok_iff.mp run with ⟨step, after, others, made, later, rfl⟩
      rcases inductionHypothesis
        (fun other member => members other (List.mem_cons_of_mem interval member)) later with
        ⟨behind, within⟩
      refine ⟨behind.cons (members interval List.mem_cons_self) made, ?_⟩
      intro _
      cases rest with
      | nil =>
          rcases stepOf_eq_ok_iff.mp made with ⟨duration, feature?, -, extended, -, -⟩
          rw [← Except.ok.inj later]
          exact (extend_eq_ok_iff.mp extended).2
      | cons next others => exact within (List.cons_ne_nil next others)

/-- Every interval of a run that was built can be played. -/
theorem isPlayable_of_stepsFrom {total : Duration} {intervals : List (Nat × IntervalRow σ)}
    {built : List (Step φ) × Duration}
    (run : stepsFrom registry limits plan total intervals = .ok built) :
    ∀ interval ∈ intervals, IsPlayable registry interval := by
  induction intervals generalizing total built with
  | nil => exact fun interval member => absurd member List.not_mem_nil
  | cons interval rest inductionHypothesis =>
      rcases stepsFrom_cons_eq_ok_iff.mp run with ⟨step, after, others, made, later, -⟩
      rcases stepOf_eq_ok_iff.mp made with ⟨duration, feature?, read, -, has, -⟩
      rw [List.forall_mem_cons]
      exact ⟨⟨duration, feature?, read, has⟩, inductionHypothesis later⟩

/-- Playable intervals whose sum is within the limit are built.  The invariant
is that the total so far and the sum of what follows are together within it, so
each total is in the range of durations. -/
theorem exists_stepsFrom {total : Duration} {intervals : List (Nat × IntervalRow σ)}
    (started : 0 ≤ total.nanoseconds)
    (playable : ∀ interval ∈ intervals, IsPlayable registry interval)
    (within : total.nanoseconds + totalOf intervals ≤ limits.longest.nanoseconds) :
    ∃ built, stepsFrom registry limits plan total intervals = .ok built := by
  induction intervals generalizing total with
  | nil => exact ⟨_, rfl⟩
  | cons interval rest inductionHypothesis =>
      rcases playable interval List.mem_cons_self with ⟨duration, feature?, read, has⟩
      have positive := Duration.nonneg_of_ofText read
      have remaining := totalOf_nonneg rest
      have largest := limits.longest.in_range.2
      rw [totalOf_cons read] at within
      let after : Duration :=
        ⟨total.nanoseconds + duration.nanoseconds, by omega, by omega⟩
      have extended : extend limits total duration = .ok after := by
        apply extend_eq_ok_iff.mpr
        constructor
        · rfl
        · change total.nanoseconds + duration.nanoseconds ≤ limits.longest.nanoseconds
          omega
      have made : ∃ step, stepOf registry limits plan total interval.1 interval.2 =
          .ok (step, after) :=
        ⟨_, stepOf_eq_ok_iff.mpr ⟨duration, feature?, read, extended, has, rfl⟩⟩
      have sum : after.nanoseconds = total.nanoseconds + duration.nanoseconds := rfl
      have behind : ∃ others, stepsFrom registry limits plan after rest = .ok others := by
        apply inductionHypothesis
        · omega
        · intro other member
          exact playable other (List.mem_cons_of_mem interval member)
        · omega
      rcases made with ⟨step, made⟩
      rcases behind with ⟨others, later⟩
      exact ⟨_, stepsFrom_cons_eq_ok_iff.mpr ⟨step, after, others, made, later, rfl⟩⟩

/-! ## The timeline -/

/-- Steps carry the numbers of their intervals. -/
theorem map_index_eq {intervals : List (Nat × IntervalRow σ)} {steps : List (Step φ)}
    (played : List.Forall₂ (IsStepOf registry plan) intervals steps) :
    steps.map Step.index = intervals.map Prod.fst := by
  induction played with
  | nil => rfl
  | cons first others inductionHypothesis =>
      rw [List.map_cons, List.map_cons, first.index, inductionHypothesis]

/-- A timeline that was built plays the plan. -/
theorem isTimelineOf_of_ofPlan {timeline : Timeline φ}
    (made : ofPlan registry limits plan = .ok timeline) : IsTimelineOf registry plan timeline := by
  rcases Except.map_eq_ok_iff.mp made with ⟨built, run, rfl⟩
  have runs := (isRun_of_stepsFrom (fun interval member => member) run).1
  have numbers := map_index_eq runs.steps
  have zero : Duration.zero.nanoseconds = 0 := rfl
  refine ⟨rfl, ?_, ?_, runs.steps, ?_, ?_⟩
  · intro index row present
    have member : (index, row) ∈ plan.intervals := Plan.mem_intervals_iff.mpr present
    have number : index ∈ built.1.map Step.index := by
      rw [numbers]
      exact List.mem_map_of_mem member
    exact List.mem_map.mp number
  · apply List.pairwise_map.mp
    rw [numbers]
    exact List.pairwise_map.mpr (Plan.pairwise_intervalsFrom 0 plan.rows)
  · intro position step present
    rw [runs.starts position step present, zero, Int.zero_add]
  · rw [runs.total, zero, Int.zero_add]

/-- The intervals of a timeline that was built can be played within the limit. -/
theorem isPlayable_of_ofPlan {timeline : Timeline φ}
    (made : ofPlan registry limits plan = .ok timeline) (some : plan.intervals ≠ []) :
    (∀ interval ∈ plan.intervals, IsPlayable registry interval) ∧
      totalOf plan.intervals ≤ limits.longest.nanoseconds := by
  have total := (isTimelineOf_of_ofPlan made).total
  rcases Except.map_eq_ok_iff.mp made with ⟨built, run, rfl⟩
  have within := (isRun_of_stepsFrom (fun interval member => member) run).2 some
  exact ⟨isPlayable_of_stepsFrom run, total ▸ within⟩

theorem exists_timeline_of_isPlayable
    (playable : ∀ interval ∈ plan.intervals, IsPlayable registry interval)
    (within : totalOf plan.intervals ≤ limits.longest.nanoseconds) :
    ∃ timeline, ofPlan registry limits plan = .ok timeline := by
  have run : ∃ built, stepsFrom registry limits plan .zero plan.intervals = .ok built := by
    apply exists_stepsFrom (Int.le_refl 0) playable
    rw [show Duration.zero.nanoseconds = 0 from rfl, Int.zero_add]
    exact within
  rcases run with ⟨built, run⟩
  exact ⟨_, Except.map_eq_ok_iff.mpr ⟨built, run, rfl⟩⟩

/-- A plan without intervals is built at once.  Any other is built exactly when
all its intervals can be played and their exact sum is within the limit.  What
is built plays the intervals in their order without a break, and a sum beyond
the range of durations is refused under every limit. -/
theorem exists_timeline_iff_isPlayable (registry : Registry σ φ) (limits : Limits)
    (plan : Plan σ) :
    ((∃ timeline, ofPlan registry limits plan = .ok timeline) ↔ plan.intervals = [] ∨
      ((∀ interval ∈ plan.intervals, IsPlayable registry interval) ∧
        totalOf plan.intervals ≤ limits.longest.nanoseconds)) ∧
    (∀ timeline, ofPlan registry limits plan = .ok timeline →
      IsTimelineOf registry plan timeline) ∧
    (Duration.longest.nanoseconds < totalOf plan.intervals →
      ∃ error, ofPlan registry limits plan = .error error) := by
  refine ⟨⟨?_, ?_⟩, fun timeline made => isTimelineOf_of_ofPlan made, ?_⟩
  · rintro ⟨timeline, made⟩
    by_cases none : plan.intervals = []
    · exact .inl none
    · exact .inr (isPlayable_of_ofPlan made none)
  · rintro (none | ⟨playable, within⟩)
    · refine ⟨⟨plan.name, [], .zero⟩, ?_⟩
      rw [ofPlan, none]
      rfl
    · exact exists_timeline_of_isPlayable playable within
  · intro beyond
    cases outcome : ofPlan registry limits plan with
    | error error => exact ⟨error, rfl⟩
    | ok timeline =>
        have bounded := timeline.total.in_range.2
        have total := (isTimelineOf_of_ofPlan outcome).total
        have longest : Duration.longest.nanoseconds =
          0x7FFFFFFFFFFFFFFF * 1000000000 + 999999999 := rfl
        omega

/-- A plan with an exercise of an hour and a half and a short rest. -/
def evening : Plan CatalogSettings :=
  ⟨"Evening", [.group ⟨1, "Changes"⟩,
    .interval ⟨"90:00", "Slowly", "Guitar", "", [], .guitar .standard⟩,
    .interval ⟨"0:01:00", "", "General", "Rest", [], .plain "General"⟩]⟩

theorem exists_timeline_evening : ∃ timeline, ofPlan Catalog.registry .standard evening =
    .ok timeline ∧ timeline.total.nanoseconds = 5460 * 1000000000 := by
  have spec := exists_timeline_iff_isPlayable Catalog.registry .standard evening
  have playable : ∀ interval ∈ evening.intervals, IsPlayable Catalog.registry interval := by
    intro interval member
    simp only [Plan.intervals, evening, Plan.intervalsFrom, List.mem_cons, List.not_mem_nil,
      or_false] at member
    rcases member with rfl | rfl
    · exact ⟨⟨5400 * 1000000000, by decide⟩, none, rfl, .nothing rfl⟩
    · refine ⟨⟨60 * 1000000000, by decide⟩, some .rest, rfl, ?_⟩
      exact featureOf_eq_ok_iff.mp rfl
  rcases spec.1.mpr (.inr ⟨playable, by decide⟩) with ⟨timeline, made⟩
  refine ⟨timeline, made, ?_⟩
  rw [(spec.2.1 timeline made).total]
  rfl

end Timeline
end PracticePlan
