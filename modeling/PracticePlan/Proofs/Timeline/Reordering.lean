import Mathlib.Algebra.BigOperators.Group.List.Basic
import PracticePlan.Proofs.Catalog.Features
import PracticePlan.Proofs.Duration.Reading
import PracticePlan.Proofs.Plan.Moves
import PracticePlan.Proofs.Timeline.Build

namespace PracticePlan

/-!
# Rows in another order

While a timeline is built the total is compared with the limit at every interval,
so that the totals compared depend on the order of the rows.  The outcome does
not.  Durations are never negative, the last total is therefore the largest, and
it is the same in every order.  A feature may be told the position of its row, and
none of the catalog looks at it (`Catalog.ignoresPosition`).

What remains of a step when its place is left out is its `content`.  Plans with the
same rows in any order are both built or both refused, with one total and the same
contents (`exists_timeline_of_perm`, `perm_content`).
-/

namespace Plan

variable {σ : Type}

theorem map_snd_intervalsFrom (position : Nat) (rows : List (Row σ)) :
    (intervalsFrom position rows).map Prod.snd = rows.filterMap Row.interval? := by
  induction rows generalizing position with
  | nil => rfl
  | cons row rest inductionHypothesis =>
      cases row with
      | group row => exact inductionHypothesis (position + 1)
      | interval row => exact congrArg (List.cons row) (inductionHypothesis (position + 1))

/-- The same rows in another order have the same intervals in another order. -/
theorem perm_intervals {first second : Plan σ} (same : first.rows.Perm second.rows) :
    (first.intervals.map Prod.snd).Perm (second.intervals.map Prod.snd) := by
  rw [intervals, intervals, map_snd_intervalsFrom, map_snd_intervalsFrom]
  exact same.filterMap Row.interval?

end Plan

namespace Step

variable {φ : Type}

/-- What a step plays, wherever it stands: its duration, its category and its feature. -/
def content (step : Step φ) : Duration × String × Option φ :=
  (step.duration, step.categoryName, step.feature?)

end Step

namespace Timeline

variable {σ φ : Type} [IntervalSettings σ] {registry : Registry σ φ} {limits : Limits}
  {first second plan : Plan σ}

/-! ## The position of a row -/

/-- A registry whose features are the same wherever a row stands. -/
def IgnoresPosition (registry : Registry σ φ) : Prop :=
  ∀ (index other : Nat) (row : IntervalRow σ) (duration : Duration) (feature? : Option φ),
    HasFeature registry index row duration feature? →
      HasFeature registry other row duration feature?

/-- What the step of an interval has for content, when it can be played. -/
def contentOf? (registry : Registry σ φ) (row : IntervalRow σ) :
    Option (Duration × String × Option φ) :=
  (Duration.ofText row.duration).toOption.bind fun duration =>
    (featureOf registry row 0 duration).toOption.map fun feature? =>
      (duration, row.categoryName, feature?)

theorem contentOf?_of_isStepOf (ignores : IgnoresPosition registry)
    {interval : Nat × IntervalRow σ} {step : Step φ}
    (plays : IsStepOf registry plan interval step) :
    contentOf? registry interval.2 = some step.content := by
  have atStart := featureOf_eq_ok_iff.mpr (ignores interval.1 0 _ _ _ plays.feature)
  rw [contentOf?, plays.duration, Except.toOption, Option.bind_some, atStart, Except.toOption,
    Option.map_some, Step.content, plays.category]

/-- The contents of a timeline are found row by row. -/
theorem map_content (ignores : IgnoresPosition registry)
    {intervals : List (Nat × IntervalRow σ)} {steps : List (Step φ)}
    (played : List.Forall₂ (IsStepOf registry plan) intervals steps) :
    steps.map Step.content = (intervals.map Prod.snd).filterMap (contentOf? registry) := by
  induction played with
  | nil => rfl
  | cons head _ inductionHypothesis =>
      rw [List.map_cons, List.map_cons, inductionHypothesis,
        List.filterMap_cons_some (contentOf?_of_isStepOf ignores head)]

/-! ## Plans with the same rows -/

omit [IntervalSettings σ] in
theorem totalOf_eq_of_perm (same : first.rows.Perm second.rows) :
    totalOf first.intervals = totalOf second.intervals := by
  have byRows (plan : Plan σ) : totalOf plan.intervals = (((plan.intervals.map Prod.snd).filterMap
      fun row => (Duration.ofText row.duration).toOption).map Duration.nanoseconds).sum := by
    rw [List.filterMap_map]
    rfl
  rw [byRows, byRows]
  exact (((Plan.perm_intervals same).filterMap _).map _).sum_eq

theorem isPlayable_of_perm (ignores : IgnoresPosition registry)
    (same : first.rows.Perm second.rows)
    (playable : ∀ interval ∈ first.intervals, IsPlayable registry interval)
    {interval : Nat × IntervalRow σ} (member : interval ∈ second.intervals) :
    IsPlayable registry interval := by
  have elsewhere : interval.2 ∈ first.intervals.map Prod.snd :=
    (Plan.perm_intervals same).mem_iff.mpr (List.mem_map_of_mem member)
  rcases List.mem_map.mp elsewhere with ⟨other, present, row⟩
  rcases playable other present with ⟨duration, feature?, read, has⟩
  rw [row] at read has
  exact ⟨duration, feature?, read, ignores _ _ _ _ _ has⟩

theorem exists_timeline_of_perm (ignores : IgnoresPosition registry)
    (same : first.rows.Perm second.rows)
    (made : ∃ timeline, ofPlan registry limits first = .ok timeline) :
    ∃ timeline, ofPlan registry limits second = .ok timeline := by
  rcases made with ⟨timeline, made⟩
  by_cases none : first.intervals = []
  · -- Nothing is compared with the limit here, which might be negative.
    have empty : second.intervals = [] := by
      have length := (Plan.perm_intervals same).length_eq
      rw [List.length_map, List.length_map, none] at length
      exact List.eq_nil_of_length_eq_zero length.symm
    exact ⟨_, by rw [ofPlan, empty]; rfl⟩
  · have played := isPlayable_of_ofPlan made none
    refine exists_timeline_of_isPlayable
      (fun interval member => isPlayable_of_perm ignores same played.1 member) ?_
    rw [← totalOf_eq_of_perm same]
    exact played.2

theorem total_eq_of_perm (same : first.rows.Perm second.rows) {one other : Timeline φ}
    (made : ofPlan registry limits first = .ok one)
    (remade : ofPlan registry limits second = .ok other) : one.total = other.total := by
  apply Duration.eq_of_nanoseconds
  rw [(isTimelineOf_of_ofPlan made).total, (isTimelineOf_of_ofPlan remade).total,
    totalOf_eq_of_perm same]

theorem perm_content (ignores : IgnoresPosition registry) (same : first.rows.Perm second.rows)
    {one other : Timeline φ} (made : ofPlan registry limits first = .ok one)
    (remade : ofPlan registry limits second = .ok other) :
    (one.steps.map Step.content).Perm (other.steps.map Step.content) := by
  rw [map_content ignores (isTimelineOf_of_ofPlan made).steps,
    map_content ignores (isTimelineOf_of_ofPlan remade).steps]
  exact (Plan.perm_intervals same).filterMap _

end Timeline

namespace Catalog

open Timeline

/-- The features of the catalog are made of the row alone. -/
theorem ignoresPosition : IgnoresPosition registry := by
  intro index other row duration feature? has
  cases feature? with
  | none =>
      cases has with
      | nothing unnamed => exact .nothing unnamed
  | some feature => exact hasFeature_of_isFeatureOf (isFeatureOf_of_hasFeature has) other duration

/-- Moving rows does not decide whether a plan can be built.  A move between
positions of which one does not exist changes nothing, and any other brings the
row to its target and leaves the others in their order.  After any moves the plan
is built exactly when it was before, with the same total and, up to their order,
with steps of the same durations, categories and features. -/
theorem ofPlan_afterMoves (limits : Limits) (plan : Plan CatalogSettings)
    (moves : List (Nat × Nat)) :
    (∀ (current : Plan CatalogSettings) (source target : Nat),
      (current.move? source target = none ↔
        current.rows.length ≤ source ∨ current.rows.length ≤ target) ∧
      ∀ moved, current.move? source target = some moved → moved.name = current.name ∧
        moved.rows[target]? = current.rows[source]? ∧
        moved.rows.eraseIdx target = current.rows.eraseIdx source) ∧
    ((∃ timeline, ofPlan registry limits (plan.afterMoves moves) = .ok timeline) ↔
      ∃ timeline, ofPlan registry limits plan = .ok timeline) ∧
    ∀ reordered timeline, ofPlan registry limits (plan.afterMoves moves) = .ok reordered →
      ofPlan registry limits plan = .ok timeline →
        reordered.name = timeline.name ∧ reordered.total = timeline.total ∧
        (reordered.steps.map Step.content).Perm (timeline.steps.map Step.content) := by
  rcases plan.perm_afterMoves moves with ⟨sameName, same⟩
  refine ⟨fun current source target => ⟨Plan.move?_eq_none_iff, fun moved success => ?_⟩,
    ⟨?_, ?_⟩, fun reordered timeline remade made => ⟨?_, ?_, ?_⟩⟩
  · have isMoved := (Plan.move?_eq_some_iff.mp success).2.2
    exact ⟨isMoved.name, isMoved.there, isMoved.others⟩
  · exact exists_timeline_of_perm ignoresPosition same
  · exact exists_timeline_of_perm ignoresPosition same.symm
  · rw [(isTimelineOf_of_ofPlan remade).name, (isTimelineOf_of_ofPlan made).name, sameName]
  · exact total_eq_of_perm same remade made
  · exact perm_content ignoresPosition same remade made

/-- An evening that ends with its heading and starts with its rest is an evening as
long, and the third move of this sequence is refused. -/
theorem ofPlan_evening_afterMoves :
    (evening.afterMoves [(0, 2), (0, 1), (3, 0)]).rows.map Row.group? =
      [none, none, some ⟨1, "Changes"⟩] ∧
    ∃ reordered, ofPlan registry .standard (evening.afterMoves [(0, 2), (0, 1), (3, 0)]) =
      .ok reordered ∧ reordered.total.nanoseconds = 5460 * 1000000000 ∧
      (reordered.steps.map Step.content).Perm
        [(⟨60 * 1000000000, by decide⟩, "General", some .rest),
          (⟨5400 * 1000000000, by decide⟩, "Guitar", none)] := by
  have spec := ofPlan_afterMoves .standard evening [(0, 2), (0, 1), (3, 0)]
  refine ⟨by decide, ?_⟩
  have made : ∃ timeline, ofPlan registry .standard evening = .ok timeline ∧
      timeline.total.nanoseconds = 5460 * 1000000000 ∧ timeline.steps.map Step.content =
        [(⟨5400 * 1000000000, by decide⟩, "Guitar", none),
          (⟨60 * 1000000000, by decide⟩, "General", some .rest)] := ⟨_, rfl, rfl, rfl⟩
  rcases made with ⟨timeline, made, length, played⟩
  rcases spec.2.1.mpr ⟨timeline, made⟩ with ⟨reordered, remade⟩
  rcases spec.2.2 reordered timeline remade made with ⟨-, total, contents⟩
  rw [played] at contents
  exact ⟨reordered, remade, total ▸ length, contents.trans (.swap _ _ [])⟩

end Catalog
end PracticePlan
