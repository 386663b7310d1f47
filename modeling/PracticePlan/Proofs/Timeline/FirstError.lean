import Mathlib.Data.List.Basic
import PracticePlan.Proofs.Plan.Front
import PracticePlan.Proofs.Timeline.Build
import PracticePlan.Proofs.Timeline.Fault

namespace PracticePlan

/-!
# The first error of a plan

Building stops at the first interval that has a fault.  The error is decided by
the rows up to this interval: the rows in front of it can be built by
themselves, the fault is the first one of the interval at the exact sum of the
durations in front of it, and its label is what the front of the plan makes it.
`ofPlan_eq_error_iff` says that this is all there is to an error, so plans with
the same front have the same error, whatever follows.
-/

namespace Plan

variable {σ : Type}

theorem intervalsFrom_append (position : Nat) (first second : List (Row σ)) :
    intervalsFrom position (first ++ second) =
      intervalsFrom position first ++ intervalsFrom (position + first.length) second := by
  induction first generalizing position with
  | nil => rfl
  | cons row rest inductionHypothesis =>
      have behind := inductionHypothesis (position + 1)
      rw [Nat.add_assoc, Nat.add_comm 1] at behind
      cases row with
      | group row => exact behind
      | interval row =>
          rw [List.cons_append, intervalsFrom, behind, intervalsFrom, List.cons_append,
            List.length_cons]

/-- The intervals in front of an interval are those of the front. -/
theorem exists_intervals_eq {plan : Plan σ} {index : Nat} {row : IntervalRow σ}
    (present : plan.rows[index]? = some (.interval row)) :
    ∃ after, plan.intervals = (plan.front index).intervals ++ (index, row) :: after := by
  have here := intervalsFrom_take_succ present 0
  rw [Nat.zero_add] at here
  have whole := intervalsFrom_append 0 (plan.rows.take (index + 1)) (plan.rows.drop (index + 1))
  rw [List.take_append_drop, here, List.append_assoc] at whole
  exact ⟨_, whole⟩

theorem lt_of_mem_intervals_front {plan : Plan σ} {position : Nat}
    {interval : Nat × IntervalRow σ} (member : interval ∈ (plan.front position).intervals) :
    interval.1 < position := by
  have inside := (List.getElem?_eq_some_iff.mp (mem_intervals_iff.mp member)).1
  exact Nat.lt_of_lt_of_le inside (List.length_take_le position plan.rows)

/-- An interval stands in one place only, so what is in front of it is the front. -/
theorem eq_intervals_front {plan : Plan σ} {before after : List (Nat × IntervalRow σ)}
    {interval : Nat × IntervalRow σ} (split : plan.intervals = before ++ interval :: after) :
    before = (plan.front interval.1).intervals := by
  have member : interval ∈ plan.intervals := by
    rw [split]
    exact List.mem_append_right before List.mem_cons_self
  rcases exists_intervals_eq (mem_intervals_iff.mp member) with ⟨others, whole⟩
  have ordered : (before ++ interval :: after).Pairwise fun first second => first.1 < second.1 :=
    split ▸ pairwise_intervalsFrom 0 plan.rows
  have parts := List.pairwise_append.mp ordered
  have absent : interval ∉ before := fun early =>
    Nat.lt_irrefl interval.1 (parts.2.2 interval early interval List.mem_cons_self)
  have single : interval ∉ after := fun late =>
    Nat.lt_irrefl interval.1 ((List.pairwise_cons.mp parts.2.1).1 interval late)
  exact ((List.append_cons_inj_of_notMem absent single).mp (split.symm.trans whole)).1

end Plan

namespace Timeline

variable {σ φ : Type} [IntervalSettings σ]
  {registry : Registry σ φ} {limits : Limits} {plan : Plan σ}

/-! ## Where a run fails -/

theorem stepsFrom_append_cons_of_failed {total : Duration}
    {before after : List (Nat × IntervalRow σ)} {interval : Nat × IntervalRow σ}
    {built : List (Step φ) × Duration} {fault : BuildFault}
    (made : stepsFrom registry limits plan total before = .ok built)
    (failed : stepOf registry limits plan built.2 interval.1 interval.2 = .error fault) :
    stepsFrom registry limits plan total (before ++ interval :: after) =
      .error ⟨interval.1, plan.label interval.1, fault⟩ := by
  induction before generalizing total built with
  | nil =>
      rcases Except.ok.inj made with rfl
      rw [List.nil_append, stepsFrom, failed]
  | cons first rest inductionHypothesis =>
      rcases stepsFrom_cons_eq_ok_iff.mp made with ⟨step, sum, others, here, later, rfl⟩
      rw [List.cons_append, stepsFrom, here]
      exact Except.map_eq_error_iff.mpr (inductionHypothesis later failed)

/-- A run that fails has built all that stands in front of some interval, and
fails at this interval. -/
theorem exists_failed_of_stepsFrom {total : Duration} {intervals : List (Nat × IntervalRow σ)}
    {error : BuildError} (failed : stepsFrom registry limits plan total intervals = .error error) :
    ∃ before interval after built, intervals = before ++ interval :: after ∧
      stepsFrom registry limits plan total before = .ok built ∧
      stepOf registry limits plan built.2 interval.1 interval.2 = .error error.fault ∧
      error.index = interval.1 ∧ error.label = plan.label interval.1 := by
  induction intervals generalizing total with
  | nil => cases failed
  | cons interval rest inductionHypothesis =>
      rw [stepsFrom] at failed
      split at failed
      · next fault refused =>
          rcases Except.error.inj failed with rfl
          exact ⟨[], interval, rest, ([], total), rfl, rfl, refused, rfl, rfl⟩
      · next step sum made =>
          rcases inductionHypothesis (Except.map_eq_error_iff.mp failed) with
            ⟨before, other, after, built, rfl, done, refused, index, label⟩
          refine ⟨interval :: before, other, after, (step :: built.1, built.2), rfl, ?_, refused,
            index, label⟩
          exact stepsFrom_cons_eq_ok_iff.mpr ⟨step, sum, built, made, done, rfl⟩

/-- Steps use no more of their plan than the labels and the indentation of their
rows. -/
theorem stepsFrom_congr {other : Plan σ} {intervals : List (Nat × IntervalRow σ)}
    (agree : ∀ interval ∈ intervals, plan.label interval.1 = other.label interval.1 ∧
      plan.indents.getD interval.1 0 = other.indents.getD interval.1 0) (total : Duration) :
    stepsFrom registry limits plan total intervals =
      stepsFrom registry limits other total intervals := by
  induction intervals generalizing total with
  | nil => rfl
  | cons interval rest inductionHypothesis =>
      rw [List.forall_mem_cons] at agree
      have step : stepOf registry limits plan total interval.1 interval.2 =
          stepOf registry limits other total interval.1 interval.2 := by
        rw [stepOf, stepOf, agree.1.1, agree.1.2]
      rw [stepsFrom, stepsFrom, step, agree.1.1]
      split
      · rfl
      · rw [inductionHypothesis agree.2]

theorem stepsFrom_front (plan : Plan σ) (position : Nat) (total : Duration) :
    stepsFrom registry limits (plan.front position) total (plan.front position).intervals =
      stepsFrom registry limits plan total (plan.front position).intervals := by
  apply stepsFrom_congr
  intro interval member
  have inside := Plan.lt_of_mem_intervals_front member
  refine ⟨plan.label_front inside, ?_⟩
  rw [plan.indents_front, List.getD_eq_getElem?_getD, List.getD_eq_getElem?_getD,
    List.getElem?_take_of_lt inside]

/-! ## The error -/

/-- The error of a plan: the first interval that has a fault, with its first
fault, behind a front that can be built. -/
structure IsFirstError (registry : Registry σ φ) (limits : Limits) (plan : Plan σ)
    (error : BuildError) : Prop where
  fault : ∃ row, plan.rows[error.index]? = some (.interval row) ∧
    IsFirstFault registry limits (totalOf (plan.front error.index).intervals) error.index row
      error.fault
  label : error.label = plan.label error.index
  front : ∃ timeline, ofPlan registry limits (plan.front error.index) = .ok timeline

/-- The total of a front is the exact sum of the durations in it. -/
theorem total_front {position : Nat} {built : List (Step φ) × Duration}
    (made : stepsFrom registry limits plan .zero (plan.front position).intervals = .ok built) :
    built.2.nanoseconds = totalOf (plan.front position).intervals := by
  rw [← stepsFrom_front] at made
  have run := (isRun_of_stepsFrom (fun interval member => member) made).1
  rw [run.total]
  exact Int.zero_add _

theorem ofPlan_eq_error_iff {error : BuildError} :
    ofPlan registry limits plan = .error error ↔ IsFirstError registry limits plan error := by
  constructor
  · intro failed
    rcases exists_failed_of_stepsFrom (Except.map_eq_error_iff.mp failed) with
      ⟨before, interval, after, built, split, made, refused, index, label⟩
    have present : plan.rows[interval.1]? = some (.interval interval.2) := by
      apply Plan.mem_intervals_iff.mp
      rw [split]
      exact List.mem_append_right before List.mem_cons_self
    rcases Plan.eq_intervals_front split with rfl
    have total := total_front made
    have started : 0 ≤ built.2.nanoseconds := total ▸ totalOf_nonneg _
    have isFirst := (stepOf_eq_error_iff started).mp refused
    rw [total] at isFirst
    refine ⟨⟨interval.2, ?_, ?_⟩, ?_, ?_⟩
    · rw [index]
      exact present
    · rw [index]
      exact isFirst
    · rw [index]
      exact label
    · rw [index]
      refine ⟨_, Except.map_eq_ok_iff.mpr ⟨built, ?_, rfl⟩⟩
      rw [stepsFrom_front]
      exact made
  · rintro ⟨⟨row, present, isFirst⟩, label, timeline, built⟩
    rcases Except.map_eq_ok_iff.mp built with ⟨steps, made, -⟩
    rw [stepsFrom_front] at made
    have total := total_front made
    have started : 0 ≤ steps.2.nanoseconds := total ▸ totalOf_nonneg _
    rw [← total] at isFirst
    have refused : stepOf registry limits plan steps.2 error.index row = .error error.fault :=
      (stepOf_eq_error_iff started).mpr isFirst
    have whole : error = ⟨error.index, plan.label error.index, error.fault⟩ := by rw [← label]
    rcases Plan.exists_intervals_eq present with ⟨after, split⟩
    apply Except.map_eq_error_iff.mpr
    rw [split, whole]
    exact stepsFrom_append_cons_of_failed made refused

/-- The name of a plan has no part in whether it can be built. -/
theorem exists_timeline_of_rows_eq {other : Plan σ} (same : other.rows = plan.rows)
    {timeline : Timeline φ} (made : ofPlan registry limits plan = .ok timeline) :
    ∃ timeline, ofPlan registry limits other = .ok timeline := by
  rcases Except.map_eq_ok_iff.mp made with ⟨built, run, -⟩
  have intervals : other.intervals = plan.intervals := congrArg (Plan.intervalsFrom 0) same
  have indents : other.indents = plan.indents := by
    rw [Plan.indents, Plan.indents, same]
  refine ⟨_, Except.map_eq_ok_iff.mpr ⟨built, ?_, rfl⟩⟩
  rw [intervals, ← run]
  apply stepsFrom_congr
  intro interval _
  exact ⟨Plan.label_congr same interval.1, by rw [indents]⟩

/-- An error does not depend on the rows behind its interval. -/
theorem IsFirstError.of_front_eq {other : Plan σ} {error : BuildError}
    (isFirst : IsFirstError registry limits plan error)
    (same : other.rows.take (error.index + 1) = plan.rows.take (error.index + 1)) :
    IsFirstError registry limits other error := by
  have shorter : other.rows.take error.index = plan.rows.take error.index := by
    have cut := congrArg (List.take error.index) same
    rwa [List.take_take, List.take_take, Nat.min_eq_left (Nat.le_succ error.index)] at cut
  have inside := Nat.lt_succ_self error.index
  have intervals : (other.front error.index).intervals = (plan.front error.index).intervals :=
    congrArg (Plan.intervalsFrom 0) shorter
  have rows : (other.front error.index).rows = (plan.front error.index).rows := shorter
  rcases isFirst with ⟨⟨row, present, fault⟩, label, timeline, built⟩
  refine ⟨⟨row, ?_, ?_⟩, ?_, exists_timeline_of_rows_eq rows built⟩
  · calc other.rows[error.index]? = (other.front (error.index + 1)).rows[error.index]? :=
        (other.getElem?_rows_front inside).symm
      _ = (plan.front (error.index + 1)).rows[error.index]? := congrArg (·[error.index]?) same
      _ = plan.rows[error.index]? := plan.getElem?_rows_front inside
      _ = some (.interval row) := present
  · rw [intervals]
    exact fault
  · calc error.label = plan.label error.index := label
      _ = (plan.front (error.index + 1)).label error.index := (plan.label_front inside).symm
      _ = (other.front (error.index + 1)).label error.index := Plan.label_congr same.symm _
      _ = other.label error.index := other.label_front inside

/-- A plan fails with the first fault of the first interval that has one, behind
a front that can be built.  Every plan with the same rows up to this interval
fails with the same error, and an interval without a feature type can fail only
for its duration or the total. -/
theorem isFirstError_of_ofPlan (registry : Registry σ φ) (limits : Limits) (plan : Plan σ) :
    (∀ error, ofPlan registry limits plan = .error error ↔
      IsFirstError registry limits plan error) ∧
    (∀ error other, ofPlan registry limits plan = .error error →
      other.rows.take (error.index + 1) = plan.rows.take (error.index + 1) →
      ofPlan registry limits other = .error error) ∧
    (∀ error row, ofPlan registry limits plan = .error error →
      plan.rows[error.index]? = some (.interval row) → row.hasFeature = false →
      error.fault.turn ≤ 1) := by
  refine ⟨fun error => ofPlan_eq_error_iff, fun error other failed same => ?_,
    fun error row failed present unnamed => ?_⟩
  · exact ofPlan_eq_error_iff.mpr ((ofPlan_eq_error_iff.mp failed).of_front_eq same)
  · rcases (ofPlan_eq_error_iff.mp failed).fault with ⟨other, here, fault⟩
    rcases Row.interval.inj (Option.some.inj (present.symm.trans here)) with rfl
    exact fault.present.turn_le_one unnamed

/-- A plan whose second interval is longer than the limit allows and names a type
that no category has.  A third cannot be read. -/
def overlong : Plan CatalogSettings :=
  ⟨"Overlong", [.group ⟨1, "Scales"⟩,
    .interval ⟨"2:00:00", "Slowly", "Guitar", "", [], .guitar .standard⟩,
    .interval ⟨"90:00", "", "Guitar", "Legato", [], .guitar .standard⟩,
    .interval ⟨"soon", "", "Guitar", "", [], .guitar .standard⟩]⟩

/-- The error is that of the total, at the second interval, and stays when what
follows is left out. -/
theorem ofPlan_overlong : ofPlan Catalog.registry .standard overlong =
      .error ⟨2, "Scales / interval #3",
        .tooLong ⟨12600 * 1000000000, by decide⟩ Limits.standard.longest⟩ ∧
    ofPlan Catalog.registry .standard ⟨"", overlong.rows.take 3⟩ =
      ofPlan Catalog.registry .standard overlong := by
  have failed : ofPlan Catalog.registry .standard overlong =
      .error ⟨2, "Scales / interval #3",
        .tooLong ⟨12600 * 1000000000, by decide⟩ Limits.standard.longest⟩ := rfl
  refine ⟨failed, ?_⟩
  rw [failed]
  exact (isFirstError_of_ofPlan Catalog.registry .standard overlong).2.1 _ _ failed rfl

end Timeline
end PracticePlan
