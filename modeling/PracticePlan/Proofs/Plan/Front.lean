import PracticePlan.Plan.Basic

namespace PracticePlan

/-!
# The front of a plan

Rows are labelled and indented by what stands in front of them.  A plan that is
cut off behind a row therefore says the same of this row, and its intervals are
those of the whole plan up to the cut.
-/

namespace Nesting

theorem indentsFrom_take (stack : List UInt32) (markers : List (Option UInt32)) (count : Nat) :
    indentsFrom stack (markers.take count) = (indentsFrom stack markers).take count := by
  induction markers generalizing stack count with
  | nil => rw [List.take_nil, indentsFrom, List.take_nil]
  | cons marker rest inductionHypothesis =>
      cases count with
      | zero => rfl
      | succ count =>
          rw [List.take_succ_cons]
          cases marker with
          | none => rw [indentsFrom, indentsFrom, List.take_succ_cons, inductionHypothesis]
          | some level =>
              simp only [indentsFrom, List.take_succ_cons, inductionHypothesis]

/-- The groups around a row do not depend on the rows behind it. -/
theorem openFrom_take {α : Type} (levelOf : α → UInt32) (stack : List α) (rows : List (Option α))
    {index count : Nat} (inside : index < count) :
    openFrom levelOf stack (rows.take count) index = openFrom levelOf stack rows index := by
  induction rows generalizing stack index count with
  | nil => rw [List.take_nil]
  | cons row rest inductionHypothesis =>
      cases count with
      | zero => exact absurd inside (Nat.not_lt_zero index)
      | succ count =>
          rw [List.take_succ_cons]
          cases index with
          | zero => cases row <;> rfl
          | succ index =>
              cases row with
              | none => exact inductionHypothesis stack (Nat.lt_of_succ_lt_succ inside)
              | some group => exact inductionHypothesis _ (Nat.lt_of_succ_lt_succ inside)

end Nesting

namespace Plan

variable {σ : Type}

/-- The plan cut off at a position. -/
def front (plan : Plan σ) (position : Nat) : Plan σ :=
  { plan with rows := plan.rows.take position }

theorem getElem?_rows_front (plan : Plan σ) {index position : Nat} (inside : index < position) :
    (plan.front position).rows[index]? = plan.rows[index]? :=
  List.getElem?_take_of_lt inside

theorem groupsAround_front (plan : Plan σ) {index position : Nat} (inside : index < position) :
    (plan.front position).groupsAround index = plan.groupsAround index := by
  rw [groupsAround, groupsAround, Nesting.openBefore, Nesting.openBefore, front, List.map_take,
    Nesting.openFrom_take _ _ _ inside]

theorem label_front (plan : Plan σ) {index position : Nat} (inside : index < position) :
    (plan.front position).label index = plan.label index := by
  rw [label, label, groupPath, groupPath, plan.groupsAround_front inside, ownName, ownName,
    plan.getElem?_rows_front inside]

/-- Labels do not depend on the name of the plan. -/
theorem label_congr {first second : Plan σ} (same : first.rows = second.rows) (index : Nat) :
    first.label index = second.label index := by
  cases first
  cases second
  cases same
  rfl

theorem indents_front (plan : Plan σ) (position : Nat) :
    (plan.front position).indents = plan.indents.take position := by
  rw [indents, indents, front, List.map_take, Nesting.indents, Nesting.indentsFrom_take]
  rfl

theorem intervalsFrom_take_succ {rows : List (Row σ)} {offset : Nat} {row : IntervalRow σ}
    (present : rows[offset]? = some (.interval row)) (position : Nat) :
    intervalsFrom position (rows.take (offset + 1)) =
      intervalsFrom position (rows.take offset) ++ [(position + offset, row)] := by
  induction rows generalizing position offset with
  | nil => cases present
  | cons first rest inductionHypothesis =>
      cases offset with
      | zero =>
          rcases Option.some.inj present with rfl
          rfl
      | succ offset =>
          have behind := inductionHypothesis present (position + 1)
          rw [Nat.succ_add_eq_add_succ position offset] at behind
          rw [List.take_succ_cons, List.take_succ_cons]
          cases first with
          | group group => exact behind
          | interval other => rw [intervalsFrom, intervalsFrom, behind, List.cons_append]

end Plan
end PracticePlan
