import Mathlib.Data.List.Perm.Basic
import PracticePlan.Plan.Basic

namespace PracticePlan
namespace Plan

/-!
# Moving rows

A row is moved by taking it out and putting it in again, and the second position
counts rows that have already closed up behind the first.  Said of the two plans
alone, the row stands at the target and the others are in the order they had
(`move?_eq_some_iff`).  However often rows are moved, the plan keeps its name and
its rows (`perm_afterMoves`).
-/

variable {σ : Type}

/-! ## Taking rows out and putting them in -/

theorem getElem?_rows_insertAt (plan : Plan σ) {position : Nat}
    (inside : position ≤ plan.rows.length) (row : Row σ) :
    (plan.insertAt position row).rows[position]? = some row := by
  have front : (plan.rows.take position).length = position := List.length_take_of_le inside
  rw [insertAt, List.getElem?_append_right (Nat.le_of_eq front), front, Nat.sub_self]
  rfl

/-- A row that was put in can be taken out again. -/
theorem eraseAt_insertAt (plan : Plan σ) {position : Nat}
    (inside : position ≤ plan.rows.length) (row : Row σ) :
    (plan.insertAt position row).eraseAt position = plan := by
  have front : (plan.rows.take position).length = position := List.length_take_of_le inside
  rw [eraseAt, insertAt, List.eraseIdx_append_of_length_le (Nat.le_of_eq front), front,
    Nat.sub_self, List.eraseIdx_cons_zero, List.take_append_drop]

/-- A row that was taken out can be put in again. -/
theorem insertAt_eraseAt {plan : Plan σ} {position : Nat} {row : Row σ}
    (present : plan.rows[position]? = some row) :
    (plan.eraseAt position).insertAt position row = plan := by
  rcases List.getElem?_eq_some_iff.mp present with ⟨inside, rfl⟩
  have front : (plan.rows.take position).length = position :=
    List.length_take_of_le (Nat.le_of_lt inside)
  rw [insertAt, eraseAt, List.eraseIdx_eq_take_drop_succ, List.take_left' front,
    List.drop_left' front, List.getElem_cons_drop, List.take_append_drop]

theorem perm_eraseAt {plan : Plan σ} {position : Nat} {row : Row σ}
    (present : plan.rows[position]? = some row) :
    (row :: (plan.eraseAt position).rows).Perm plan.rows := by
  rcases List.getElem?_eq_some_iff.mp present with ⟨inside, rfl⟩
  exact List.getElem_cons_eraseIdx_perm inside

/-- Where a row can stand in a plan, it can be put in once another has been taken out. -/
theorem le_length_eraseAt {plan : Plan σ} {source target : Nat}
    (inside : source < plan.rows.length) (room : target < plan.rows.length) :
    target ≤ (plan.eraseAt source).rows.length := by
  rw [eraseAt, List.length_eraseIdx_of_lt inside]
  exact Nat.le_sub_one_of_lt room

/-! ## One move -/

/-- A plan in which the row at one position has come to another. -/
structure IsMoved (plan : Plan σ) (source target : Nat) (moved : Plan σ) : Prop where
  name : moved.name = plan.name
  there : moved.rows[target]? = plan.rows[source]?
  others : moved.rows.eraseIdx target = plan.rows.eraseIdx source

theorem IsMoved.eraseAt_eq {plan moved : Plan σ} {source target : Nat}
    (isMoved : plan.IsMoved source target moved) :
    moved.eraseAt target = plan.eraseAt source := by
  rw [eraseAt, eraseAt, isMoved.others, isMoved.name]

theorem move?_eq_none_iff {plan : Plan σ} {source target : Nat} :
    plan.move? source target = none ↔
      plan.rows.length ≤ source ∨ plan.rows.length ≤ target := by
  rw [move?]
  by_cases room : target < plan.rows.length
  · rw [if_pos room, Option.map_eq_none_iff, List.getElem?_eq_none_iff]
    exact (or_iff_left (Nat.not_le.mpr room)).symm
  · rw [if_neg room]
    exact iff_of_true rfl (.inr (Nat.not_lt.mp room))

/-- Every move gives the one plan in which only the row has moved. -/
theorem move?_eq_some_iff {plan moved : Plan σ} {source target : Nat} :
    plan.move? source target = some moved ↔
      source < plan.rows.length ∧ target < plan.rows.length ∧
        plan.IsMoved source target moved := by
  rw [move?]
  constructor
  · intro success
    split at success
    · next room =>
        rcases Option.map_eq_some_iff.mp success with ⟨row, present, rfl⟩
        have inside := (List.getElem?_eq_some_iff.mp present).1
        have fits := le_length_eraseAt inside room
        refine ⟨inside, room, rfl, ?_, ?_⟩
        · rw [present, getElem?_rows_insertAt _ fits]
        · exact congrArg rows (eraseAt_insertAt _ fits row)
    · cases success
  · rintro ⟨inside, room, isMoved⟩
    have present := List.getElem?_eq_getElem inside
    rw [if_pos room, present, Option.map_some, ← isMoved.eraseAt_eq,
      insertAt_eraseAt (isMoved.there.trans present)]

theorem IsMoved.perm {plan moved : Plan σ} {source target : Nat}
    (isMoved : plan.IsMoved source target moved) (inside : source < plan.rows.length) :
    moved.rows.Perm plan.rows := by
  have present := List.getElem?_eq_getElem inside
  have there := perm_eraseAt (isMoved.there.trans present)
  rw [isMoved.eraseAt_eq] at there
  exact there.symm.trans (perm_eraseAt present)

/-! ## Many moves -/

/-- The plan after moves, each from its first position to its second.  A move
between positions that do not both exist changes nothing. -/
def afterMoves (plan : Plan σ) (moves : List (Nat × Nat)) : Plan σ :=
  moves.foldl (fun current move => (current.move? move.1 move.2).getD current) plan

theorem perm_getD_move? (plan : Plan σ) (source target : Nat) :
    ((plan.move? source target).getD plan).name = plan.name ∧
      ((plan.move? source target).getD plan).rows.Perm plan.rows := by
  cases outcome : plan.move? source target with
  | none => exact ⟨rfl, .refl plan.rows⟩
  | some moved =>
      rcases move?_eq_some_iff.mp outcome with ⟨inside, -, isMoved⟩
      exact ⟨isMoved.name, isMoved.perm inside⟩

/-- Moves keep the name and, up to their order, the rows. -/
theorem perm_afterMoves (plan : Plan σ) (moves : List (Nat × Nat)) :
    (plan.afterMoves moves).name = plan.name ∧ (plan.afterMoves moves).rows.Perm plan.rows := by
  induction moves generalizing plan with
  | nil => exact ⟨rfl, .refl plan.rows⟩
  | cons move rest inductionHypothesis =>
      have first := plan.perm_getD_move? move.1 move.2
      have behind := inductionHypothesis ((plan.move? move.1 move.2).getD plan)
      exact ⟨behind.1.trans first.1, behind.2.trans first.2⟩

example : ((Plan.mk "Scales" [.group ⟨1, "Slow"⟩, .group ⟨2, "Major"⟩, .group ⟨2, "Minor"⟩] :
    Plan Unit).afterMoves [(0, 2), (1, 3), (1, 0)]).rows.map Row.group? =
    [some ⟨2, "Minor"⟩, some ⟨2, "Major"⟩, some ⟨1, "Slow"⟩] := by
  decide

end Plan
end PracticePlan
