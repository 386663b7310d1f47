import PracticePlan.Plan.Basic
import PracticePlan.Proofs.Nesting.Indents

namespace PracticePlan
namespace Nesting

/-!
# The groups around a row

A group is around a row behind it as long as every group after it, the row
itself included, is of a higher level.  `enclosing?` says this of one place, and
the groups around a row are the places in front of it that it accepts, in their
order (`openBefore_eq_filterMap`).

Both passes come from the same groups.  The groups still open in front of a row
have falling levels towards the outside (`pairwise_stillOpen`), so closing
groups at the inner end is a filter on all of them.  The pass that indents rows
keeps no more than their levels, and an indentation is therefore the level of
the innermost group around the row (`getElem?_indents_eq_map`).
-/

variable {α : Type} (levelOf : α → UInt32)

/-! ## Open groups have distinct levels -/

/-- Levels fall from the innermost open group outwards. -/
theorem pairwise_stillOpen (past : List α) :
    (stillOpen levelOf past).Pairwise fun inner outer => levelOf outer < levelOf inner := by
  induction past with
  | nil => exact .nil
  | cons group earlier inductionHypothesis =>
      have kept := inductionHypothesis.sublist
        (List.dropWhile_sublist fun other => decide (levelOf group ≤ levelOf other))
      refine List.pairwise_cons.mpr ⟨fun outer member => ?_, kept⟩
      -- The innermost of those kept is below the new level, and the others are below it.
      cases shape : staying levelOf (levelOf group) (stillOpen levelOf earlier) with
      | nil =>
          rw [shape] at member
          cases member
      | cons top rest =>
          have first : levelOf top < levelOf group := by
            have head := head?_staying levelOf (levelOf group) (stillOpen levelOf earlier)
            rw [shape, List.head?_cons] at head
            simpa using List.find?_some head.symm
          have falling : (top :: rest).Pairwise fun inner outer => levelOf outer < levelOf inner :=
            shape ▸ kept
          rw [shape] at member
          rcases List.mem_cons.mp member with rfl | behind
          · exact first
          · exact UInt32.lt_trans (List.rel_of_pairwise_cons falling behind) first

/-- Whether a group may be around another, if there is another. -/
def IsBelow (own : Option α) (group : α) : Prop :=
  ∀ other ∈ own, levelOf group < levelOf other

instance (own : Option α) (group : α) : Decidable (IsBelow levelOf own group) :=
  inferInstanceAs (Decidable (∀ other ∈ own, levelOf group < levelOf other))

/-- The open groups that are around a row which is a group or none. -/
def aroundRow (own : Option α) (stack : List α) : List α :=
  own.elim stack fun group => staying levelOf (levelOf group) stack

/-- Among groups of falling levels, those that stay open are those below the row. -/
theorem aroundRow_eq_filter {stack : List α}
    (falling : stack.Pairwise fun inner outer => levelOf outer < levelOf inner)
    (own : Option α) :
    aroundRow levelOf own stack = stack.filter fun group => IsBelow levelOf own group := by
  cases own with
  | none =>
      have every : ∀ group ∈ stack, decide (IsBelow levelOf none group) = true := by
        intro group _
        simp [IsBelow]
      exact (List.filter_eq_self.mpr every).symm
  | some row =>
      induction stack with
      | nil => rfl
      | cons top rest inductionHypothesis =>
          rw [List.pairwise_cons] at falling
          have below : IsBelow levelOf (some row) top ↔ ¬ levelOf row ≤ levelOf top := by
            simp [IsBelow]
          by_cases closed : levelOf row ≤ levelOf top
          · rw [List.filter_cons_of_neg (by simpa [below] using closed),
              ← inductionHypothesis falling.2, aroundRow, Option.elim_some, staying,
              List.dropWhile_cons_of_pos (by simpa using closed)]
            rfl
          · have others : ∀ group ∈ top :: rest,
                decide (IsBelow levelOf (some row) group) = true := by
              intro group member
              have higher : levelOf top < levelOf row := UInt32.not_le.mp closed
              rcases List.mem_cons.mp member with rfl | behind
              · simpa [IsBelow] using higher
              · simpa [IsBelow] using UInt32.lt_trans (falling.1 group behind) higher
            rw [List.filter_eq_self.mpr others, aroundRow, Option.elim_some, staying,
              List.dropWhile_cons_of_neg (by simpa using closed)]

/-! ## The pass that keeps groups -/

/-- The groups in front of an index, the last one first. -/
def passed (rows : List (Option α)) (index : Nat) : List α :=
  (rows.take index).reduceOption.reverse

theorem passed_succ (rows : List (Option α)) (index : Nat) :
    passed rows (index + 1) = rows[index]?.join.toList ++ passed rows index := by
  rw [passed, List.take_add_one, List.reduceOption_append, List.reverse_append, passed]
  cases rows[index]? with
  | none => rfl
  | some row => cases row <;> rfl

theorem passed_cons_succ (row : Option α) (rest : List (Option α)) (index : Nat) :
    passed (row :: rest) (index + 1) = passed rest index ++ row.toList := by
  cases row with
  | none =>
      rw [passed, List.take_succ_cons, List.reduceOption_cons_of_none, Option.toList_none,
        List.append_nil, passed]
  | some group =>
      rw [passed, List.take_succ_cons, List.reduceOption_cons_of_some, List.reverse_cons, passed,
        Option.toList_some]

theorem openFrom_stillOpen (seen : List α) (rows : List (Option α)) (index : Nat) :
    openFrom levelOf (stillOpen levelOf seen) rows index =
      aroundRow levelOf rows[index]?.join (stillOpen levelOf (passed rows index ++ seen)) := by
  -- The groups seen so far stand for the stack, so that they vary with the rows.
  induction rows generalizing seen index with
  | nil =>
      rw [passed, List.take_nil]
      rfl
  | cons row rest inductionHypothesis =>
      cases index with
      | zero => cases row <;> rfl
      | succ index =>
          rw [List.getElem?_cons_succ, passed_cons_succ, List.append_assoc]
          cases row with
          | none => exact inductionHypothesis seen index
          | some group => exact inductionHypothesis (group :: seen) index

theorem openBefore_eq (rows : List (Option α)) (index : Nat) :
    openBefore levelOf rows index =
      (aroundRow levelOf rows[index]?.join (stillOpen levelOf (passed rows index))).reverse := by
  have pass := openFrom_stillOpen levelOf [] rows index
  rw [List.append_nil] at pass
  exact congrArg List.reverse pass

/-- Behind a row the groups around it are open, and the row itself when it is a group. -/
theorem stillOpen_passed_succ (rows : List (Option α)) (index : Nat) :
    stillOpen levelOf (passed rows (index + 1)) = rows[index]?.join.toList ++
      aroundRow levelOf rows[index]?.join (stillOpen levelOf (passed rows index)) := by
  rw [passed_succ]
  cases rows[index]?.join <;> rfl

/-! ## The groups without a stack -/

/-- The group at a place, if there is one and it is around the row at an index
behind: all groups after it, up to this row, are of higher levels. -/
def enclosing? (rows : List (Option α)) (index place : Nat) : Option α :=
  rows[place]?.join.filter fun group =>
    ∀ between ≤ index, place < between → IsBelow levelOf rows[between]?.join group

theorem enclosing?_self (rows : List (Option α)) (index : Nat) :
    enclosing? levelOf rows index index = rows[index]?.join := by
  rw [enclosing?]
  cases rows[index]?.join with
  | none => rfl
  | some group =>
      have nothing : ∀ between ≤ index, index < between →
          IsBelow levelOf rows[between]?.join group :=
        fun between most least => absurd most (Nat.not_le.mpr least)
      exact Option.filter_some_pos (decide_eq_true nothing)

/-- One row further a group must also be below this row. -/
theorem enclosing?_succ (rows : List (Option α)) {index place : Nat} (inside : place ≤ index) :
    enclosing? levelOf rows (index + 1) place =
      (enclosing? levelOf rows index place).filter fun group =>
        IsBelow levelOf rows[index + 1]?.join group := by
  rw [enclosing?, enclosing?, Option.filter_filter]
  congr 1
  funext group
  rw [← Bool.decide_and, decide_eq_decide]
  constructor
  · intro below
    exact ⟨fun between most => below between (Nat.le_succ_of_le most),
      below (index + 1) (Nat.le_refl _) (Nat.lt_succ_of_le inside)⟩
  · rintro ⟨earlier, last⟩ between most least
    rcases Nat.le_or_eq_of_le_succ most with before | rfl
    · exact earlier between before least
    · exact last

/-- The groups around a row are those in front of it that enclose it, in their order. -/
theorem openBefore_eq_filterMap (rows : List (Option α)) (index : Nat) :
    openBefore levelOf rows index =
      (List.range index).filterMap (enclosing? levelOf rows index) := by
  rw [openBefore_eq]
  -- One row further, a filter on the groups around the last row and on this row itself.
  induction index with
  | zero => cases rows[0]?.join <;> rfl
  | succ index inductionHypothesis =>
      have further : (List.range (index + 1)).filterMap (enclosing? levelOf rows (index + 1)) =
          ((List.range (index + 1)).filterMap (enclosing? levelOf rows index)).filter
            fun group => IsBelow levelOf rows[index + 1]?.join group := by
        rw [List.filter_filterMap]
        apply List.filterMap_congr
        intro place member
        exact enclosing?_succ levelOf rows (Nat.le_of_lt_succ (List.mem_range.mp member))
      rw [further, List.range_succ, List.filterMap_append, ← inductionHypothesis,
        aroundRow_eq_filter levelOf (pairwise_stillOpen levelOf _), ← List.filter_reverse,
        stillOpen_passed_succ, List.reverse_append]
      congr 2
      rw [List.filterMap_cons, enclosing?_self]
      cases rows[index]?.join <;> rfl

example : (List.range 5).map (openBefore id [some 1, some 2, none, some 2]) =
    [[], [1], [1, 2], [1], [1, 2]] := by
  decide

theorem pairwise_openBefore (rows : List (Option α)) (index : Nat) :
    (openBefore levelOf rows index).Pairwise fun outer inner => levelOf outer < levelOf inner := by
  rw [openBefore_eq, List.pairwise_reverse,
    aroundRow_eq_filter levelOf (pairwise_stillOpen levelOf _)]
  exact (pairwise_stillOpen levelOf _).filter _

/-! ## Indentation -/

/-- The innermost group around a row is the last one that encloses its marker. -/
theorem head?_aroundRow (own : Option α) (past : List α) :
    (aroundRow levelOf own (stillOpen levelOf past)).head? =
      past.find? fun group => Encloses (own.map levelOf) (levelOf group) := by
  cases own with
  | none =>
      have any : ∀ group ∈ past.head?, Encloses none (levelOf group) := fun _ _ => trivial
      rw [aroundRow, Option.elim_none, head?_stillOpen]
      cases past with
      | nil => rfl
      | cons group earlier =>
          rw [List.find?_cons_of_pos (by simpa using any group rfl), List.head?_cons]
  | some row => exact (head?_staying levelOf _ _).trans (find?_stillOpen levelOf _ past)

theorem past_markers (rows : List (Option α)) (index : Nat) :
    past ((rows.map (Option.map levelOf)).take index) = (passed rows index).map levelOf := by
  rw [past, passed, ← List.map_take, List.reduceOption_map, List.map_reverse]

/-- A row is indented by the level of the innermost group around it. -/
theorem getElem?_indents_eq_map (rows : List (Option α)) (index : Nat) :
    (indents (rows.map (Option.map levelOf)))[index]? = rows[index]?.map fun _ =>
      ((openBefore levelOf rows index).getLast?.map levelOf).getD 0 := by
  have read := getElem?_indentsFrom [] (rows.map (Option.map levelOf)) index
  rw [List.append_nil, past_markers, List.getElem?_map, Option.map_map] at read
  refine read.trans ?_
  cases row : rows[index]? with
  | none => rfl
  | some own =>
      have same : indentBehind ((passed rows index).map levelOf) (own.map levelOf) =
          ((openBefore levelOf rows index).getLast?.map levelOf).getD 0 := by
        rw [openBefore_eq, row, Option.join_some, List.getLast?_reverse, head?_aroundRow,
          indentBehind, List.find?_map]
        rfl
      exact congrArg some same

end Nesting

namespace Plan

variable {σ : Type}

/-- The groups around a row are the groups in front of it that no later group up
to the row itself closes, in the order of the plan.  Their levels rise, and every
row is indented by the level of the last of them. -/
theorem groupsAround_and_indents (plan : Plan σ) :
    (∀ index, plan.groupsAround index = (List.range index).filterMap
        (Nesting.enclosing? GroupRow.level (plan.rows.map Row.group?) index) ∧
      (plan.groupsAround index).Pairwise fun outer inner => outer.level < inner.level) ∧
    plan.indents = (List.range plan.rows.length).map fun index =>
      ((plan.groupsAround index).getLast?.map GroupRow.level).getD 0 := by
  refine ⟨fun index => ⟨?_, ?_⟩, List.ext_getElem? fun index => ?_⟩
  · exact Nesting.openBefore_eq_filterMap GroupRow.level _ index
  · exact Nesting.pairwise_openBefore GroupRow.level _ index
  · have markers : plan.rows.map Row.level? =
        (plan.rows.map Row.group?).map (Option.map GroupRow.level) := by
      rw [List.map_map]
      rfl
    rw [indents, markers, Nesting.getElem?_indents_eq_map, List.getElem?_map, List.getElem?_map]
    by_cases inside : index < plan.rows.length
    · rw [List.getElem?_eq_getElem inside, List.getElem?_range inside]
      rfl
    · rw [List.getElem?_eq_none (Nat.not_lt.mp inside), List.getElem?_eq_none (by simpa using inside)]
      rfl

end Plan
end PracticePlan
