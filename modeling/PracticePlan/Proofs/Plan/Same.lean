import PracticePlan.Plan.Row

namespace PracticePlan

/-!
# Rows that are the same

Two intervals are the same when all their texts are equal and their settings are
the same, and two lists of rows when they are so place by place.  Both notations
read the rows of a plan one by one, so whether a plan reads back is decided row
by row (`sameAll_filterMap`).
-/

variable {σ : Type} [IntervalSettings σ]

namespace IntervalRow

theorem same_withSettings (row : IntervalRow σ) {settings : σ}
    (same : IntervalSettings.same settings row.settings = true) :
    IntervalRow.same { row with settings } row = true := by
  simp only [IntervalRow.same, beq_self_eq_true, Bool.and_self, same]

theorem same_iff {first second : IntervalRow σ} :
    IntervalRow.same first second = true ↔
      first.duration = second.duration ∧ first.task = second.task ∧
        first.categoryName = second.categoryName ∧ first.featureType = second.featureType ∧
        first.arguments = second.arguments ∧
        IntervalSettings.same first.settings second.settings = true := by
  simp only [IntervalRow.same, Bool.and_eq_true, beq_iff_eq, and_assoc]

end IntervalRow

namespace Row

/-- Rows that all have a successor are the same as their successors when each
of them is. -/
theorem sameAll_filterMap {rows : List (Row σ)} {next : Row σ → Option (Row σ)}
    (present : ∀ row ∈ rows, ∃ back, next row = some back) :
    Row.sameAll (rows.filterMap next) rows = true ↔
      ∀ row ∈ rows, ∃ back, next row = some back ∧ back.same row = true := by
  induction rows with
  | nil => exact ⟨fun _ row member => absurd member List.not_mem_nil, fun _ => rfl⟩
  | cons first rest inductionHypothesis =>
      rcases present first List.mem_cons_self with ⟨back, known⟩
      rw [List.filterMap_cons_some known, Row.sameAll, Bool.and_eq_true,
        inductionHypothesis fun row member => present row (List.mem_cons_of_mem first member),
        List.forall_mem_cons, known]
      constructor
      · exact fun ⟨head, tail⟩ => ⟨⟨back, rfl, head⟩, tail⟩
      · rintro ⟨⟨other, same, head⟩, tail⟩
        exact ⟨Option.some.inj same ▸ head, tail⟩

/-- Every row has its counterpart among rows that are the same. -/
theorem exists_same_of_sameAll {firsts seconds : List (Row σ)}
    (same : sameAll firsts seconds = true) :
    ∀ second ∈ seconds, ∃ first ∈ firsts, first.same second = true := by
  induction seconds generalizing firsts with
  | nil => exact fun second member => absurd member List.not_mem_nil
  | cons head rest inductionHypothesis =>
      cases firsts with
      | nil => cases same
      | cons first others =>
          rw [sameAll, Bool.and_eq_true] at same
          intro second member
          rcases List.mem_cons.mp member with rfl | later
          · exact ⟨first, List.mem_cons_self, same.1⟩
          · rcases inductionHypothesis same.2 second later with ⟨other, known, equal⟩
            exact ⟨other, List.mem_cons_of_mem first known, equal⟩

end Row
end PracticePlan
