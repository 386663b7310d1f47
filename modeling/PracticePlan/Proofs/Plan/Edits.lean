import PracticePlan.Proofs.Plan.Moves

namespace PracticePlan

/-!
# Edits of a part of a plan

An `Edit` is one call that changes the rows of a plan.  When all positions it names
lie in a part of the plan, it does to the whole what it does to the part by itself,
at positions that are shifted by what stands in front (`Plan.edited_within`).
-/

/-- A call that edits the rows of a plan. -/
inductive Edit (σ : Type) where
  | insert (position : Nat) (row : Row σ)
  | erase (position : Nat)
  | move (source target : Nat)
  | update (position : Nat) (change : IntervalRow σ → IntervalRow σ)

namespace Edit

variable {σ : Type}

/-- The plan after an edit, which is the plan itself when the edit is refused. -/
def apply (plan : Plan σ) : Edit σ → Plan σ
  | insert position row => plan.insertAt position row
  | erase position => plan.eraseAt position
  | move source target => (plan.move? source target).getD plan
  | update position change => (plan.updateInterval position change).1

/-- The same edit of rows that stand behind some number of others. -/
def behind (offset : Nat) : Edit σ → Edit σ
  | insert position row => insert (offset + position) row
  | erase position => erase (offset + position)
  | move source target => move (offset + source) (offset + target)
  | update position change => update (offset + position) change

/-- Whether all positions of an edit lie among a number of rows.  A row can also be
inserted behind the last of them. -/
def IsInside (count : Nat) : Edit σ → Prop
  | insert position _ => position ≤ count
  | erase position => position < count
  | move source target => source < count ∧ target < count
  | update position _ => position < count

instance (count : Nat) (edit : Edit σ) : Decidable (edit.IsInside count) :=
  match edit with
  | insert position _ => inferInstanceAs (Decidable (position ≤ count))
  | erase position => inferInstanceAs (Decidable (position < count))
  | move source target => inferInstanceAs (Decidable (source < count ∧ target < count))
  | update position _ => inferInstanceAs (Decidable (position < count))

/-- The row that an edit brings into a plan. -/
def added? : Edit σ → Option (Row σ)
  | insert _ row => some row
  | erase _ => none
  | move _ _ => none
  | update _ _ => none

/-- Every group of an edited plan was there before or is the row that was added. -/
theorem group_mem_apply {plan : Plan σ} {edit : Edit σ} {group : GroupRow}
    (member : .group group ∈ (edit.apply plan).rows) :
    .group group ∈ plan.rows ∨ edit.added? = some (.group group) := by
  cases edit with
  | insert position row =>
      rcases List.mem_append.mp member with before | here
      · exact .inl (List.mem_of_mem_take before)
      · rcases List.mem_cons.mp here with same | after
        · exact .inr (congrArg some same.symm)
        · exact .inl (List.mem_of_mem_drop after)
  | erase position => exact .inl (List.mem_of_mem_eraseIdx member)
  | move source target => exact .inl ((plan.perm_getD_move? source target).2.mem_iff.mp member)
  | update position change =>
      rw [apply, Plan.updateInterval] at member
      split at member
      · rcases List.mem_or_eq_of_mem_set member with before | changed
        · exact .inl before
        · cases changed
      · exact .inl member

end Edit

namespace Plan

variable {σ : Type}

/-- The plan after edits, one after the other. -/
def edited (plan : Plan σ) (edits : List (Edit σ)) : Plan σ :=
  edits.foldl Edit.apply plan

/-! ## A part of a plan -/

/-- The plan in which the rows of another stand between some rows and others. -/
def within (front back : List (Row σ)) (part : Plan σ) : Plan σ :=
  { part with rows := front ++ part.rows ++ back }

section Within

variable (front back : List (Row σ)) {part : Plan σ}

theorem getElem?_rows_within {position : Nat} (inside : position < part.rows.length) :
    (part.within front back).rows[front.length + position]? = part.rows[position]? := by
  rw [within, List.append_assoc, List.getElem?_append_right (Nat.le_add_right _ _),
    Nat.add_sub_cancel_left, List.getElem?_append_left inside]

theorem insertAt_within {position : Nat} (inside : position ≤ part.rows.length) (row : Row σ) :
    (part.within front back).insertAt (front.length + position) row =
      (part.insertAt position row).within front back := by
  rw [insertAt, insertAt, within, within, List.append_assoc, List.take_length_add_append,
    List.drop_length_add_append, List.take_append_of_le_length inside,
    List.drop_append_of_le_length inside, List.append_assoc, List.append_assoc, List.append_assoc,
    List.cons_append]

theorem eraseAt_within {position : Nat} (inside : position < part.rows.length) :
    (part.within front back).eraseAt (front.length + position) =
      (part.eraseAt position).within front back := by
  rw [eraseAt, eraseAt, within, within, List.append_assoc,
    List.eraseIdx_append_of_length_le (Nat.le_add_right _ _), Nat.add_sub_cancel_left,
    List.eraseIdx_append_of_lt_length inside, List.append_assoc]

theorem move?_within {source target : Nat} (inside : source < part.rows.length)
    (room : target < part.rows.length) :
    (part.within front back).move? (front.length + source) (front.length + target) =
      (part.move? source target).map (within front back) := by
  have wide : front.length + target < (part.within front back).rows.length := by
    rw [within, List.length_append, List.length_append]
    omega
  rw [move?, if_pos wide, move?, if_pos room, getElem?_rows_within front back inside,
    List.getElem?_eq_getElem inside, Option.map_some, Option.map_some, Option.map_some,
    eraseAt_within front back inside, insertAt_within front back (le_length_eraseAt inside room)]

theorem updateInterval_within {position : Nat} (inside : position < part.rows.length)
    (change : IntervalRow σ → IntervalRow σ) :
    ((part.within front back).updateInterval (front.length + position) change).1 =
      (part.updateInterval position change).1.within front back := by
  rw [updateInterval, updateInterval, getElem?_rows_within front back inside]
  split
  · rw [within, within, List.append_assoc, List.set_append_right _ _ (Nat.le_add_right _ _),
      Nat.add_sub_cancel_left, List.set_append_left _ _ inside, List.append_assoc]
  · rfl

/-- An edit inside a part of a plan is the edit of the part. -/
theorem apply_within {edit : Edit σ} (inside : edit.IsInside part.rows.length) :
    (edit.behind front.length).apply (part.within front back) =
      (edit.apply part).within front back := by
  cases edit with
  | insert position row => exact insertAt_within front back inside row
  | erase position => exact eraseAt_within front back inside
  | move source target =>
      rw [Edit.behind, Edit.apply, move?_within front back inside.1 inside.2, Edit.apply]
      cases part.move? source target <;> rfl
  | update position change => exact updateInterval_within front back inside change

end Within

/-! ## Many edits -/

/-- Edits that each lie among the rows that the edits before have left. -/
def AreInside : Plan σ → List (Edit σ) → Prop
  | _, [] => True
  | plan, edit :: rest =>
      edit.IsInside plan.rows.length ∧ AreInside (edit.apply plan) rest

instance decidableAreInside :
    (plan : Plan σ) → (edits : List (Edit σ)) → Decidable (plan.AreInside edits)
  | _, [] => isTrue trivial
  | plan, edit :: rest =>
      have := decidableAreInside (edit.apply plan) rest
      inferInstanceAs (Decidable (edit.IsInside plan.rows.length ∧ (edit.apply plan).AreInside rest))

/-- Edits inside a part of a plan are the edits of the part. -/
theorem edited_within (front back : List (Row σ)) {part : Plan σ} {edits : List (Edit σ)}
    (inside : part.AreInside edits) :
    (part.within front back).edited (edits.map (.behind front.length)) =
      (part.edited edits).within front back := by
  induction edits generalizing part with
  | nil => rfl
  | cons edit rest inductionHypothesis =>
      rw [edited, List.map_cons, List.foldl_cons, apply_within front back inside.1]
      exact inductionHypothesis inside.2

theorem group_mem_edited {plan : Plan σ} {edits : List (Edit σ)} {group : GroupRow}
    (member : .group group ∈ (plan.edited edits).rows) :
    .group group ∈ plan.rows ∨ .group group ∈ edits.filterMap Edit.added? := by
  induction edits generalizing plan with
  | nil => exact .inl member
  | cons edit rest inductionHypothesis =>
      rw [List.mem_filterMap]
      rcases inductionHypothesis member with before | later
      · rcases Edit.group_mem_apply before with there | added
        · exact .inl there
        · exact .inr ⟨edit, List.mem_cons_self, added⟩
      · rcases List.mem_filterMap.mp later with ⟨other, member, added⟩
        exact .inr ⟨other, List.mem_cons_of_mem edit member, added⟩

end Plan
end PracticePlan
