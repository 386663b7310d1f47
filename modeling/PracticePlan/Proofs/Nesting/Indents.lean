import Mathlib.Data.List.ReduceOption
import Mathlib.Data.List.TakeWhile
import PracticePlan.Nesting

namespace PracticePlan
namespace Nesting

/-!
# Indentation without a stack

A row is indented by the level of the nearest group in front of it that encloses
it.  Any group encloses a row that is no group, and a group encloses the groups
of higher levels.  A row that no group encloses is not indented.  `IsIndent` says
this of the markers in front of a row, and the pass with the stack gives every
row the number that fits (`getElem?_indents_eq_some_iff`).

The stack does not keep all groups.  What it loses are groups closed by a later
one of the same or a lower level, and none of these is ever the nearest below a
bound, since the group that closed it is nearer and as low
(`find?_stillOpen`).
-/

/-! ## Groups that stay open -/

section Open

variable {α : Type} (levelOf : α → UInt32)

/-- The groups still open behind `past`.  Both list the last group first. -/
def stillOpen : List α → List α
  | [] => []
  | group :: earlier => group :: staying levelOf (levelOf group) (stillOpen earlier)

/-- The innermost group that stays open is the nearest one below the level. -/
theorem head?_staying (level : UInt32) (stack : List α) :
    (staying levelOf level stack).head? = stack.find? fun group => levelOf group < level := by
  rw [staying, ← List.find?_not_eq_head?_dropWhile]
  congr 1
  funext group
  rw [← decide_not, decide_eq_decide]
  exact UInt32.not_le

/-- Closing groups of a level or above does not hide those below it. -/
theorem find?_staying {bound level : UInt32} (low : bound ≤ level) (stack : List α) :
    (staying levelOf level stack).find? (fun group => levelOf group < bound) =
      stack.find? fun group => levelOf group < bound := by
  have closed : (stack.takeWhile fun group => level ≤ levelOf group).find?
      (fun group => levelOf group < bound) = none := by
    rw [List.find?_eq_none]
    intro group member
    have above : level ≤ levelOf group := by simpa using List.mem_takeWhile_imp member
    rw [decide_eq_true_eq]
    exact UInt32.not_lt.mpr (UInt32.le_trans low above)
  calc (staying levelOf level stack).find? (fun group => levelOf group < bound)
      = ((stack.takeWhile fun group => level ≤ levelOf group) ++
          staying levelOf level stack).find? (fun group => levelOf group < bound) := by
        rw [List.find?_append, closed, Option.none_or]
    _ = stack.find? fun group => levelOf group < bound := by
        rw [staying, List.takeWhile_append_dropWhile]

/-- Among all groups and among those still open the nearest one below a bound
is the same. -/
theorem find?_stillOpen (bound : UInt32) (past : List α) :
    (stillOpen levelOf past).find? (fun group => levelOf group < bound) =
      past.find? fun group => levelOf group < bound := by
  induction past with
  | nil => rfl
  | cons group earlier inductionHypothesis =>
      by_cases lower : levelOf group < bound
      · rw [stillOpen, List.find?_cons_of_pos (by simpa using lower),
          List.find?_cons_of_pos (by simpa using lower)]
      · rw [stillOpen, List.find?_cons_of_neg (by simpa using lower),
          List.find?_cons_of_neg (by simpa using lower),
          find?_staying levelOf (UInt32.not_lt.mp lower), inductionHypothesis]

theorem head?_stillOpen (past : List α) : (stillOpen levelOf past).head? = past.head? := by
  cases past <;> rfl

end Open

/-! ## The stack -/

/-- The outermost entry of the stack stands for the plan itself and is never closed. -/
theorem close_append_zero (level : UInt32) (groups : List UInt32) :
    close level (groups ++ [0]) = staying id level groups ++ [0] := by
  induction groups with
  | nil => rfl
  | cons top outer inductionHypothesis =>
      obtain ⟨next, rest, split⟩ : ∃ next rest, outer ++ [0] = next :: rest :=
        List.exists_cons_of_ne_nil (List.append_ne_nil_of_right_ne_nil outer (List.cons_ne_nil 0 []))
      rw [split] at inductionHypothesis
      rw [List.cons_append, split, close]
      by_cases closed : level ≤ top
      · rw [if_pos closed, inductionHypothesis, staying, staying,
          List.dropWhile_cons_of_pos (by simpa using closed)]
      · rw [if_neg closed, staying, List.dropWhile_cons_of_neg (by simpa using closed),
          List.cons_append, split]

theorem headD_append_zero (groups : List UInt32) :
    (groups ++ [0]).headD 0 = groups.head?.getD 0 := by
  cases groups <;> rfl

/-! ## The nearest enclosing group -/

/-- Whether a group of a level encloses what a marker stands for. -/
def Encloses : Option UInt32 → UInt32 → Prop
  | none, _ => True
  | some own, level => level < own

instance (marker : Option UInt32) (level : UInt32) : Decidable (Encloses marker level) :=
  match marker with
  | none => isTrue trivial
  | some own => inferInstanceAs (Decidable (level < own))

/-- The indentation of a marker behind others: the level of the nearest group
that encloses it, and zero when none does. -/
inductive IsIndent (before : List (Option UInt32)) (marker : Option UInt32) : UInt32 → Prop
  | inside {front back : List (Option UInt32)} {level : UInt32}
      (split : before = front ++ some level :: back) (encloses : Encloses marker level)
      (nearest : ∀ other, some other ∈ back → ¬ Encloses marker other) :
      IsIndent before marker level
  | outside (nowhere : ∀ level, some level ∈ before → ¬ Encloses marker level) :
      IsIndent before marker 0

/-- The levels of the groups among markers, the last one first. -/
def past (before : List (Option UInt32)) : List UInt32 :=
  before.reduceOption.reverse

theorem past_none_cons (rest : List (Option UInt32)) : past (none :: rest) = past rest := by
  rw [past, List.reduceOption_cons_of_none, past]

theorem past_some_cons (level : UInt32) (rest : List (Option UInt32)) :
    past (some level :: rest) = past rest ++ [level] := by
  rw [past, List.reduceOption_cons_of_some, List.reverse_cons, past]

theorem mem_past_iff {level : UInt32} {before : List (Option UInt32)} :
    level ∈ past before ↔ some level ∈ before := by
  rw [past, List.mem_reverse, List.reduceOption_mem_iff]

theorem past_append_cons (front back : List (Option UInt32)) (level : UInt32) :
    past (front ++ some level :: back) = past back ++ level :: past front := by
  rw [past, List.reduceOption_append, List.reduceOption_cons_of_some, List.reverse_append,
    List.reverse_cons, List.append_assoc, List.singleton_append, past, past]

/-- Where a level stands among the past ones, a group of that level stands among the markers. -/
theorem exists_split_of_past {before : List (Option UInt32)} {later earlier : List UInt32}
    {level : UInt32} (levels : past before = later ++ level :: earlier) :
    ∃ front back, before = front ++ some level :: back ∧ past back = later := by
  have forward : before.filterMap id = earlier.reverse ++ level :: later.reverse := by
    have whole := congrArg List.reverse levels
    rwa [past, List.reverse_reverse, List.reverse_append, List.reverse_cons, List.append_assoc,
      List.singleton_append] at whole
  rcases List.filterMap_eq_append_iff.mp forward with ⟨front, rest, rfl, -, behind⟩
  rcases List.filterMap_eq_cons_iff.mp behind with ⟨plain, marked, back, rfl, -, here, others⟩
  obtain rfl : marked = some level := here
  refine ⟨front ++ plain, back, (List.append_assoc front plain _).symm, ?_⟩
  rw [past, List.reduceOption, others, List.reverse_reverse]

theorem find?_past_eq_none_iff {before : List (Option UInt32)} {marker : Option UInt32} :
    (past before).find? (fun level => Encloses marker level) = none ↔
      ∀ level, some level ∈ before → ¬ Encloses marker level := by
  simp only [List.find?_eq_none, mem_past_iff, decide_eq_true_eq]

/-- The level of the first group that encloses a marker. -/
def indentBehind (past : List UInt32) (marker : Option UInt32) : UInt32 :=
  (past.find? fun level => Encloses marker level).getD 0

theorem indentBehind_of_isIndent {before : List (Option UInt32)} {marker : Option UInt32}
    {indent : UInt32} (fits : IsIndent before marker indent) :
    indentBehind (past before) marker = indent := by
  unfold indentBehind
  cases fits with
  | inside split encloses nearest =>
      rw [split, past_append_cons, List.find?_append, find?_past_eq_none_iff.mpr nearest,
        Option.none_or, List.find?_cons_of_pos (by simpa using encloses), Option.getD_some]
  | outside nowhere => rw [find?_past_eq_none_iff.mpr nowhere, Option.getD_none]

theorem isIndent_indentBehind (before : List (Option UInt32)) (marker : Option UInt32) :
    IsIndent before marker (indentBehind (past before) marker) := by
  unfold indentBehind
  cases found : (past before).find? fun level => Encloses marker level with
  | none => exact .outside (find?_past_eq_none_iff.mp found)
  | some level =>
      rcases List.find?_eq_some_iff_append.mp found with ⟨encloses, later, earlier, split, missed⟩
      rcases exists_split_of_past split with ⟨front, back, whole, behind⟩
      refine .inside whole (of_decide_eq_true encloses) fun other member => ?_
      have passed : other ∈ later := behind ▸ mem_past_iff.mpr member
      simpa using missed other passed

theorem isIndent_iff {before : List (Option UInt32)} {marker : Option UInt32} {indent : UInt32} :
    IsIndent before marker indent ↔ indentBehind (past before) marker = indent := by
  constructor
  · exact indentBehind_of_isIndent
  · rintro rfl
    exact isIndent_indentBehind before marker

/-! ## The pass -/

/-- The stack when the groups of `past` have been seen, the last one first. -/
def stackBehind (past : List UInt32) : List UInt32 :=
  stillOpen id past ++ [0]

/-- A row that is no group is indented by the last group and leaves the stack alone. -/
theorem indentsFrom_none (past : List UInt32) (rest : List (Option UInt32)) :
    indentsFrom (stackBehind past) (none :: rest) =
      indentBehind past none :: indentsFrom (stackBehind past) rest := by
  rw [indentsFrom, stackBehind, headD_append_zero, head?_stillOpen, indentBehind]
  cases past with
  | nil => rfl
  | cons level earlier =>
      have around : Encloses none level := trivial
      rw [List.find?_cons_of_pos (by simpa using around), List.head?_cons]

/-- A group is indented by the nearest one below it and goes on the stack. -/
theorem indentsFrom_some (past : List UInt32) (level : UInt32)
    (rest : List (Option UInt32)) :
    indentsFrom (stackBehind past) (some level :: rest) =
      indentBehind past (some level) :: indentsFrom (stackBehind (level :: past)) rest := by
  have around : ((staying id level (stillOpen id past)).head?).getD 0 =
      indentBehind past (some level) := by
    rw [head?_staying, find?_stillOpen]
    rfl
  rw [indentsFrom, stackBehind, close_append_zero, headD_append_zero, around]
  rfl

theorem getElem?_indentsFrom (seen : List UInt32) (markers : List (Option UInt32)) (index : Nat) :
    (indentsFrom (stackBehind seen) markers)[index]? =
      markers[index]?.map (indentBehind (past (markers.take index) ++ seen)) := by
  -- The groups seen so far stand for the stack, so that they vary with the markers.
  induction markers generalizing seen index with
  | nil => rfl
  | cons marker rest inductionHypothesis =>
      cases marker with
      | none =>
          rw [indentsFrom_none]
          cases index with
          | zero => rfl
          | succ index =>
              rw [List.getElem?_cons_succ, inductionHypothesis, List.getElem?_cons_succ,
                List.take_succ_cons, past_none_cons]
      | some level =>
          rw [indentsFrom_some]
          cases index with
          | zero => rfl
          | succ index =>
              rw [List.getElem?_cons_succ, inductionHypothesis, List.getElem?_cons_succ,
                List.take_succ_cons, past_some_cons, List.append_assoc, List.singleton_append]

/-- Every marker has one indentation, which is the level of the nearest group
in front of it that encloses it. -/
theorem getElem?_indents_eq_some_iff (markers : List (Option UInt32)) :
    (indents markers).length = markers.length ∧
      ∀ (index : Nat) (indent : UInt32), (indents markers)[index]? = some indent ↔
        ∃ marker, markers[index]? = some marker ∧ IsIndent (markers.take index) marker indent := by
  refine ⟨length_indents markers, fun index indent => ?_⟩
  have read := getElem?_indentsFrom [] markers index
  rw [List.append_nil] at read
  rw [indents, show [0] = stackBehind [] from rfl, read, Option.map_eq_some_iff]
  simp only [isIndent_iff]

example : indents [none, some 2, some 4, none, some 3, some 2] = [0, 0, 2, 4, 2, 0] := by
  decide

end Nesting
end PracticePlan
