namespace PracticePlan
namespace Nesting

/-!
# Nesting of groups

The rows of a plan are flat.  Their nesting follows from the levels of the
group rows alone: a group closes every open group whose level is not below its
own, and stays open until such a group follows.  Levels may jump, repeat and
start anywhere.

Two questions are answered, each by one pass with a stack whose innermost
level is at the head.  `indents` gives every row the level of the group around
it, which is how far the row is indented.  `openBefore` lists the groups around
a given row.  Both work on markers, `some level` for a group and `none` for
any other row, so neither depends on what rows are.
-/

/-- Close the groups whose level is not below `level`.  The outermost entry is
never closed. -/
def close (level : UInt32) : List UInt32 → List UInt32
  | top :: next :: outer =>
      if level ≤ top then close level (next :: outer) else top :: next :: outer
  | outermost => outermost

/-- The indentation of each marker when the levels of `stack` are open. -/
def indentsFrom (stack : List UInt32) : List (Option UInt32) → List UInt32
  | [] => []
  | none :: rest => stack.headD 0 :: indentsFrom stack rest
  | some level :: rest =>
      let around := close level stack
      around.headD 0 :: indentsFrom (level :: around) rest

/-- The indentation of each marker of a plan. -/
def indents (markers : List (Option UInt32)) : List UInt32 :=
  indentsFrom [0] markers

theorem length_indentsFrom (stack : List UInt32) (markers : List (Option UInt32)) :
    (indentsFrom stack markers).length = markers.length := by
  induction markers generalizing stack with
  | nil => rfl
  | cons marker rest inductionHypothesis =>
      cases marker <;> simp [indentsFrom, inductionHypothesis]

theorem length_indents (markers : List (Option UInt32)) :
    (indents markers).length = markers.length :=
  length_indentsFrom [0] markers

variable {α : Type}

/-- The open groups, innermost first, that stay open when a group of `level`
follows. -/
def staying (levelOf : α → UInt32) (level : UInt32) (stack : List α) : List α :=
  stack.dropWhile fun group => level ≤ levelOf group

/-- The groups around the row at `index`, innermost first, when those of
`stack` are open.  Past the end they are the groups still open there. -/
def openFrom (levelOf : α → UInt32) (stack : List α) : List (Option α) → Nat → List α
  | [], _ => stack
  | none :: _, 0 => stack
  | some group :: _, 0 => staying levelOf (levelOf group) stack
  | none :: rest, index + 1 => openFrom levelOf stack rest index
  | some group :: rest, index + 1 =>
      openFrom levelOf (group :: staying levelOf (levelOf group) stack) rest index

/-- The groups around the row at `index`, outermost first. -/
def openBefore (levelOf : α → UInt32) (rows : List (Option α)) (index : Nat) : List α :=
  (openFrom levelOf [] rows index).reverse

end Nesting
end PracticePlan
