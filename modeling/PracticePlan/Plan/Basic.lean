import PracticePlan.Nesting
import PracticePlan.Plan.Row
import PracticePlan.Text.Numeral

namespace PracticePlan

/-!
# Plans

A plan has a name and rows.  Editing a plan is editing a list: rows are added,
taken out and moved by their position, and a position that does not exist
either means the end or changes nothing.

Indentation, the groups around a row and the label of a row are computed from
the rows when they are needed, so no edit can leave them out of date.
-/

/-- A practice plan. -/
structure Plan (σ : Type) where
  name : String
  rows : List (Row σ)

namespace Plan

variable {σ : Type} [IntervalSettings σ]

def empty (name : String) : Plan σ :=
  ⟨name, []⟩

def push (plan : Plan σ) (row : Row σ) : Plan σ :=
  { plan with rows := plan.rows ++ [row] }

/-- Add a row in front of a position, or at the end when there is no such
position. -/
def insertAt (plan : Plan σ) (position : Nat) (row : Row σ) : Plan σ :=
  { plan with rows := plan.rows.take position ++ row :: plan.rows.drop position }

/-- The plan without the row at a position. -/
def eraseAt (plan : Plan σ) (position : Nat) : Plan σ :=
  { plan with rows := plan.rows.eraseIdx position }

/-- Move the row at one position so that it ends up at another, when both exist. -/
def move? (plan : Plan σ) (source target : Nat) : Option (Plan σ) :=
  if target < plan.rows.length then
    (plan.rows[source]?).map fun row => (plan.eraseAt source).insertAt target row
  else none

/-- Change the interval at a position.  The answer tells whether there is one. -/
def updateInterval (plan : Plan σ) (position : Nat) (update : IntervalRow σ → IntervalRow σ) :
    Plan σ × Bool :=
  match plan.rows[position]? with
  | some (.interval row) =>
      ({ plan with rows := plan.rows.set position (.interval (update row)) }, true)
  | _ => (plan, false)

/-- The intervals of rows, numbered from a position on. -/
def intervalsFrom (position : Nat) : List (Row σ) → List (Nat × IntervalRow σ)
  | [] => []
  | .interval row :: rest => (position, row) :: intervalsFrom (position + 1) rest
  | .group _ :: rest => intervalsFrom (position + 1) rest

def intervals (plan : Plan σ) : List (Nat × IntervalRow σ) :=
  intervalsFrom 0 plan.rows

def indents (plan : Plan σ) : List UInt32 :=
  Nesting.indents (plan.rows.map Row.level?)

/-- The groups around a position, outermost first. -/
def groupsAround (plan : Plan σ) (position : Nat) : List GroupRow :=
  Nesting.openBefore GroupRow.level (plan.rows.map Row.group?) position

/-- The names of the groups around a position, outermost first. -/
def groupPath (plan : Plan σ) (position : Nat) : List String :=
  (plan.groupsAround position).map GroupRow.name

/-- What a row calls itself.  An interval without a task, and a position
without a row, are called by their number. -/
def ownName (plan : Plan σ) (position : Nat) : String :=
  let numbered := "interval #" ++ String.ofList (Text.digitsOf (position + 1))
  match plan.rows[position]? with
  | some (.interval row) => if row.task.isEmpty then numbered else row.task
  | some (.group row) => row.name
  | none => numbered

/-- The name of a row after the names of the groups around it. -/
def label (plan : Plan σ) (position : Nat) : String :=
  Text.joined " / " (plan.groupPath position ++ [plan.ownName position])

def same (first second : Plan σ) : Bool :=
  first.name == second.name && Row.sameAll first.rows second.rows

end Plan
end PracticePlan
