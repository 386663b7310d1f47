import Mathlib.Data.List.Basic
import PracticePlan.Notation.Basic

namespace PracticePlan
namespace Notation

/-!
# Gathering a report

A report can be gathered in one pass over the pieces of a text.  The pass keeps
one list of notes, to which every piece may add, and turns what is in it into
warnings behind each piece.  Readers that only add to the list, and leave what
they find in it alone, cannot be told from readers without a list
(`Report.gather_eq_ofPieces`), so that no note ever reaches another piece.

The rows and the warnings of a report stand in the order of the pieces, and a
warning has the number of its piece (`Report.IsPutTogether`).  Pieces behind
others therefore add their rows behind the other rows, and their warnings with
numbers that are raised by the count of the others
(`Report.IsPutTogether.append`).
-/

/-! ## Numbers of pieces -/

/-- The position that comes a number of pieces later. -/
def Position.raised (count : Nat) : Position → Position
  | line number => line (number + count)
  | item index => item (index + count)

/-- The warning for a piece that comes a number of pieces later. -/
def Warning.raised (count : Nat) (warning : Warning) : Warning :=
  { warning with position := warning.position.raised count }

variable {σ α : Type}

namespace Report

/-- A report that consists of what pieces contribute, in their order.  Pieces are
numbered from a first number on. -/
structure IsPutTogether (position : Nat → Position) (first : Nat)
    (contributions : List (Contribution σ)) (report : Report σ) : Prop where
  rows : report.plan.rows = contributions.filterMap Contribution.row?
  warnings : report.warnings = (contributions.zipIdx first).filterMap fun placed =>
    placed.1.warning? (position placed.2)

theorem map_swap_numbered (number : Nat) (read : α → Contribution σ) (pieces : List α) :
    (numbered number pieces).map (fun piece => (read piece.2, piece.1)) =
      (pieces.map read).zipIdx number := by
  induction pieces generalizing number with
  | nil => rfl
  | cons piece rest inductionHypothesis =>
      rw [numbered, List.map_cons, inductionHypothesis, List.map_cons, List.zipIdx_cons]

theorem isPutTogether_ofPieces (name : String) (position : Nat → Position) (first : Nat)
    (read : α → Contribution σ) (pieces : List α) :
    (ofPieces name position first read pieces).IsPutTogether position first (pieces.map read) := by
  refine ⟨rows_ofPieces name position first read pieces, ?_⟩
  rw [← map_swap_numbered, List.filterMap_map]
  exact List.filterMap_map

/-- Reports of pieces are joined when the pieces are. -/
theorem IsPutTogether.append {position : Nat → Position} {first : Nat}
    {earlier later : List (Contribution σ)} {front back whole : Report σ}
    (frontTold : front.IsPutTogether position first earlier)
    (backTold : back.IsPutTogether position first later)
    (wholeTold : whole.IsPutTogether position first (earlier ++ later))
    (raises : ∀ number, position (number + earlier.length) =
      (position number).raised earlier.length) :
    whole.plan.rows = front.plan.rows ++ back.plan.rows ∧
      whole.warnings = front.warnings ++ back.warnings.map (.raised earlier.length) := by
  constructor
  · rw [wholeTold.rows, frontTold.rows, backTold.rows, List.filterMap_append]
  · rw [wholeTold.warnings, frontTold.warnings, backTold.warnings, List.zipIdx_append,
      List.filterMap_append, List.map_filterMap]
    congr 1
    rw [Nat.add_comm first, ← List.map_snd_add_zipIdx_eq_zipIdx, List.filterMap_map]
    congr 1
    funext placed
    rw [Function.comp_apply, Contribution.warning?, Contribution.warning?, Option.map_map,
      Prod.map_snd, raises]
    rfl

end Report

/-! ## One list of notes -/

/-- Reading with a list of notes at hand.  A piece that gives no row is refused
with a note of its own. -/
abbrev Noting : Type → Type :=
  ExceptT Note (StateM (List Note))

namespace Noting

/-- Add a note to the list. -/
def note (note : Note) : Noting Unit :=
  modify (· ++ [note])

/-- What comes of reading with some notes in the list, and the list behind it. -/
def on (reading : Noting α) (notes : List Note) : Except Note α × List Note :=
  reading.run.run notes

/-- Whether reading gives what a piece contributes, whatever is in the list. -/
inductive Gives (reading : Noting (Option (Row σ))) : Contribution σ → Prop
  | nothing (read : ∀ notes, reading.on notes = (.ok none, notes)) : Gives reading .nothing
  | row {row : Row σ} {note? : Option Note}
      (read : ∀ notes, reading.on notes = (.ok (some row), notes ++ note?.toList)) :
      Gives reading ⟨some row, note?⟩
  | refused {note : Note} (read : ∀ notes, reading.on notes = (.error note, notes)) :
      Gives reading (.skipped note)

/-- A group, which must not be of level zero. -/
def group (level : UInt32) (name : String) : Noting (Option (Row σ)) :=
  match GroupRow.make? level name with
  | some row => pure (some (.group row))
  | none => throw .levelZero

theorem gives_nothing : (pure none : Noting (Option (Row σ))).Gives .nothing :=
  .nothing fun _ => rfl

theorem gives_row (row : Row σ) : (pure (some row) : Noting (Option (Row σ))).Gives (.ofRow row) :=
  .row fun notes => congrArg (Prod.mk _) (List.append_nil notes).symm

theorem gives_skipped (note : Note) :
    (throw note : Noting (Option (Row σ))).Gives (.skipped note) :=
  .refused fun _ => rfl

theorem gives_group (level : UInt32) (name : String) :
    (group level name : Noting (Option (Row σ))).Gives (.ofGroup level name) := by
  rw [group, Contribution.ofGroup]
  cases GroupRow.make? level name with
  | none => exact gives_skipped .levelZero
  | some row => exact gives_row (.group row)

/-- What is read with a note, and then made into a row, gives the row and the note. -/
theorem gives_bind {reading : Noting α} {value : α} {note? : Option Note}
    (read : ∀ notes, reading.on notes = (.ok value, notes ++ note?.toList)) (rowOf : α → Row σ) :
    (reading >>= fun value => pure (some (rowOf value)) : Noting (Option (Row σ))).Gives
      ⟨some (rowOf value), note?⟩ := by
  refine .row fun notes => ?_
  have first := read notes
  unfold on at first ⊢
  rw [ExceptT.run_bind, StateT.run_bind, first]
  rfl

end Noting

/-- What has been gathered behind a piece, and the notes that are no warnings yet. -/
structure Gathered (σ : Type) where
  rows : List (Row σ)
  warnings : List Warning
  notes : List Note

namespace Gathered

def empty : Gathered σ :=
  ⟨[], [], []⟩

/-- Read the piece at a position.  Its refusal is warned of before the notes are,
and the list of notes is empty behind it. -/
def further (gathered : Gathered σ) (position : Position) (reading : Noting (Option (Row σ))) :
    Gathered σ :=
  match reading.on gathered.notes with
  | (.ok row?, notes) =>
      ⟨gathered.rows ++ row?.toList, gathered.warnings ++ notes.map (.mk position), []⟩
  | (.error note, notes) =>
      ⟨gathered.rows, gathered.warnings ++ ⟨position, note⟩ :: notes.map (.mk position), []⟩

/-- A piece adds what it contributes, provided that no notes are left from
other pieces. -/
theorem further_of_gives {reading : Noting (Option (Row σ))} {contribution : Contribution σ}
    (gives : reading.Gives contribution) (rows : List (Row σ)) (warnings : List Warning)
    (position : Position) :
    further ⟨rows, warnings, []⟩ position reading =
      ⟨rows ++ contribution.row?.toList,
        warnings ++ (contribution.warning? position).toList, []⟩ := by
  cases gives with
  | nothing read =>
      rw [further, read]
      rfl
  | @row row note? read =>
      rw [further, read]
      cases note? <;> rfl
  | @refused note read =>
      rw [further, read]
      exact congrArg (Gathered.mk · _ []) (List.append_nil rows).symm

/-- Read pieces one after the other. -/
def through (gathered : Gathered σ) (position : Nat → Position)
    (reading : α → Noting (Option (Row σ))) (pieces : List (Nat × α)) : Gathered σ :=
  pieces.foldl (fun gathered piece => gathered.further (position piece.1) (reading piece.2))
    gathered

/-- The list of notes is empty in front of every piece, so that each adds what
it contributes by itself. -/
theorem through_of_gives {reading : α → Noting (Option (Row σ))} {read : α → Contribution σ}
    (gives : ∀ piece, (reading piece).Gives (read piece)) (position : Nat → Position)
    (pieces : List (Nat × α)) (rows : List (Row σ)) (warnings : List Warning) :
    through ⟨rows, warnings, []⟩ position reading pieces =
      ⟨rows ++ pieces.filterMap fun piece => (read piece.2).row?,
        warnings ++ pieces.filterMap fun piece => (read piece.2).warning? (position piece.1),
        []⟩ := by
  simp only [List.filterMap_eq_flatMap_toList]
  induction pieces generalizing rows warnings with
  | nil => rw [through, List.foldl_nil, List.flatMap_nil, List.flatMap_nil, List.append_nil,
      List.append_nil]
  | cons piece rest inductionHypothesis =>
      rw [through, List.foldl_cons, further_of_gives (gives piece.2), List.flatMap_cons,
        List.flatMap_cons, ← List.append_assoc, ← List.append_assoc]
      exact inductionHypothesis _ _

end Gathered

namespace Report

/-- Gather the report on pieces in one pass with one list of notes. -/
def gather (name : String) (position : Nat → Position) (first : Nat)
    (reading : α → Noting (Option (Row σ))) (pieces : List α) : Report σ :=
  let gathered := Gathered.empty.through position reading (numbered first pieces)
  ⟨⟨name, gathered.rows⟩, gathered.warnings⟩

/-- Gathering in one pass puts together what the pieces contribute. -/
theorem gather_eq_ofPieces {reading : α → Noting (Option (Row σ))} {read : α → Contribution σ}
    (gives : ∀ piece, (reading piece).Gives (read piece)) (name : String)
    (position : Nat → Position) (first : Nat) (pieces : List α) :
    gather name position first reading pieces = ofPieces name position first read pieces := by
  rw [gather, Gathered.empty, Gathered.through_of_gives gives, ofPieces, collect,
    List.filterMap_map, List.filterMap_map]
  rfl

end Report

end Notation
end PracticePlan
