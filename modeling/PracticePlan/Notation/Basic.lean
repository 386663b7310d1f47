import PracticePlan.Plan.Basic
import PracticePlan.Json.Reader

namespace PracticePlan
namespace Notation

/-!
# Notations of plans

A plan is written in one of two notations: lines of text, or JSON.  Both are
read piece by piece.  A piece is a line or an item, and it contributes at most
one row and at most one note about what was skipped or ignored.  What a piece
contributes depends on nothing but the piece, so a report is put together from
the contributions in their order.

Only a text that is not a JSON document with items cannot be read at all, and
only rows that the line notation cannot express cannot be written.
-/

/-- The two notations. -/
inductive Format where
  | text
  | json
deriving DecidableEq, Repr

/-- Where a piece stands: a line counted from one, or an item counted from
zero. -/
inductive Position where
  | line (number : Nat)
  | item (index : Nat)
deriving DecidableEq, Repr

namespace Position

def toText : Position → String
  | line number => "line " ++ String.ofList (Text.digitsOf number)
  | item index => "item " ++ String.ofList (Text.digitsOf index)

end Position

/-- What was skipped or ignored in a piece. -/
inductive Note where
  | unrecognized (line : String)
  | levelZero
  | ignoredLiteral (literal : String) (cause : SettingsError)
  | malformed (cause : Json.ShapeError)
  | unregistered (category : String)
  | defaultSettings (cause : SettingsError)

namespace Note

def message : Note → String
  | unrecognized line => "unrecognized line " ++ Text.quoted line
  | levelZero => GroupRow.levelFault
  | ignoredLiteral literal cause => "ignoring settings @" ++ literal ++ ": " ++ cause.message
  | malformed cause => "malformed item: " ++ cause.message
  | unregistered category => "unregistered category " ++ Text.quoted category
  | defaultSettings cause => "using default settings: " ++ cause.message

end Note

/-- A note and where it applies. -/
structure Warning where
  position : Position
  note : Note

namespace Warning

def toText (warning : Warning) : String :=
  warning.position.toText ++ ": " ++ warning.note.message

end Warning

/-- What one piece contributes to a report. -/
structure Contribution (σ : Type) where
  row? : Option (Row σ)
  note? : Option Note

namespace Contribution

variable {σ : Type}

def nothing : Contribution σ :=
  ⟨none, none⟩

def ofRow (row : Row σ) : Contribution σ :=
  ⟨some row, none⟩

/-- A note about a piece that gives no row. -/
def skipped (note : Note) : Contribution σ :=
  ⟨none, some note⟩

/-- The group row of a level and a name, which must not be level zero. -/
def ofGroup (level : UInt32) (name : String) : Contribution σ :=
  match GroupRow.make? level name with
  | some row => ofRow (.group row)
  | none => skipped .levelZero

/-- The group that is contributed has a level. -/
theorem row?_ofGroup {level : UInt32} {name : String} {row : Row σ}
    (given : (ofGroup level name).row? = some row) : level ≠ 0 ∧ row = .group ⟨level, name⟩ := by
  by_cases zero : level = 0
  · rw [ofGroup, GroupRow.make?, if_pos zero] at given
    exact nomatch given
  · rw [ofGroup, GroupRow.make?, if_neg zero] at given
    exact ⟨zero, (Option.some.inj given).symm⟩

def warning? (position : Position) (contribution : Contribution σ) : Option Warning :=
  contribution.note?.map fun note => ⟨position, note⟩

end Contribution

/-- A plan that was read, and what was skipped or ignored on the way. -/
structure Report (σ : Type) where
  plan : Plan σ
  warnings : List Warning

namespace Report

variable {σ : Type}

def collect (name : String) (pieces : List (Position × Contribution σ)) : Report σ :=
  ⟨⟨name, pieces.filterMap fun piece => piece.2.row?⟩,
    pieces.filterMap fun piece => piece.2.warning? piece.1⟩

/-- Give every piece its number, counting on from a first one. -/
def numbered {α : Type} (number : Nat) : List α → List (Nat × α)
  | [] => []
  | piece :: rest => (number, piece) :: numbered (number + 1) rest

/-- Read pieces one by one and put together what they contribute. -/
def ofPieces {α : Type} (name : String) (position : Nat → Position) (first : Nat)
    (read : α → Contribution σ) (pieces : List α) : Report σ :=
  collect name ((numbered first pieces).map fun piece => (position piece.1, read piece.2))

/-- The contributions to a report are those of its pieces, whatever their numbers. -/
theorem map_snd_numbered {α : Type} (position : Nat → Position) (number : Nat)
    (read : α → Contribution σ) (pieces : List α) :
    ((numbered number pieces).map fun piece => (position piece.1, read piece.2)).map Prod.snd =
      pieces.map read := by
  induction pieces generalizing number with
  | nil => rfl
  | cons piece rest inductionHypothesis =>
      rw [numbered, List.map_cons, List.map_cons, List.map_cons, inductionHypothesis]

/-- The rows of a report do not depend on where the pieces stand. -/
theorem rows_ofPieces {α : Type} (name : String) (position : Nat → Position) (first : Nat)
    (read : α → Contribution σ) (pieces : List α) :
    (ofPieces name position first read pieces).plan.rows =
      (pieces.map read).filterMap Contribution.row? := by
  rw [← map_snd_numbered position first read pieces, List.filterMap_map]
  rfl

/-- A report warns of nothing when no piece has a note. -/
theorem warnings_ofPieces_eq_nil_iff {α : Type} (name : String) (position : Nat → Position)
    (first : Nat) (read : α → Contribution σ) (pieces : List α) :
    (ofPieces name position first read pieces).warnings = [] ↔
      ∀ contribution ∈ pieces.map read, contribution.note? = none := by
  rw [← map_snd_numbered position first read pieces, ofPieces, collect]
  generalize (numbered first pieces).map _ = placed
  rw [List.filterMap_eq_nil_iff, List.forall_mem_map]
  exact forall₂_congr fun _ _ => Option.map_eq_none_iff

end Report

/-- Why the line notation cannot express a row. -/
inductive Obstacle where
  | duration (text : String)
  | comma (field : String)
  | literal (text : String)
deriving DecidableEq, Repr

namespace Obstacle

def message : Obstacle → String
  | duration text => "duration " ++ Text.quoted text ++ " is not a single token"
  | comma field => "field " ++ Text.quoted field ++ " contains a comma"
  | literal text => "trailing field @" ++ text ++ " would be read back as settings"

end Obstacle

/-- Why a plan cannot be read or written. -/
inductive FormatError where
  | invalidJson (fault : Json.Fault)
  | notAnObject
  | missingItems
  | unknownCategory (name : String)
  | unknownFormat (name : String)
  | unrepresentable (row : Nat) (obstacle : Obstacle)
deriving DecidableEq, Repr

namespace FormatError

/-- The wording of an error.  Where a text stops being JSON is not told. -/
def message : FormatError → String
  | invalidJson _ => "malformed JSON"
  | notAnObject => "schedule document must be a JSON object"
  | missingItems => "schedule document has no \"items\" array"
  | unknownCategory name => "category " ++ Text.quoted name ++ " is not registered"
  | unknownFormat name => "unknown schedule format " ++ Text.quoted name
  | unrepresentable row obstacle =>
      "row " ++ String.ofList (Text.digitsOf row) ++ " cannot be written as text: " ++
        obstacle.message

end FormatError

end Notation
end PracticePlan
