import PracticePlan.Notation.Basic
import PracticePlan.Notation.Literal

namespace PracticePlan
namespace Notation
namespace Line

/-!
# Plans as lines

A line that starts with number signs is a group, whose level is their count and
whose name is the rest.  Every other line is an interval: a duration, a task, a
feature type and its arguments, divided by commas, perhaps with a settings
literal at the end.  Blanks around fields do not count, and there is no quoting
of any kind.

A line is refused only when its duration is more than one token.  Whether the
token is a duration is not looked at.  A literal that its category knows but
cannot accept is dropped with a note.

Writing refuses the intervals that could not be read back for one of three
reasons: a duration that is not a single token, a comma inside a field, and a
last field that looks like settings although the settings have no literal.
-/

variable {σ φ : Type} [IntervalSettings σ]

/-! ## Reading -/

/-- The fields of a line once its literal has been taken off. -/
structure Fields (σ : Type) where
  values : List String
  settings? : Option σ
  note? : Option Note

/-- Take the literal off the fields of a line. -/
def takeLiteral (registry : Registry σ φ) (standard : Category σ φ) (fields : List String) :
    Fields σ :=
  match fields.getLast?.bind fun last => lastLiteral? registry standard fields last.toList with
  | none => ⟨fields, none, none⟩
  | some (_, .ok settings) => ⟨fields.dropLast, some settings, none⟩
  | some (body, .error cause) => ⟨fields.dropLast, none, some (.ignoredLiteral body cause)⟩

/-- The interval with a duration and fields. -/
def intervalOf (registry : Registry σ φ) (standard : Category σ φ) (duration : List Char)
    (fields : Fields σ) : IntervalRow σ :=
  let resolved := resolve registry standard (fields.values.tail.headD "")
  { duration := if duration.isEmpty then IntervalRow.standardDuration else String.ofList duration
    task := fields.values.headD ""
    categoryName := resolved.1.name
    featureType := resolved.2
    arguments := fields.values.drop 2
    settings := fields.settings?.getD resolved.1.defaultSettings }

/-- The text in front of the first comma and the trimmed fields after it. -/
def cutFields (line : List Char) : List Char × List String :=
  match Text.cut? ',' line with
  | some (head, tail) =>
      (head, (Text.pieces ',' tail).map fun piece => String.ofList (Text.trim piece))
  | none => (line, [])

/-- Read a line that is neither blank nor a group. -/
def readInterval (registry : Registry σ φ) (standard : Category σ φ) (line : List Char) :
    Contribution σ :=
  let parts := cutFields line
  let duration := Text.trim parts.1
  if duration.any Text.isBlank then .skipped (.unrecognized (String.ofList line))
  else
    let fields := takeLiteral registry standard parts.2
    ⟨some (.interval (intervalOf registry standard duration fields)), fields.note?⟩

def read (registry : Registry σ φ) (standard : Category σ φ) (line : List Char) :
    Contribution σ :=
  let trimmed := Text.trim line
  match trimmed with
  | [] => .nothing
  | '#' :: _ =>
      let signs := trimmed.takeWhile (· = '#')
      let name := Text.trim (trimmed.dropWhile (· = '#'))
      .ofGroup (UInt32.ofNat signs.length) (String.ofList name)
  | _ => readInterval registry standard trimmed

/-- Read a plan.  Plans in lines have no name. -/
def readPlan (registry : Registry σ φ) (standard : Category σ φ) (text : String) : Report σ :=
  .ofPieces "" .line 1 (read registry standard) (Text.lines text.toList)

/-! ## Writing -/

def groupChars (row : GroupRow) : List Char :=
  List.replicate row.level.toNat '#' ++ (if row.name.isEmpty then [] else ' ' :: row.name.toList)

/-- Whether a text is a single token that starts no group. -/
def isToken (duration : List Char) : Bool :=
  duration.head? ≠ some '#' && duration.all fun c => c ≠ ',' && !Text.isBlank c

/-- The fields of an interval without its literal. -/
def plainFields (standard : Category σ φ) (row : IntervalRow σ) : List String :=
  let field := fieldOf standard row.categoryName row.featureType
  if field.isEmpty && row.arguments.isEmpty then [row.task]
  else row.task :: field :: row.arguments

/-- The literal that the last of the fields would be taken for. -/
def mistaken? (registry : Registry σ φ) (standard : Category σ φ) (fields : List String) :
    Option String :=
  fields.getLast?.bind fun last =>
    (lastLiteral? registry standard fields (Text.trim last.toList)).map Prod.fst

/-- All fields of an interval, or the reason why they cannot be written. -/
def fieldsOf (registry : Registry σ φ) (standard : Category σ φ) (row : IntervalRow σ) :
    Except Obstacle (List String) :=
  let fields := plainFields standard row
  match fields.find? fun field => field.toList.contains ',' with
  | some field => .error (.comma field)
  | none => match IntervalSettings.literal? row.settings with
      | some literal => .ok (fields ++ ["@" ++ literal])
      | none => match mistaken? registry standard fields with
          | some literal => .error (.literal literal)
          | none => .ok fields

/-- A duration and fields as a line.  A single empty field is left out. -/
def joinFields (duration : String) (fields : List String) : List Char :=
  let written := if fields = [""] then [] else fields
  Text.trimEnd (duration.toList ++ written.flatMap fun field => ',' :: ' ' :: field.toList)

def intervalChars (registry : Registry σ φ) (standard : Category σ φ) (row : IntervalRow σ) :
    Except Obstacle (List Char) :=
  if isToken row.duration.toList then
    (fieldsOf registry standard row).map (joinFields row.duration)
  else .error (.duration row.duration)

def rowChars (registry : Registry σ φ) (standard : Category σ φ) :
    Row σ → Except Obstacle (List Char)
  | .group row => .ok (groupChars row)
  | .interval row => intervalChars registry standard row

/-- Rows, each with its line end, numbered from a position on. -/
def rowsChars (registry : Registry σ φ) (standard : Category σ φ) (position : Nat) :
    List (Row σ) → Except FormatError (List Char)
  | [] => .ok []
  | row :: rest =>
      match rowChars registry standard row with
      | .error obstacle => .error (.unrepresentable position obstacle)
      | .ok line => (rowsChars registry standard (position + 1) rest).map fun others =>
          line ++ '\n' :: others

/-- Write a plan.  Its name is left out. -/
def writePlan (registry : Registry σ φ) (standard : Category σ φ) (plan : Plan σ) :
    Except FormatError String :=
  (rowsChars registry standard 0 plan.rows).map String.ofList

end Line
end Notation
end PracticePlan
