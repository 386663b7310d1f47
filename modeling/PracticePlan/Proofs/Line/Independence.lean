import PracticePlan.Catalog.Basic
import PracticePlan.Notation.Convert
import PracticePlan.Proofs.Line.Parts
import PracticePlan.Proofs.Report.Gathering
import PracticePlan.Proofs.Text.Cutting

namespace PracticePlan
namespace Notation
namespace Line

/-!
# Lines are read one by one

Whatever a line says is settled by the line itself.  A blank line says nothing.
Any other line gives one row, perhaps with a note about a literal that was
ignored, or it gives no row and one note that tells why (`IsYield`).

Nothing passes from one line to another.  Reading with one list of notes, which
all lines share, gives the same report (`gather_readNoting`), and a text that has
ended is read in front of another text as it is read alone, with the lines of
the other text numbered on (`readPlan_line_by_line`).
-/

variable {σ φ : Type}

/-! ## One list of notes -/

/-- Take the literal off the fields of a line, with a note when it is ignored. -/
def takeNoting (registry : Registry σ φ) (standard : Category σ φ) (fields : List String) :
    Noting (Fields σ) :=
  match fields.getLast?.bind fun last => lastLiteral? registry standard fields last.toList with
  | none => pure ⟨fields, none, none⟩
  | some (_, .ok settings) => pure ⟨fields.dropLast, some settings, none⟩
  | some (body, .error cause) => do
      Noting.note (.ignoredLiteral body cause)
      pure ⟨fields.dropLast, none, none⟩

/-- Read a line that is neither blank nor a group. -/
def readIntervalNoting (registry : Registry σ φ) (standard : Category σ φ) (line : List Char) :
    Noting (Option (Row σ)) := do
  let parts := cutFields line
  let duration := Text.trim parts.1
  if duration.any Text.isBlank then throw (.unrecognized (String.ofList line))
  let fields ← takeNoting registry standard parts.2
  return some (.interval (intervalOf registry standard duration fields))

/-- Read a line with a list of notes at hand. -/
def readNoting (registry : Registry σ φ) (standard : Category σ φ) (line : List Char) :
    Noting (Option (Row σ)) :=
  let trimmed := Text.trim line
  if trimmed = [] then pure none
  else if trimmed.head? = some '#' then
    let signs := trimmed.takeWhile (· = '#')
    let name := Text.trim (trimmed.dropWhile (· = '#'))
    .group (UInt32.ofNat signs.length) (String.ofList name)
  else readIntervalNoting registry standard trimmed

variable {registry : Registry σ φ} {standard : Category σ φ}

/-- A literal that is ignored leaves a note in the list, and nothing else does. -/
theorem on_takeNoting (fields : List String) (notes : List Note) :
    (takeNoting registry standard fields).on notes =
      (.ok { takeLiteral registry standard fields with note? := none },
        notes ++ (takeLiteral registry standard fields).note?.toList) := by
  unfold takeNoting takeLiteral
  rcases fields.getLast?.bind _ with _ | ⟨body, cause | settings⟩
  · exact congrArg (Prod.mk _) (List.append_nil notes).symm
  · rfl
  · exact congrArg (Prod.mk _) (List.append_nil notes).symm

theorem gives_readIntervalNoting (line : List Char) :
    (readIntervalNoting registry standard line).Gives (readInterval registry standard line) := by
  unfold readIntervalNoting readInterval
  dsimp only
  split
  · exact Noting.gives_skipped _
  · exact Noting.gives_bind (on_takeNoting (cutFields line).2) fun fields =>
      .interval (intervalOf registry standard (Text.trim (cutFields line).1) fields)

theorem gives_readNoting (line : List Char) :
    (readNoting registry standard line).Gives (read registry standard line) := by
  unfold readNoting
  dsimp only
  cases trimmed : Text.trim line with
  | nil =>
      rw [if_pos rfl, read, trimmed]
      exact Noting.gives_nothing
  | cons first rest =>
      rw [if_neg (List.cons_ne_nil first rest), List.head?_cons]
      by_cases sign : first = '#'
      · subst sign
        rw [if_pos rfl, read, trimmed]
        exact Noting.gives_group _ _
      · rw [if_neg fun same => sign (Option.some.inj same), read_of_trim trimmed sign]
        exact gives_readIntervalNoting (first :: rest)

theorem gather_readNoting (registry : Registry σ φ) (standard : Category σ φ) (text : String) :
    Report.gather "" .line 1 (readNoting registry standard) (Text.lines text.toList) =
      readPlan registry standard text :=
  Report.gather_eq_ofPieces gives_readNoting "" .line 1 _

/-! ## What a line gives -/

/-- What a line may contribute.  A blank line contributes nothing.  Any other
contributes a row, possibly with a note that its literal was ignored, or no row
and one note. -/
inductive IsYield (line : List Char) : Contribution σ → Prop
  | blank (blank : ∀ c ∈ line, Text.isBlank c = true) : IsYield line ⟨none, none⟩
  | row (shown : ∃ c ∈ line, Text.isBlank c = false) (row : Row σ) : IsYield line ⟨some row, none⟩
  | ignoring (shown : ∃ c ∈ line, Text.isBlank c = false) (row : Row σ) (literal : String)
      (cause : SettingsError) : IsYield line ⟨some row, some (.ignoredLiteral literal cause)⟩
  | levelZero (shown : ∃ c ∈ line, Text.isBlank c = false) : IsYield line ⟨none, some .levelZero⟩
  | unrecognized (shown : ∃ c ∈ line, Text.isBlank c = false) :
      IsYield line ⟨none, some (.unrecognized (String.ofList (Text.trim line)))⟩

theorem isYield_read (line : List Char) : IsYield line (read registry standard line) := by
  by_cases blank : ∀ c ∈ line, Text.isBlank c = true
  · rw [read_blank blank]
    exact .blank blank
  · have shown : ∃ c ∈ line, Text.isBlank c = false := by simpa using blank
    unfold read
    dsimp only
    split
    · next nothing => exact absurd (trim_eq_nil_iff.mp nothing) blank
    · rw [Contribution.ofGroup]
      cases GroupRow.make? _ _ with
      | none => exact .levelZero shown
      | some row => exact .row shown (.group row)
    · unfold readInterval
      dsimp only
      split
      · exact .unrecognized shown
      · unfold takeLiteral
        rcases (cutFields (Text.trim line)).2.getLast?.bind _ with _ | ⟨body, cause | settings⟩
        · exact .row shown _
        · exact .ignoring shown _ body cause
        · exact .row shown _

/-! ## Texts -/

/-- Every text is read, line by line.  One list of notes for all lines makes no
difference, and each line contributes a row, a note, both or nothing by itself.
Behind a text that has ended, another text is read as by itself. -/
theorem readPlan_line_by_line (registry : Registry σ φ) (standard : Category σ φ) :
    (∀ text, Codec.readPlan registry text (.lines standard) =
        .ok (readPlan registry standard text) ∧
      Report.gather "" .line 1 (readNoting registry standard) (Text.lines text.toList) =
        readPlan registry standard text ∧
      (readPlan registry standard text).IsPutTogether .line 1
        ((Text.lines text.toList).map (read registry standard))) ∧
    (∀ line, IsYield line (read registry standard line)) ∧
    ∀ first second : String, Text.IsEnded first.toList →
      (readPlan registry standard (first ++ second)).plan.rows =
        (readPlan registry standard first).plan.rows ++
          (readPlan registry standard second).plan.rows ∧
      (readPlan registry standard (first ++ second)).warnings =
        (readPlan registry standard first).warnings ++
          (readPlan registry standard second).warnings.map
            (.raised (Text.lines first.toList).length) := by
  have told (text : String) : (readPlan registry standard text).IsPutTogether .line 1
      ((Text.lines text.toList).map (read registry standard)) :=
    Report.isPutTogether_ofPieces "" .line 1 _ _
  refine ⟨fun text => ⟨rfl, gather_readNoting registry standard text, told text⟩, isYield_read, ?_⟩
  intro first second ended
  have whole := told (first ++ second)
  rw [String.toList_append, Text.lines_append ended, List.map_append] at whole
  have joined := (told first).append (told second) whole fun number => rfl
  rw [List.length_map] at joined
  exact joined

/-- A text that has ended, with a blank line. -/
def scales : String :=
  "# Warm up\n5:00, Scales\r\n\n"

/-- A text with a line that is no interval and a literal that is out of range. -/
def chords : String :=
  "two words\n10:00, Chords, @BPM:9000"

/-- The lines of the second text are the fourth and the fifth. -/
theorem readPlan_scales_chords : Text.IsEnded scales.toList ∧
    (readPlan Catalog.registry Catalog.guitar (scales ++ chords)).plan.rows =
      [.group ⟨1, "Warm up"⟩, .interval ⟨"5:00", "Scales", "Guitar", "", [], .guitar .standard⟩,
        .interval ⟨"10:00", "Chords", "Guitar", "", [], .guitar .standard⟩] ∧
    (readPlan Catalog.registry Catalog.guitar (scales ++ chords)).warnings =
      [⟨.line 4, .unrecognized "two words"⟩,
        ⟨.line 5, .ignoredLiteral "BPM:9000" .tempoOutOfRange⟩] := by
  have ended : Text.IsEnded scales.toList := .inr (by decide)
  rcases (readPlan_line_by_line Catalog.registry Catalog.guitar).2.2 scales chords ended with
    ⟨rows, warnings⟩
  exact ⟨ended, rows.trans rfl, warnings.trans rfl⟩

end Line
end Notation
end PracticePlan
