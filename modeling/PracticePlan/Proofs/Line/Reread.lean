import PracticePlan.Proofs.Line.Written
import PracticePlan.Proofs.Plan.Same

namespace PracticePlan
namespace Notation
namespace Line

/-!
# Reading a written plan

A plan is read line by line, and lines do not see each other.  As long as the
texts of a row fit into a line (`IsClean`), writing the row makes one line, and
what that line contributes is known without a text in between (`reread`).  A
plan of such rows therefore reads back from its text exactly when each row
reads back from its line (`readsBack_iff`).

Rows whose texts do not fit are not covered.  The writer accepts some of them,
and their lines may be read as other rows, as several rows or as none.
-/

variable {σ φ : Type}

/-! ## Reports -/

theorem rows_readPlan (registry : Registry σ φ) (standard : Category σ φ) (text : String) :
    (readPlan registry standard text).plan.rows =
      ((Text.lines text.toList).map (read registry standard)).filterMap Contribution.row? :=
  Report.rows_ofPieces "" .line 1 _ _

theorem warnings_readPlan_eq_nil_iff (registry : Registry σ φ) (standard : Category σ φ)
    (text : String) :
    (readPlan registry standard text).warnings = [] ↔
      ∀ contribution ∈ (Text.lines text.toList).map (read registry standard),
        contribution.note? = none :=
  Report.warnings_ofPieces_eq_nil_iff "" .line 1 _ _

/-! ## One row -/

variable [IntervalSettings σ]

/-- The texts of a row fit into a line of their own. -/
def IsClean (registry : Registry σ φ) (standard : Category σ φ) : Row σ → Prop
  | .group row => row.level ≠ 0 ∧ IsGroupName row.name.toList
  | .interval row => IsDuration row.duration.toList ∧
      ∀ fields, fieldsOf registry standard row = .ok fields → ∀ field ∈ fields, IsField field.toList

/-- What the line of a row contributes when it is read. -/
def reread (registry : Registry σ φ) (standard : Category σ φ) : Row σ → Contribution σ
  | .group row => .ofRow (.group row)
  | .interval row => match fieldsOf registry standard row with
      | .ok fields => ofFields registry standard row.duration.toList fields
      | .error _ => .nothing

/-- The line of a row is read as the same row, with nothing to note. -/
def IsFaithful (registry : Registry σ φ) (standard : Category σ φ) (row : Row σ) : Prop :=
  (reread registry standard row).note? = none ∧
    ∃ back, (reread registry standard row).row? = some back ∧ back.same row = true

variable {registry : Registry σ φ} {standard : Category σ φ}

theorem getLast?_ne_of_tight {line : List Char} (tight : Text.Tight line) :
    line.getLast? ≠ some '\r' := by
  intro here
  rw [← List.head?_reverse] at here
  exact absurd (tight.finish '\r' here) (by decide)

theorem reread_interval {row : IntervalRow σ} {fields : List String}
    (laidOut : fieldsOf registry standard row = .ok fields) :
    reread registry standard (.interval row) =
      ofFields registry standard row.duration.toList fields := by
  rw [reread, laidOut]

theorem intervalChars_eq_ok {row : IntervalRow σ} {line : List Char}
    (written : intervalChars registry standard row = .ok line) :
    isToken row.duration.toList = true ∧
      ∃ fields, fieldsOf registry standard row = .ok fields ∧
        line = joinFields row.duration fields := by
  unfold intervalChars at written
  split at written
  · next token =>
      refine ⟨token, ?_⟩
      cases laidOut : fieldsOf registry standard row with
      | error obstacle =>
          rw [laidOut] at written
          cases written
      | ok fields =>
          rw [laidOut] at written
          exact ⟨fields, rfl, (Except.ok.inj written).symm⟩
  · cases written

/-- A clean row makes one line, and the line contributes what is known of it. -/
theorem read_rowChars {row : Row σ} {line : List Char} (clean : IsClean registry standard row)
    (written : rowChars registry standard row = .ok line) :
    read registry standard line = reread registry standard row ∧
      '\n' ∉ line ∧ line.getLast? ≠ some '\r' := by
  cases row with
  | group row =>
      rcases Except.ok.inj written with rfl
      exact ⟨read_groupChars clean.1 clean.2, not_mem_groupChars clean.2,
        getLast?_ne_of_tight (tight_groupChars clean.1 clean.2)⟩
  | interval row =>
      rcases intervalChars_eq_ok written with ⟨-, fields, laidOut, rfl⟩
      have areFields := clean.2 fields laidOut
      refine ⟨?_, not_mem_joinFields clean.1 areFields,
        getLast?_ne_of_tight (tight_joinFields clean.1 fields)⟩
      rw [read_joinFields clean.1 areFields, reread_interval laidOut]

theorem exists_row?_reread {row : Row σ} {line : List Char}
    (written : rowChars registry standard row = .ok line) :
    ∃ back, (reread registry standard row).row? = some back := by
  cases row with
  | group row => exact ⟨.group row, rfl⟩
  | interval row =>
      rcases intervalChars_eq_ok written with ⟨-, fields, laidOut, -⟩
      rw [reread_interval laidOut]
      exact ⟨_, rfl⟩

/-! ## All rows -/

/-- A written row is followed by the rows behind it. -/
theorem rowsChars_cons_eq_ok {position : Nat} {row : Row σ} {rest : List (Row σ)}
    {chars : List Char} (written : rowsChars registry standard position (row :: rest) = .ok chars) :
    ∃ line others, rowChars registry standard row = .ok line ∧
      rowsChars registry standard (position + 1) rest = .ok others ∧
      chars = line ++ '\n' :: others := by
  rw [rowsChars] at written
  cases first : rowChars registry standard row with
  | error obstacle =>
      rw [first] at written
      cases written
  | ok line =>
      cases behind : rowsChars registry standard (position + 1) rest with
      | error fault =>
          rw [first, behind] at written
          cases written
      | ok others =>
          rw [first, behind] at written
          exact ⟨line, others, rfl, rfl, (Except.ok.inj written).symm⟩

theorem exists_rowChars_of_rowsChars {position : Nat} {rows : List (Row σ)} {chars : List Char}
    (written : rowsChars registry standard position rows = .ok chars) :
    ∀ row ∈ rows, ∃ line, rowChars registry standard row = .ok line := by
  induction rows generalizing position chars with
  | nil => exact fun row member => absurd member List.not_mem_nil
  | cons first rest inductionHypothesis =>
      rcases rowsChars_cons_eq_ok written with ⟨line, others, head, behind, -⟩
      intro row member
      rcases List.mem_cons.mp member with rfl | later
      · exact ⟨line, head⟩
      · exact inductionHypothesis behind row later

/-- The lines of a written plan contribute what its rows do, one by one. -/
theorem map_read_lines {position : Nat} {rows : List (Row σ)} {chars : List Char}
    (clean : ∀ row ∈ rows, IsClean registry standard row)
    (written : rowsChars registry standard position rows = .ok chars) :
    (Text.lines chars).map (read registry standard) = rows.map (reread registry standard) := by
  induction rows generalizing position chars with
  | nil =>
      rcases Except.ok.inj written with rfl
      rfl
  | cons first rest inductionHypothesis =>
      rcases rowsChars_cons_eq_ok written with ⟨line, others, head, behind, rfl⟩
      rcases read_rowChars (clean first List.mem_cons_self) head with ⟨contribution, absent, ended⟩
      have later := inductionHypothesis
        (fun row member => clean row (List.mem_cons_of_mem first member)) behind
      rw [Text.lines_append_cons absent ended, List.map_cons, List.map_cons, later, contribution]

/-- A text reads back as rows: they come in their order and nothing is noted. -/
structure ReadsBack (registry : Registry σ φ) (standard : Category σ φ) (text : String)
    (rows : List (Row σ)) : Prop where
  silent : (readPlan registry standard text).warnings = []
  same : Row.sameAll (readPlan registry standard text).plan.rows rows = true

theorem exists_rowsChars_of_writePlan {plan : Plan σ} {text : String}
    (written : writePlan registry standard plan = .ok text) :
    rowsChars registry standard 0 plan.rows = .ok text.toList := by
  unfold writePlan at written
  cases chars : rowsChars registry standard 0 plan.rows with
  | error fault =>
      rw [chars] at written
      cases written
  | ok list =>
      rw [chars] at written
      rcases Except.ok.inj written with rfl
      rw [String.toList_ofList]

/-- A plan of clean rows reads back exactly when each of its rows does. -/
theorem readsBack_iff {plan : Plan σ} {text : String}
    (clean : ∀ row ∈ plan.rows, IsClean registry standard row)
    (written : writePlan registry standard plan = .ok text) :
    ReadsBack registry standard text plan.rows ↔
      ∀ row ∈ plan.rows, IsFaithful registry standard row := by
  have chars := exists_rowsChars_of_writePlan written
  have lines := map_read_lines clean chars
  have present : ∀ row ∈ plan.rows, ∃ back, (reread registry standard row).row? = some back :=
    fun row member =>
      (exists_rowChars_of_rowsChars chars row member).elim fun _ line => exists_row?_reread line
  have silent := warnings_readPlan_eq_nil_iff registry standard text
  have rows := rows_readPlan registry standard text
  rw [lines] at silent rows
  rw [List.filterMap_map] at rows
  have same := Row.sameAll_filterMap present
  constructor
  · intro back row member
    have read : Row.sameAll (plan.rows.filterMap
        (Contribution.row? ∘ reread registry standard)) plan.rows = true := rows ▸ back.same
    exact ⟨silent.mp back.silent _ (List.mem_map_of_mem member), same.mp read row member⟩
  · intro faithful
    refine ⟨silent.mpr ?_, ?_⟩
    · intro contribution member
      rcases List.mem_map.mp member with ⟨row, known, rfl⟩
      exact (faithful row known).1
    · rw [rows]
      exact same.mpr fun row member => (faithful row member).2

end Line
end Notation
end PracticePlan
