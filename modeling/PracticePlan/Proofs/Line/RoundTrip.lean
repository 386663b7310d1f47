import PracticePlan.Catalog.Basic
import PracticePlan.Proofs.Line.Fields
import PracticePlan.Proofs.Line.Naming
import PracticePlan.Proofs.Line.Reread

namespace PracticePlan
namespace Notation
namespace Line

/-!
# Rows that lines can express

A row is *expressible* when its texts fit between commas, its category can be
told from its second field, and its settings are either the default of the
category or given by a literal that the category reads back.  Nothing in this
depends on the order or the number of rows.

The writer refuses an expressible row for one reason only: the row has no
literal, and its last field looks like one to the reader.  A plan of
expressible rows that is not refused reads back as it was.
-/

variable {σ φ : Type} [IntervalSettings σ]

/-- The settings of an interval can be told from its line.  Without a literal
they must be the default of the category, and a literal must be read back by
the category. -/
def KeepsSettings (category : Category σ φ) (settings : σ) : Prop :=
  match IntervalSettings.literal? settings with
  | none => IntervalSettings.same category.defaultSettings settings = true
  | some literal =>
      isLiteralBody literal.toList = true ∧ IsField ('@' :: literal.toList) ∧
        ∃ read, category.settingsOfLiteral? literal = some (.ok read) ∧
          IntervalSettings.same read settings = true

/-- What an interval needs to fit into a line.  The line may still stand for
another interval. -/
structure IsWritableInterval (registry : Registry σ φ) (standard : Category σ φ)
    (row : IntervalRow σ) : Prop where
  duration : IsDuration row.duration.toList
  task : IsField row.task.toList
  featureType : IsField row.featureType.toList
  arguments : ∀ argument ∈ row.arguments, IsField argument.toList
  settings : ∃ category, registry.category? row.categoryName = some category ∧
    KeepsSettings category row.settings
  foreign : row.categoryName ≠ standard.name → IsQualifier row.categoryName

/-- The type of an interval of the default category leads back to it. -/
def ResolvesBack (registry : Registry σ φ) (standard : Category σ φ) (row : IntervalRow σ) : Prop :=
  row.categoryName = standard.name →
    resolve registry standard row.featureType = (standard, row.featureType)

/-- What an interval needs for a line to express it. -/
structure IsExpressibleInterval (registry : Registry σ φ) (standard : Category σ φ)
    (row : IntervalRow σ) : Prop extends IsWritableInterval registry standard row where
  own : ResolvesBack registry standard row

/-- What a row needs to fit into a line. -/
def IsWritable (registry : Registry σ φ) (standard : Category σ φ) : Row σ → Prop
  | .group row => row.level ≠ 0 ∧ IsGroupName row.name.toList
  | .interval row => IsWritableInterval registry standard row

/-- What a row needs for a line to express it. -/
def IsExpressible (registry : Registry σ φ) (standard : Category σ φ) : Row σ → Prop
  | .group row => row.level ≠ 0 ∧ IsGroupName row.name.toList
  | .interval row => IsExpressibleInterval registry standard row

/-! ## One row -/

section Row

variable {registry : Registry σ φ} {standard : Category σ φ} {row : IntervalRow σ}

theorem IsExpressibleInterval.resolve_fieldOf
    (expressible : IsExpressibleInterval registry standard row)
    (registered : registry.category? standard.name = some standard) :
    ∃ category, registry.category? row.categoryName = some category ∧
      KeepsSettings category row.settings ∧
      resolve registry standard (fieldOf standard row.categoryName row.featureType) =
        (category, row.featureType) := by
  rcases expressible.settings with ⟨category, found, kept⟩
  refine ⟨category, found, kept, ?_⟩
  by_cases own : row.categoryName = standard.name
  · have same : standard = category := Option.some.inj (registered.symm.trans (own ▸ found))
    rw [fieldOf_of_own own, expressible.own own, same]
  · exact resolve_fieldOf_of_foreign own (expressible.foreign own) expressible.featureType.tight
      found

theorem IsWritableInterval.areFields (writable : IsWritableInterval registry standard row) :
    ∀ field ∈ plainFields standard row, IsField field.toList := by
  intro field member
  rcases mem_plainFields member with rfl | rfl | argument
  · exact writable.task
  · by_cases own : row.categoryName = standard.name
    · rw [fieldOf_of_own own]
      exact writable.featureType
    · rw [fieldOf_of_foreign own (writable.foreign own)]
      exact isField_qualified (writable.foreign own) writable.featureType
  · exact writable.arguments field argument

/-- What an interval that fits into a line is written as. -/
theorem IsWritableInterval.fieldsOf_cases (writable : IsWritableInterval registry standard row)
    {fields : List String} (laidOut : fieldsOf registry standard row = .ok fields) :
    (∃ literal, IntervalSettings.literal? row.settings = some literal ∧
        fields = plainFields standard row ++ ["@" ++ literal]) ∨
      (IntervalSettings.literal? row.settings = none ∧
        mistaken? registry standard (plainFields standard row) = none ∧
        fields = plainFields standard row) := by
  have cases := fieldsOf_of_areFields registry writable.areFields
  rw [laidOut] at cases
  cases told : IntervalSettings.literal? row.settings with
  | some literal =>
      rw [told] at cases
      exact .inl ⟨literal, rfl, Except.ok.inj cases⟩
  | none =>
      rw [told] at cases
      cases mistaken : mistaken? registry standard (plainFields standard row) with
      | some literal =>
          rw [mistaken] at cases
          cases cases
      | none =>
          rw [mistaken] at cases
          exact .inr ⟨rfl, rfl, Except.ok.inj cases⟩

theorem IsWritableInterval.isClean (writable : IsWritableInterval registry standard row) :
    IsClean registry standard (.interval row) := by
  refine ⟨writable.duration, fun fields laidOut => ?_⟩
  rcases writable.settings with ⟨category, -, kept⟩
  rcases writable.fieldsOf_cases laidOut with ⟨literal, told, rfl⟩ | ⟨-, -, rfl⟩
  · unfold KeepsSettings at kept
    rw [told] at kept
    intro field member
    rcases List.mem_append.mp member with plain | last
    · exact writable.areFields field plain
    · rw [List.mem_singleton.mp last, toList_marked]
      exact kept.2.1
  · exact writable.areFields

/-- The line of an expressible interval is read as that interval. -/
theorem isFaithful_of_isExpressibleInterval
    (registered : registry.category? standard.name = some standard)
    (expressible : IsExpressibleInterval registry standard row) {fields : List String}
    (laidOut : fieldsOf registry standard row = .ok fields) :
    IsFaithful registry standard (.interval row) := by
  rcases expressible.resolve_fieldOf registered with ⟨category, found, kept, resolved⟩
  have named := Registry.name_of_category? found
  have nonempty := expressible.duration.nonempty
  unfold KeepsSettings at kept
  rcases expressible.fieldsOf_cases laidOut with ⟨literal, told, rfl⟩ | ⟨told, plain, rfl⟩
  · rw [told] at kept
    rcases kept with ⟨shape, -, read, known, same⟩
    -- The reader looks the literal up in the category of the second field, and
    -- that is the category of the row.
    have taking := takeLiteral_append (plainFields standard row) shape
      (by rw [typeField_plainFields_append, resolved]; exact known)
    have contribution := ofFields_of_taken taking rfl resolved named nonempty
    rw [IsFaithful, reread_interval laidOut, contribution]
    exact ⟨rfl, _, rfl, IntervalRow.same_withSettings row same⟩
  · rw [told] at kept
    have taking := takeLiteral_of_not_mistaken expressible.areFields plain
    have contribution := ofFields_of_taken taking rfl resolved named nonempty
    rw [IsFaithful, reread_interval laidOut, contribution]
    exact ⟨rfl, _, rfl, IntervalRow.same_withSettings row kept⟩

/-- Behind whatever the reader takes off, the second field of a written interval
names the type, unless the interval of the default category has none. -/
theorem IsWritableInterval.second_field (writable : IsWritableInterval registry standard row)
    {fields : List String} (laidOut : fieldsOf registry standard row = .ok fields) :
    fieldOf standard row.categoryName row.featureType = "" ∨
      (takeLiteral registry standard fields).values.tail.headD "" =
        fieldOf standard row.categoryName row.featureType := by
  have plain := (parts_plainFields standard row).2.1
  rcases writable.fieldsOf_cases laidOut with ⟨literal, -, rfl⟩ | ⟨-, notMistaken, rfl⟩
  · rcases values_takeLiteral registry standard (plainFields standard row ++ ["@" ++ literal])
      with kept | dropped
    · rw [kept]
      rcases plainFields_cases standard row with ⟨nothing, -, -⟩ | fields
      · exact .inl nothing
      · exact .inr (by rw [fields]; rfl)
    · rw [dropped, List.dropLast_concat]
      exact .inr plain
  · rw [takeLiteral_of_not_mistaken writable.areFields notMistaken]
    exact .inr plain

/-- An interval that is read from its line as it was resolves back. -/
theorem resolvesBack_of_isFaithful (registered : registry.category? standard.name = some standard)
    (writable : IsWritableInterval registry standard row) {fields : List String}
    (laidOut : fieldsOf registry standard row = .ok fields)
    (faithful : IsFaithful registry standard (.interval row)) :
    ResolvesBack registry standard row := by
  intro own
  rcases faithful with ⟨-, back, given, same⟩
  rw [reread_interval laidOut] at given
  rcases Option.some.inj given with rfl
  rcases IntervalRow.same_iff.mp same with ⟨-, -, category, featureType, -, -⟩
  have second := writable.second_field laidOut
  rw [fieldOf_of_own own] at second
  -- Without a type there is nothing to resolve.  With one, the type is what the
  -- reader resolved.
  rcases second with nothing | names
  · rw [nothing]
    exact resolve_empty
  · rw [intervalOf, names] at category featureType
    dsimp only at category featureType
    have found := category?_resolve registered row.featureType
    rw [category.trans own, registered] at found
    exact Prod.ext (Option.some.inj found).symm featureType

/-- An interval that fits into a line is refused only for a last field that
looks like a literal, and only when it has no literal itself. -/
theorem endsInLiteral_of_fieldsOf_eq_error (writable : IsWritableInterval registry standard row)
    {obstacle : Obstacle} (refused : fieldsOf registry standard row = .error obstacle) :
    ∃ literal, obstacle = .literal literal ∧ IntervalSettings.literal? row.settings = none ∧
      EndsInLiteral registry standard row literal := by
  have cases := fieldsOf_of_areFields registry writable.areFields
  rw [refused] at cases
  cases told : IntervalSettings.literal? row.settings with
  | some literal =>
      rw [told] at cases
      cases cases
  | none =>
      rw [told] at cases
      cases mistaken : mistaken? registry standard (plainFields standard row) with
      | none =>
          rw [mistaken] at cases
          cases cases
      | some literal =>
          rw [mistaken] at cases
          exact ⟨literal, Except.error.inj cases, rfl,
            endsInLiteral_of_mistaken writable.areFields mistaken⟩

theorem isClean_of_isWritable {row : Row σ} (writable : IsWritable registry standard row) :
    IsClean registry standard row := by
  cases row with
  | group row => exact writable
  | interval row => exact IsWritableInterval.isClean writable

theorem isWritable_of_isExpressible {row : Row σ}
    (expressible : IsExpressible registry standard row) : IsWritable registry standard row := by
  cases row with
  | group row => exact expressible
  | interval row => exact IsExpressibleInterval.toIsWritableInterval expressible

end Row

/-! ## A plan -/

section Plan

variable {registry : Registry σ φ} {standard : Category σ φ}

/-- A refusal names a row that cannot be written, by its position. -/
theorem exists_refused_of_rowsChars {position : Nat} {rows : List (Row σ)} {error : FormatError}
    (refused : rowsChars registry standard position rows = .error error) :
    ∃ index row obstacle, rows[index]? = some row ∧
      rowChars registry standard row = .error obstacle ∧
      error = .unrepresentable (position + index) obstacle := by
  induction rows generalizing position with
  | nil => cases refused
  | cons first rest inductionHypothesis =>
      rw [rowsChars] at refused
      cases head : rowChars registry standard first with
      | error obstacle =>
          rw [head] at refused
          exact ⟨0, first, obstacle, rfl, head, (Except.error.inj refused).symm⟩
      | ok line =>
          cases behind : rowsChars registry standard (position + 1) rest with
          | ok others =>
              rw [head, behind] at refused
              cases refused
          | error fault =>
              rw [head, behind] at refused
              rcases Except.error.inj refused with rfl
              rcases inductionHypothesis behind with ⟨index, row, obstacle, here, cause, same⟩
              refine ⟨index + 1, row, obstacle, here, cause, ?_⟩
              rw [same, Nat.add_assoc, Nat.add_comm 1 index]

theorem fieldsOf_of_intervalChars_eq_error {row : IntervalRow σ} {obstacle : Obstacle}
    (isDuration : IsDuration row.duration.toList)
    (refused : intervalChars registry standard row = .error obstacle) :
    fieldsOf registry standard row = .error obstacle := by
  rw [intervalChars, if_pos isDuration.isToken] at refused
  cases laidOut : fieldsOf registry standard row with
  | ok fields =>
      rw [laidOut] at refused
      cases refused
  | error cause =>
      rw [laidOut] at refused
      exact congrArg Except.error (Except.error.inj refused)

/-- What is written of expressible rows reads back as they were. -/
theorem readsBack_of_isExpressible
    (registered : registry.category? standard.name = some standard) {plan : Plan σ}
    (expressible : ∀ row ∈ plan.rows, IsExpressible registry standard row) {text : String}
    (written : writePlan registry standard plan = .ok text) :
    ReadsBack registry standard text plan.rows := by
  have clean : ∀ row ∈ plan.rows, IsClean registry standard row := fun row member =>
    isClean_of_isWritable (isWritable_of_isExpressible (expressible row member))
  apply (readsBack_iff clean written).mpr
  intro row member
  rcases exists_rowChars_of_rowsChars (exists_rowsChars_of_writePlan written) row member with
    ⟨line, made⟩
  cases row with
  | group row => exact ⟨rfl, _, rfl, beq_self_eq_true row⟩
  | interval row =>
      rcases intervalChars_eq_ok made with ⟨-, fields, laidOut, -⟩
      exact isFaithful_of_isExpressibleInterval registered (expressible _ member) laidOut

/-- Rows that fit into lines are refused only for a last field that looks like a
literal, and only when the row has no literal itself. -/
theorem exists_endsInLiteral_of_writePlan {plan : Plan σ}
    (writable : ∀ row ∈ plan.rows, IsWritable registry standard row) {error : FormatError}
    (refused : writePlan registry standard plan = .error error) :
    ∃ position row literal, plan.rows[position]? = some (.interval row) ∧
      IntervalSettings.literal? row.settings = none ∧
      EndsInLiteral registry standard row literal ∧
      error = .unrepresentable position (.literal literal) := by
  have failed : rowsChars registry standard 0 plan.rows = .error error := by
    unfold writePlan at refused
    cases chars : rowsChars registry standard 0 plan.rows with
    | ok list =>
        rw [chars] at refused
        cases refused
    | error fault =>
        rw [chars] at refused
        exact congrArg Except.error (Except.error.inj refused)
  rcases exists_refused_of_rowsChars failed with ⟨position, row, obstacle, here, cause, rfl⟩
  have needs := writable row (List.mem_of_getElem? here)
  cases row with
  | group row => cases cause
  | interval row =>
      have interval : IsWritableInterval registry standard row := needs
      have unlaid := fieldsOf_of_intervalChars_eq_error interval.duration cause
      rcases endsInLiteral_of_fieldsOf_eq_error interval unlaid with
        ⟨literal, rfl, told, ends⟩
      exact ⟨position, row, literal, here, told, ends, by rw [Nat.zero_add]⟩

/-- A plan of expressible rows reads back as it was, unless a row is refused.
A row is refused only when it has no literal and its last field would be taken
for one. -/
theorem writePlan_of_isExpressible
    (registered : registry.category? standard.name = some standard) (plan : Plan σ)
    (expressible : ∀ row ∈ plan.rows, IsExpressible registry standard row) :
    match writePlan registry standard plan with
    | .ok text => ReadsBack registry standard text plan.rows
    | .error error => ∃ position row literal, plan.rows[position]? = some (.interval row) ∧
        IntervalSettings.literal? row.settings = none ∧
        EndsInLiteral registry standard row literal ∧
        error = .unrepresentable position (.literal literal) := by
  cases outcome : writePlan registry standard plan with
  | ok text => exact readsBack_of_isExpressible registered expressible outcome
  | error error =>
      exact exists_endsInLiteral_of_writePlan
        (fun row member => isWritable_of_isExpressible (expressible row member)) outcome

/-- A plan of the catalog with a name that starts with a number sign, empty
fields at the end of a line, a literal and a foreign category without a type. -/
def warmUp : Plan CatalogSettings :=
  ⟨"", [.group ⟨1, "#1 Warm up"⟩,
    .interval ⟨"2:00", "", "Guitar", "Triads", ["G", "true", "", ""], .guitar .standard⟩,
    .interval ⟨"1:00", "Click", "Guitar", "Metronome", [], .guitar (.atTempo 120)⟩,
    .interval ⟨"3:00", "", "General", "", [], .plain "General"⟩]⟩

theorem readsBack_warmUp :
    Catalog.registry.category? Catalog.guitar.name = some Catalog.guitar ∧
      (∀ row ∈ warmUp.rows, IsExpressible Catalog.registry Catalog.guitar row) ∧
      ReadsBack Catalog.registry Catalog.guitar
        ("# #1 Warm up\n2:00, , Triads, G, true, ,\n" ++
          "1:00, Click, Metronome, @BPM:120\n3:00, , General/\n") warmUp.rows := by
  have registered : Catalog.registry.category? Catalog.guitar.name = some Catalog.guitar := rfl
  have group : IsExpressible Catalog.registry Catalog.guitar (.group ⟨1, "#1 Warm up"⟩) :=
    ⟨by decide, by decide⟩
  have triads : IsExpressibleInterval Catalog.registry Catalog.guitar
      ⟨"2:00", "", "Guitar", "Triads", ["G", "true", "", ""], .guitar .standard⟩ :=
    ⟨⟨by decide, by decide, by decide, by decide, ⟨Catalog.guitar, rfl, rfl⟩,
      fun foreign => absurd rfl foreign⟩, fun _ => rfl⟩
  have click : IsExpressibleInterval Catalog.registry Catalog.guitar
      ⟨"1:00", "Click", "Guitar", "Metronome", [], .guitar (.atTempo 120)⟩ :=
    ⟨⟨by decide, by decide, by decide, by decide,
      ⟨Catalog.guitar, rfl, by decide, by decide, .guitar (.atTempo 120), rfl, rfl⟩,
      fun foreign => absurd rfl foreign⟩, fun _ => rfl⟩
  have general : IsExpressibleInterval Catalog.registry Catalog.guitar
      ⟨"3:00", "", "General", "", [], .plain "General"⟩ :=
    ⟨⟨by decide, by decide, by decide, by decide, ⟨Catalog.general, rfl, rfl⟩,
      fun _ => ⟨by decide, by decide, by decide⟩⟩, fun own => absurd own (by decide)⟩
  have expressible : ∀ row ∈ warmUp.rows,
      IsExpressible Catalog.registry Catalog.guitar row := by
    intro row member
    simp only [warmUp, List.mem_cons, List.not_mem_nil, or_false] at member
    rcases member with rfl | rfl | rfl | rfl
    · exact group
    · exact triads
    · exact click
    · exact general
  have written : writePlan Catalog.registry Catalog.guitar warmUp = .ok
      ("# #1 Warm up\n2:00, , Triads, G, true, ,\n" ++
        "1:00, Click, Metronome, @BPM:120\n3:00, , General/\n") :=
    rfl
  have outcome := writePlan_of_isExpressible registered warmUp expressible
  rw [written] at outcome
  exact ⟨registered, expressible, outcome⟩

end Plan

end Line
end Notation
end PracticePlan
