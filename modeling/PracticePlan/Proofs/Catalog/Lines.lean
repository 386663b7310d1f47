import PracticePlan.Proofs.Catalog.Settings
import PracticePlan.Proofs.Given

namespace PracticePlan
namespace Catalog

open Notation Notation.Line CatalogSettings

/-!
# Plans of the catalog as lines

Lines and items give the same categories their settings, but items also give
beats and accents of a metronome, and texts of every form.  When such a row is
written as a line and read back, it is the same row exactly when it is
expressible (`readsBack_iff_isExpressible`).  The writer looks only for commas,
for durations of several tokens and for fields that look like literals, so it
also writes rows that do not come back.

A row that was read from a line lacks nothing to be expressible but one thing.
An interval of the default category may name a type that alone stands for
another category, because its line named the default category explicitly.
Apart from these intervals, a plan in lines can always be written again, unless
the last field of a line now looks like a literal.
-/

/-! ## Categories -/

theorem category?_cases {name : String} {category : Category CatalogSettings CatalogFeature}
    (found : registry.category? name = some category) :
    name = guitarCategory ∧ category = guitar ∨ name = generalCategory ∧ category = general := by
  have named := Registry.name_of_category? found
  rw [Registry.category?, Named.find?] at found
  have member : category ∈ [guitar, general] := List.mem_of_find?_eq_some found
  rcases List.mem_cons.mp member with rfl | later
  · exact .inl ⟨named.symm, rfl⟩
  · rcases List.mem_singleton.mp later with rfl
    exact .inr ⟨named.symm, rfl⟩

theorem isQualifier_of_category? {name : String}
    {category : Category CatalogSettings CatalogFeature}
    (found : registry.category? name = some category) : IsQualifier name := by
  rcases category?_cases found with ⟨rfl, -⟩ | ⟨rfl, -⟩
  · exact ⟨by decide, by decide, by decide⟩
  · exact ⟨by decide, by decide, by decide⟩

/-- Settings that a line gives are kept when they are written again. -/
theorem keepsSettings_of_isReadSettings {name : String}
    {category : Category CatalogSettings CatalogFeature} {settings : CatalogSettings}
    (found : registry.category? name = some category) (read : IsReadSettings category settings) :
    IsOf name settings ∧ KeepsSettings category settings := by
  rcases category?_cases found with ⟨rfl, rfl⟩ | ⟨rfl, rfl⟩
  · rcases read with rfl | ⟨literal, known⟩
    · exact ⟨rfl, rfl⟩
    · rcases exists_tempo_of_ofLiteral? known with ⟨tempo, inRange, rfl⟩
      refine ⟨rfl, keepsSettings_guitar fun other here => ?_⟩
      exact Option.some.inj here ▸ inRange
  · rcases read with rfl | ⟨literal, known⟩
    · exact ⟨⟨rfl, rfl⟩, rfl⟩
    · cases known

theorem isOf_of_isHeldSettings {name : String}
    {category : Category CatalogSettings CatalogFeature} {settings : CatalogSettings}
    (found : registry.category? name = some category)
    (held : Item.IsHeldSettings category settings) : IsOf name settings := by
  rcases category?_cases found with ⟨rfl, rfl⟩ | ⟨rfl, rfl⟩
  · rcases held with rfl | ⟨form, known⟩
    · rfl
    · exact isOf_of_guitarOfJson known
  · rcases held with rfl | ⟨form, known⟩
    · exact ⟨rfl, rfl⟩
    · rw [eq_of_generalOfJson known]
      exact ⟨rfl, rfl⟩

/-! ## Rows -/

section Rows

variable {standard : Category CatalogSettings CatalogFeature}

/-- Rows that were read from lines fit into lines. -/
theorem isWritable_of_isRead {row : Row CatalogSettings} (read : IsRead registry row) :
    IsWritable registry standard row := by
  cases row with
  | group row => exact read
  | interval row =>
      rcases read with ⟨duration, task, featureType, arguments, category, found, settings⟩
      exact ⟨duration, task, featureType, arguments,
        ⟨category, found, (keepsSettings_of_isReadSettings found settings).2⟩,
        fun _ => isQualifier_of_category? found⟩

/-- Settings that an interval is given belong to the category of the interval. -/
theorem isOf_of_isGiven {row : IntervalRow CatalogSettings}
    (given : IsGiven registry (.interval row)) : IsOf row.categoryName row.settings := by
  rcases given with ⟨category, found, read | held⟩
  · exact (keepsSettings_of_isReadSettings found read).1
  · exact isOf_of_isHeldSettings found held

/-- Rows that were read are the same only when they are equal. -/
theorem eq_of_same_of_isGiven {first second : Row CatalogSettings}
    (firstGiven : IsGiven registry first) (secondGiven : IsGiven registry second)
    (same : first.same second = true) : first = second := by
  cases first with
  | group first =>
      cases second with
      | group second => exact congrArg Row.group (beq_iff_eq.mp same)
      | interval second => cases same
  | interval first =>
      cases second with
      | group second => cases same
      | interval second =>
          rcases IntervalRow.same_iff.mp same with
            ⟨duration, task, categoryName, featureType, arguments, settings⟩
          have firstOf := isOf_of_isGiven firstGiven
          rw [categoryName] at firstOf
          have equal := eq_of_same firstOf (isOf_of_isGiven secondGiven) settings
          rcases first with ⟨_, _, _, _, _, _⟩
          rcases second with ⟨_, _, _, _, _, _⟩
          dsimp only at duration task categoryName featureType arguments equal
          rw [duration, task, categoryName, featureType, arguments, equal]

end Rows

/-! ## Plans -/

section Plans

variable {standard : Category CatalogSettings CatalogFeature}

/-- A plan that was read from JSON and written as lines reads back exactly when
all of its rows are expressible. -/
theorem readsBack_iff_isExpressible
    (registered : registry.category? standard.name = some standard) {source : String}
    {report : Report CatalogSettings} (read : Item.readPlan registry source = .ok report)
    {text : String} (written : writePlan registry standard report.plan = .ok text) :
    ReadsBack registry standard text report.plan.rows ↔
      ∀ row ∈ report.plan.rows, IsExpressible registry standard row := by
  constructor
  · intro back
    have writable : ∀ row ∈ report.plan.rows, IsWritable registry standard row := by
      intro row member
      rcases Row.exists_same_of_sameAll back.same row member with ⟨first, known, same⟩
      have origin := isRead_of_mem_readPlan registered known
      -- What comes back is equal to the row, so the row has a form that lines give.
      have held := isGiven_of_isHeld (Item.isStatedRow_of_mem_readPlan read member).isHeld
      have equal := eq_of_same_of_isGiven (isGiven_of_isRead origin) held same
      exact equal ▸ isWritable_of_isRead origin
    have faithful := (readsBack_iff (fun row member => isClean_of_isWritable (writable row member))
      written).mp back
    intro row member
    rcases exists_rowChars_of_rowsChars (exists_rowsChars_of_writePlan written) row member with
      ⟨line, made⟩
    cases row with
    | group row => exact writable _ member
    | interval row =>
        have interval : IsWritableInterval registry standard row := writable _ member
        rcases intervalChars_eq_ok made with ⟨-, fields, laidOut, -⟩
        exact ⟨interval, resolvesBack_of_isFaithful registered interval laidOut
          (faithful _ member)⟩
  · intro expressible
    exact readsBack_of_isExpressible registered expressible written

/-- A plan with a break. -/
def pause : String :=
  "\x7b\"items\":[\x7b\"rowType\":\"interval\",\"categoryName\":\"General\"," ++
    "\"featureTypeName\":\"Rest\"\x7d]\x7d"

set_option maxRecDepth 8000 in
theorem readsBack_pause : registry.category? guitar.name = some guitar ∧
    ∃ report, Item.readPlan registry pause = .ok report ∧
      writePlan registry guitar report.plan = .ok "0:00, , General/Rest\n" ∧
      (ReadsBack registry guitar "0:00, , General/Rest\n" report.plan.rows ↔
        ∀ row ∈ report.plan.rows, IsExpressible registry guitar row) := by
  have registered : registry.category? guitar.name = some guitar := rfl
  have read : Item.readPlan registry pause = .ok
      ⟨⟨"", [.interval ⟨"0:00", "", "General", "Rest", [], .plain "General"⟩]⟩, []⟩ := rfl
  exact ⟨registered, _, read, rfl, readsBack_iff_isExpressible registered read rfl⟩

/-- A plan whose metronome has three beats to the bar. -/
def waltz : String :=
  "\x7b\"items\":[\x7b\"rowType\":\"interval\",\"categoryName\":\"Guitar\"," ++
    "\"intervalSettings\":\x7b\"metronome\":\x7b\"beatsPerBar\":3\x7d\x7d\x7d]\x7d"

set_option maxRecDepth 8000 in
/-- The beats are lost in the line, and the writer does not refuse. -/
theorem waltz_lost : ∃ report, Item.readPlan registry waltz = .ok report ∧
    writePlan registry guitar report.plan = .ok "0:00\n" ∧
    ¬ReadsBack registry guitar "0:00\n" report.plan.rows :=
  ⟨⟨⟨"", [.interval ⟨"0:00", "", "Guitar", "", [], .guitar ⟨none, 3, true⟩⟩]⟩, []⟩,
    rfl, rfl, fun back => nomatch back.same⟩

/-- A plan that was read from lines is refused only for an interval without a
literal that ends in what would be taken for one.  What is written of it reads
back as it was, when every type of the default category resolves to itself. -/
theorem writePlan_readPlan (registered : registry.category? standard.name = some standard)
    (text : String) :
    match writePlan registry standard (readPlan registry standard text).plan with
    | .ok written =>
        (∀ row, .interval row ∈ (readPlan registry standard text).plan.rows →
          ResolvesBack registry standard row) →
        ReadsBack registry standard written (readPlan registry standard text).plan.rows
    | .error error => ∃ position row literal,
        (readPlan registry standard text).plan.rows[position]? = some (.interval row) ∧
        IntervalSettings.literal? row.settings = none ∧
        EndsInLiteral registry standard row literal ∧
        error = .unrepresentable position (.literal literal) := by
  have writable : ∀ row ∈ (readPlan registry standard text).plan.rows,
      IsWritable registry standard row := by
    intro row member
    exact isWritable_of_isRead (isRead_of_mem_readPlan registered member)
  cases outcome : writePlan registry standard (readPlan registry standard text).plan with
  | error error => exact exists_endsInLiteral_of_writePlan writable outcome
  | ok written =>
      intro named
      refine readsBack_of_isExpressible registered ?_ outcome
      intro row member
      cases row with
      | group row => exact writable _ member
      | interval row => exact ⟨writable _ member, named row member⟩

theorem readsBack_break : registry.category? guitar.name = some guitar ∧
    (∀ row, .interval row ∈ (readPlan registry guitar
        "1:00, Break, Rest\n2:00, , Triads, G, @BPM:90\n").plan.rows →
      ResolvesBack registry guitar row) ∧
    ReadsBack registry guitar "1:00, Break, General/Rest\n2:00, , Triads, G, @BPM:90\n"
      (readPlan registry guitar "1:00, Break, Rest\n2:00, , Triads, G, @BPM:90\n").plan.rows := by
  have registered : registry.category? guitar.name = some guitar := rfl
  have rows : (readPlan registry guitar
      "1:00, Break, Rest\n2:00, , Triads, G, @BPM:90\n").plan.rows =
      [.interval ⟨"1:00", "Break", "General", "Rest", [], .plain "General"⟩,
        .interval ⟨"2:00", "", "Guitar", "Triads", ["G"], .guitar (.atTempo 90)⟩] := rfl
  have named : ∀ row, .interval row ∈ (readPlan registry guitar
      "1:00, Break, Rest\n2:00, , Triads, G, @BPM:90\n").plan.rows →
      ResolvesBack registry guitar row := by
    intro row member
    rw [rows] at member
    rcases List.mem_cons.mp member with same | later
    · rcases Row.interval.inj same with rfl
      intro own
      exact absurd own (by decide)
    · rcases Row.interval.inj (List.mem_singleton.mp later) with rfl
      intro _
      rfl
  have written : writePlan registry guitar (readPlan registry guitar
      "1:00, Break, Rest\n2:00, , Triads, G, @BPM:90\n").plan =
      .ok "1:00, Break, General/Rest\n2:00, , Triads, G, @BPM:90\n" := rfl
  have outcome := writePlan_readPlan registered "1:00, Break, Rest\n2:00, , Triads, G, @BPM:90\n"
  rw [written] at outcome
  exact ⟨registered, named, outcome named⟩

/-- The comma behind a task keeps it from being a literal.  It is not written
again, so the plan is refused although its line was read without a note. -/
theorem task_refused : (readPlan registry guitar "1:00, @BPM:90,\n").warnings = [] ∧
    writePlan registry guitar (readPlan registry guitar "1:00, @BPM:90,\n").plan =
      .error (.unrepresentable 0 (.literal "BPM:90")) :=
  ⟨rfl, rfl⟩

end Plans

end Catalog
end PracticePlan
