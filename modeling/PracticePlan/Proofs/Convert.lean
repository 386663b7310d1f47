import PracticePlan.Notation.Convert
import PracticePlan.Proofs.Catalog.Items
import PracticePlan.Proofs.Given
import PracticePlan.Proofs.Item.Stated

namespace PracticePlan
namespace Notation

/-!
# Plans that were read survive as JSON

The groups of a plan that was read have levels, and each of its intervals has a
registered category that gave the interval its settings.  JSON expresses every
plan of this kind, provided that the categories make again what they give
(`ReadsOwnSettings`) and that the forms of the settings in the plan survive
printing (`FormsSurvive`).  A text in either notation can therefore be converted
to JSON, and what is read from there is the plan of the first reading
(`exists_same_of_readPlan`).  Nothing is said of the text itself, since what
was skipped in it is gone.

A category is asked only for settings that it can give: its default, those of
literals, and those of forms that stand in the items of some text.  A form that is
null counts as none, and every other form in the plan has to survive printing.
Neither can be left out (`forms_lost`): a category that writes other settings than
its default as a null loses them, and one that keeps the forms it is handed loses a
floating point number that changes when it is printed and read.
-/

variable {σ φ : Type} [IntervalSettings σ]

/-! ## Rows that were read -/

/-- Settings that a category gives to an interval in a line or in an item. -/
def IsOwnSettings (category : Category σ φ) (settings : σ) : Prop :=
  Line.IsReadSettings category settings ∨ Item.IsStatedSettings category settings

/-- A category that makes again from their JSON form whatever settings it gives to
intervals of lines and items. -/
def ReadsOwnSettings (category : Category σ φ) : Prop :=
  ∀ settings, IsOwnSettings category settings →
    Item.ReadsFrom category settings (Item.stated? (IntervalSettings.json? settings))

/-- The same of every form, the null among them. -/
def ReadsOwnForms (category : Category σ φ) : Prop :=
  ∀ settings, IsOwnSettings category settings →
    Item.ReadsFrom category settings (IntervalSettings.json? settings)

/-- The forms of all settings in a plan survive printing. -/
def FormsSurvive (plan : Plan σ) : Prop :=
  ∀ row, .interval row ∈ plan.rows → ∀ form, IntervalSettings.json? row.settings = some form →
    Item.Survives form

variable {registry : Registry σ φ}

omit [IntervalSettings σ] in
/-- The category of an interval that was read has given it the settings. -/
theorem isOwnSettings_of_mem_readPlan {standard : String} {source : Format} {reader : Codec σ φ}
    (opened : Codec.ofFormat registry standard source = .ok reader) {text : String}
    {report : Report σ} (read : reader.readPlan registry text = .ok report)
    {row : IntervalRow σ} (member : .interval row ∈ report.plan.rows) :
    ∃ category, registry.category? row.categoryName = some category ∧
      IsOwnSettings category row.settings := by
  cases reader with
  | items =>
      rcases Item.isStatedRow_of_mem_readPlan read member with ⟨category, found, settings⟩
      exact ⟨category, found, .inr settings⟩
  | lines standard =>
      rw [← Except.ok.inj read] at member
      have given := Line.isRead_of_mem_readPlan (registered_of_ofFormat opened) member
      rcases Line.IsReadInterval.settings given with ⟨category, found, settings⟩
      exact ⟨category, found, .inl settings⟩

/-- A row that was read can be read back from JSON. -/
theorem isReadable_of_mem_readPlan
    (own : ∀ name category, registry.category? name = some category → ReadsOwnSettings category)
    {standard : String} {source : Format} {reader : Codec σ φ}
    (opened : Codec.ofFormat registry standard source = .ok reader) {text : String}
    {report : Report σ} (read : reader.readPlan registry text = .ok report)
    (survive : FormsSurvive report.plan) {row : Row σ} (member : row ∈ report.plan.rows) :
    Item.IsReadable registry row := by
  cases row with
  | group row => exact isGiven_of_mem_readPlan opened read member
  | interval row =>
      rcases isOwnSettings_of_mem_readPlan opened read member with ⟨category, found, settings⟩
      exact ⟨category, found, survive row member, own _ category found row.settings settings⟩

/-! ## Plans that were read -/

/-- Whatever is read in either notation is written as JSON and read back from
there as the same plan, with nothing to warn of. -/
theorem exists_same_of_readPlan
    (own : ∀ name category, registry.category? name = some category → ReadsOwnSettings category)
    {standard : String} {source : Format} {reader : Codec σ φ}
    (opened : Codec.ofFormat registry standard source = .ok reader) {text : String}
    {report : Report σ} (read : reader.readPlan registry text = .ok report)
    (survive : FormsSurvive report.plan) :
    ∃ written, Codec.writePlan registry report.plan (.items : Codec σ φ) = .ok written ∧
      convert registry standard source .json text = .ok (written, report.warnings) ∧
      ∃ back, Codec.readPlan registry written .items = .ok back ∧ back.warnings = [] ∧
        Plan.same back.plan report.plan = true := by
  have converted : convert registry standard source .json text =
      .ok (Item.writePlan report.plan, report.warnings) := by
    apply Except.bind_eq_ok_iff.mpr
    refine ⟨reader, opened, Except.bind_eq_ok_iff.mpr ⟨report, read, rfl⟩⟩
  have readable : ∀ row ∈ report.plan.rows, Item.IsReadable registry row :=
    fun row member => isReadable_of_mem_readPlan own opened read survive member
  refine ⟨_, rfl, converted, Item.reread registry report.plan, ?_,
    Item.reread_of_isReadable readable⟩
  exact Item.readPlan_eq_reread fun row member => (readable row member).legible

/-- Lines of which one is no line of a plan, one has a literal out of range, and
one has a tempo that is no default. -/
def jottings : String :=
  "hello there\n# Warm up\n1:00, Slow, Metronome, @BPM:2\n2:00, , Triads, G, @BPM:90\n"

/-- What an interval of the catalog is given can be read back. -/
theorem readsSettings_of_isOwnSettings {name : String}
    {category : Category CatalogSettings CatalogFeature} {settings : CatalogSettings}
    (found : Catalog.registry.category? name = some category)
    (given : IsOwnSettings category settings) : Item.ReadsSettings category settings :=
  CatalogSettings.readsSettings_of_isGiven found (given.imp_right Item.IsStatedSettings.isHeld)

theorem formsSurvive_of_catalog {standard : String} {source : Format}
    {reader : Codec CatalogSettings CatalogFeature}
    (opened : Codec.ofFormat Catalog.registry standard source = .ok reader) {text : String}
    {report : Report CatalogSettings} (read : reader.readPlan Catalog.registry text = .ok report) :
    FormsSurvive report.plan := by
  intro row member
  rcases isOwnSettings_of_mem_readPlan opened read member with ⟨category, found, given⟩
  exact (readsSettings_of_isOwnSettings found given).survives

/-- A registry of the category that keeps whatever stands for settings. -/
def shelf : Registry Item.Keepsake Unit :=
  ⟨[Item.keepsakes]⟩

/-- No line gives settings to be kept, since there are no literals. -/
theorem isStatedSettings_of_shelf {name : String} {category : Category Item.Keepsake Unit}
    {settings : Item.Keepsake} (found : shelf.category? name = some category)
    (given : IsOwnSettings category settings) :
    category = Item.keepsakes ∧ Item.IsStatedSettings Item.keepsakes settings := by
  rcases Registry.eq_of_category?_singleton found with rfl
  rcases given with (standard | ⟨literal, impossible⟩) | stated
  · exact ⟨rfl, .inl standard⟩
  · cases impossible
  · exact ⟨rfl, stated⟩

theorem readsOwnForms_of_shelf {name : String} {category : Category Item.Keepsake Unit}
    (found : shelf.category? name = some category) : ReadsOwnForms category := by
  intro settings given
  rcases isStatedSettings_of_shelf found given with ⟨rfl, stated⟩
  exact Item.readsFrom_keepsakes stated

theorem readsOwnSettings_of_shelf {name : String} {category : Category Item.Keepsake Unit}
    (found : shelf.category? name = some category) : ReadsOwnSettings category := by
  intro settings given
  rw [Item.stated?_keepsakes (isStatedSettings_of_shelf found given).2]
  exact readsOwnForms_of_shelf found settings given

/-- Whether the settings in a plan have no floating point numbers. -/
def isExactPlan (plan : Plan Item.Keepsake) : Bool :=
  plan.rows.all fun row => match row with
    | .group _ => true
    | .interval row => row.settings.form?.all Json.isExact

/-- What the category keeps survives in every plan without floating point numbers. -/
theorem formsSurvive_of_isExactPlan {standard : String} {source : Format}
    {reader : Codec Item.Keepsake Unit} (opened : Codec.ofFormat shelf standard source = .ok reader)
    {text : String} {report : Report Item.Keepsake} (read : reader.readPlan shelf text = .ok report)
    (exactly : isExactPlan report.plan = true) : FormsSurvive report.plan := by
  intro row member form told
  rcases isOwnSettings_of_mem_readPlan opened read member with ⟨category, found, given⟩
  have whole : (row.settings.form?.all Json.isExact) = true := List.all_eq_true.mp exactly _ member
  have kept : row.settings.form? = some form := told
  rw [kept, Option.all_some] at whole
  exact Item.survives_keepsakes (isStatedSettings_of_shelf found given).2 told whole

/-- An item that is none, and one whose settings are not sorted and have a key twice. -/
def heirlooms : String :=
  "\x7b\"items\":[7,\x7b\"rowType\":\"interval\",\"categoryName\":\"Keepsakes\"," ++
    "\"intervalSettings\":\x7b\"b\":[-1,null],\"a\":1,\"a\":\x7b\x7d\x7d\x7d]\x7d"

/-- What is read of the heirlooms. -/
def heirloom : Plan Item.Keepsake :=
  ⟨"", [.interval ⟨"0:00", "", "Keepsakes", "", [],
    ⟨some (.object [("a", .object []), ("b", .array [.integer (-1), .null])])⟩⟩]⟩

theorem exists_same_jottings :
    ((∀ name category, Catalog.registry.category? name = some category →
        ReadsOwnSettings category) ∧
      Codec.ofFormat Catalog.registry "Guitar" .text = .ok (.lines Catalog.guitar) ∧
      ∃ report, Codec.readPlan Catalog.registry jottings (.lines Catalog.guitar) = .ok report ∧
        FormsSurvive report.plan ∧ report.warnings.length = 2 ∧ report.plan.rows.length = 3 ∧
        ∃ written, convert Catalog.registry "Guitar" .text .json jottings =
            .ok (written, report.warnings) ∧
          ∃ back, Item.readPlan Catalog.registry written = .ok back ∧ back.warnings = [] ∧
            Plan.same back.plan report.plan = true) ∧
    (∀ name category, shelf.category? name = some category → ReadsOwnSettings category) ∧
      Codec.ofFormat shelf "" .json = .ok .items ∧
      ∃ report, Codec.readPlan shelf heirlooms .items = .ok report ∧
        FormsSurvive report.plan ∧ report.warnings.length = 1 ∧
        Plan.same report.plan heirloom = true ∧
        ∃ written, convert shelf "" .json .json heirlooms = .ok (written, report.warnings) ∧
          ∃ back, Item.readPlan shelf written = .ok back ∧ back.warnings = [] ∧
            Plan.same back.plan report.plan = true := by
  constructor
  · have own : ∀ name category, Catalog.registry.category? name = some category →
        ReadsOwnSettings category := fun _ _ found _ given =>
      (readsSettings_of_isOwnSettings found given).reads
    have opened : Codec.ofFormat Catalog.registry "Guitar" .text =
        .ok (.lines Catalog.guitar) := rfl
    have read : Codec.readPlan Catalog.registry jottings (.lines Catalog.guitar) =
        .ok (Line.readPlan Catalog.registry Catalog.guitar jottings) := rfl
    have survive := formsSurvive_of_catalog opened read
    rcases exists_same_of_readPlan own opened read survive with ⟨written, -, converted, back⟩
    exact ⟨own, opened, _, rfl, survive, rfl, rfl, written, converted, back⟩
  · have own : ∀ name category, shelf.category? name = some category →
        ReadsOwnSettings category := fun _ _ found => readsOwnSettings_of_shelf found
    have opened : Codec.ofFormat shelf "" .json = .ok .items := rfl
    have outcome : ((Codec.readPlan shelf heirlooms .items).toOption.any fun report =>
        isExactPlan report.plan && report.warnings.length == 1 &&
          Plan.same report.plan heirloom) = true := by
      decide +kernel
    rcases (Option.any_eq_true _ _).mp outcome with ⟨report, known, told⟩
    rw [Bool.and_eq_true, Bool.and_eq_true, beq_iff_eq] at told
    rcases told with ⟨⟨exactly, noted⟩, same⟩
    have read := Except.toOption_eq_some_iff.mp known
    have survive := formsSurvive_of_isExactPlan opened read exactly
    rcases exists_same_of_readPlan own opened read survive with ⟨written, -, converted, back⟩
    exact ⟨own, opened, report, read, survive, noted, same, written, converted, back⟩

/-! ## Forms that are lost -/

/-- A march whose settings are a truth value. -/
def countedIn : String :=
  "\x7b\"items\":[\x7b\"rowType\":\"interval\",\"duration\":\"1:00\",\"task\":\"March\"," ++
    "\"categoryName\":\"Drums\",\"intervalSettings\":true\x7d]\x7d"

/-- An item whose settings are a number that changes when it is printed and read. -/
def measured : String :=
  "\x7b\"items\":[\x7b\"rowType\":\"interval\",\"categoryName\":\"Keepsakes\"," ++
    "\"intervalSettings\":7.699494961964326e-8\x7d]\x7d"

/-- What was read of a text is written and read again without a warning, as another
plan. -/
def IsLost (registry : Registry σ φ) (text : String) (report : Report σ) : Prop :=
  Codec.readPlan registry text .items = .ok report ∧ report.warnings = [] ∧
    ∃ back, Codec.readPlan registry (Item.writePlan report.plan) .items = .ok back ∧
      back.warnings = [] ∧ Plan.same back.plan report.plan = false

set_option maxRecDepth 8000 in
theorem isLost_countedIn :
    IsLost Item.CountIn.registry countedIn ⟨⟨"", [.interval Item.CountIn.march]⟩, []⟩ := by
  have found : Item.CountIn.registry.category? Item.CountIn.march.categoryName =
      some Item.CountIn.drums := rfl
  exact ⟨rfl, rfl, _, Item.readPlan_of_null "" found rfl, rfl, rfl⟩

theorem exists_isLost_measured : ∃ report, IsLost shelf measured report := by
  have outcome : ((Codec.readPlan shelf measured .items).toOption.any fun report =>
      report.warnings.isEmpty &&
        (Codec.readPlan shelf (Item.writePlan report.plan) .items).toOption.any fun back =>
          back.warnings.isEmpty && !Plan.same back.plan report.plan) = true := by
    -- Both texts as lists of characters, which spares the kernel their encoding.
    simp only [Codec.readPlan, Item.readPlan, Item.writePlan, Json.ofText, Json.indented,
      String.toList_ofList]
    decide +kernel
  rcases (Option.any_eq_true _ _).mp outcome with ⟨report, known, told⟩
  rw [Bool.and_eq_true, List.isEmpty_iff] at told
  rcases (Option.any_eq_true _ _).mp told.2 with ⟨back, again, changed⟩
  rw [Bool.and_eq_true, List.isEmpty_iff, Bool.not_eq_true'] at changed
  exact ⟨report, Except.toOption_eq_some_iff.mp known, told.1, back,
    Except.toOption_eq_some_iff.mp again, changed⟩

/-- Categories that make their settings again from every form do not save a plan in
which a form is null, nor one in which a form does not survive printing. -/
theorem forms_lost :
    ((∀ name category, Item.CountIn.registry.category? name = some category →
        ReadsOwnForms category) ∧
      Codec.ofFormat Item.CountIn.registry "Drums" .json = .ok .items ∧
      ∃ report, FormsSurvive report.plan ∧ IsLost Item.CountIn.registry countedIn report) ∧
    (∀ name category, shelf.category? name = some category → ReadsOwnForms category) ∧
      Codec.ofFormat shelf "" .json = .ok .items ∧ ∃ report, IsLost shelf measured report := by
  constructor
  · refine ⟨?_, rfl, _, ?_, isLost_countedIn⟩
    · intro name category found settings _
      rcases Registry.eq_of_category?_singleton found with rfl
      exact Item.CountIn.readsFrom_drums settings
    · exact fun row _ _ => Item.CountIn.survives_drums row.settings
  · exact ⟨fun _ _ found => readsOwnForms_of_shelf found, rfl, exists_isLost_measured⟩

end Notation
end PracticePlan
