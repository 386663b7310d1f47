import PracticePlan.Catalog.Basic
import PracticePlan.Notation.Item
import PracticePlan.Proofs.Json.ReadBack
import PracticePlan.Proofs.Plan.Same

namespace PracticePlan
namespace Notation
namespace Item

/-!
# Plans as JSON, written and read back

Every plan can be written as JSON, and what is read back is the same plan.  No
text in it has to satisfy anything.  Two things are asked of a row: the level of
a group is not zero, and the category of an interval is registered and reads
the settings of the interval from their JSON form.

Settings are JSON of their own, of which this notation knows nothing.  Their form
has to be one that survives printing: sorted by key, as every value is that the
reader makes, and legible inside the plan, the item list and the item.  A form that
is null survives as well, but it is read as no settings at all, so only the default
of a category may have it (`readPlan_of_null`).
-/

/-! ## One item -/

theorem mapM_asText (texts : List String) :
    (texts.map Json.string).mapM Json.asText = .ok texts := by
  induction texts with
  | nil => rfl
  | cons text rest inductionHypothesis =>
      rw [List.map_cons, List.mapM_cons, inductionHypothesis]
      rfl

theorem ordered_strings (texts : List String) :
    Json.ordered (.array (texts.map .string)) = .array (texts.map .string) := by
  rw [Json.ordered, Json.orderedElements_eq_map, List.map_map]
  rfl

theorem asUInt32_toNat (level : UInt32) :
    Json.asUInt32 (.integer level.toNat) = .ok level := by
  have bounded : (0 : Int) ≤ level.toNat ∧ (level.toNat : Int) < (0x100000000 : Nat) :=
    ⟨Int.natCast_nonneg _, Int.ofNat_lt.mpr level.toNat_lt⟩
  rw [Json.asUInt32, Json.asNatural, if_pos bounded]
  exact congrArg Except.ok UInt32.ofNat_toNat

/-- An object is read as the type of item that its row type names. -/
theorem ofJson_of_kind {members : List (String × Json)} {name : String} {kind : Kind}
    (named : Json.member? kindKey members = some (.string name))
    (known : Json.variantNamed kinds name = .ok kind) :
    ofJson (.object members) = ofMembers members kind := by
  rw [ofJson, named]
  dsimp only
  rw [kindOf, known]
  rfl

theorem readFields_append {α : Type} (withField : α → String → Json → Json.Shaped α)
    {draft read : α} {first : List (String × Json)}
    (known : readFields withField draft first = .ok read) (second : List (String × Json)) :
    readFields withField draft (first ++ second) = readFields withField read second := by
  rw [readFields, List.foldlM_append]
  exact congrArg (·.bind fun draft => readFields withField draft second) known

theorem ofJson_group (level : UInt32) (name : String) :
    ofJson (toJson (.group level name)).ordered = .ok (.group level name) := by
  have sorted : (toJson (.group level name)).ordered =
      .object [("level", .integer level.toNat), ("name", .string name),
        (kindKey, .string "group")] := rfl
  have readLevel : GroupDraft.withField .empty "level" (.integer level.toNat) =
      .ok ⟨some level, ""⟩ := by
    rw [GroupDraft.withField, asUInt32_toNat]
    rfl
  have fields : readFields GroupDraft.withField .empty [("level", .integer level.toNat),
      ("name", .string name), (kindKey, .string "group")] = .ok ⟨some level, name⟩ := by
    rw [readFields, List.foldlM_cons, readLevel]
    rfl
  have known : Json.variantNamed kinds "group" = .ok .group := rfl
  rw [sorted, ofJson_of_kind rfl known, ofMembers, fields]
  rfl

/-- What the reader takes from the settings member: a null counts as no member. -/
def stated? : Option Json → Option Json
  | some .null => none
  | other => other

theorem stated?_of_ne_null {form : Json} (shown : form ≠ .null) :
    stated? (some form) = some form := by
  cases form with
  | null => exact absurd rfl shown
  | _ => rfl

/-- What is stated is no null. -/
theorem ne_null_of_stated? {form? : Option Json} {form : Json}
    (stated : stated? form? = some form) : form ≠ .null ∧ form? = some form := by
  cases form? with
  | none => cases stated
  | some value =>
      cases value with
      | null => cases stated
      | _ =>
          rcases Option.some.inj stated with rfl
          exact ⟨nofun, rfl⟩

/-- A null counts as no settings. -/
theorem settingsIn_of_ne_null {σ φ : Type} (category : Category σ φ) {form : Json}
    (shown : form ≠ .null) :
    settingsIn category (some form) = match category.settingsOfJson form with
      | .ok settings => (settings, none)
      | .error cause => (category.defaultSettings, some (.defaultSettings cause)) := by
  cases form with
  | null => exact absurd rfl shown
  | _ => rfl

theorem withField_settings (draft : IntervalDraft) (settings : Json) :
    draft.withField "intervalSettings" settings =
      .ok { draft with settings? := stated? (some settings) } := by
  rw [IntervalDraft.withField]
  cases settings with
  | null => rfl
  | _ => rfl

theorem readFields_leading (duration categoryName featureType : String)
    (arguments : List String) :
    readFields IntervalDraft.withField .empty
        [("categoryName", .string categoryName), ("duration", .string duration),
          ("featureArgsList", .array (arguments.map .string)),
          ("featureTypeName", .string featureType)] =
      .ok ⟨duration, "", some categoryName, featureType, arguments, none⟩ := by
  have texts : Json.asList Json.asText (.array (arguments.map .string)) = .ok arguments :=
    mapM_asText arguments
  have readArguments : IntervalDraft.withField ⟨duration, "", some categoryName, "", [], none⟩
      "featureArgsList" (.array (arguments.map .string)) =
      .ok ⟨duration, "", some categoryName, "", arguments, none⟩ := by
    rw [IntervalDraft.withField, texts]
    rfl
  have first : readFields IntervalDraft.withField .empty
      [("categoryName", .string categoryName), ("duration", .string duration)] =
      .ok ⟨duration, "", some categoryName, "", [], none⟩ := rfl
  apply (readFields_append IntervalDraft.withField first _).trans
  rw [readFields, List.foldlM_cons, readArguments]
  rfl

/-- An interval item is read back, with its settings as they are stated. -/
theorem ofJson_interval (fields : IntervalItem)
    (sorted : ∀ settings, fields.settings? = some settings → settings.ordered = settings) :
    ofJson (toJson (.interval fields)).ordered =
      .ok (.interval { fields with settings? := stated? fields.settings? }) := by
  rcases fields with ⟨duration, task, categoryName, featureType, arguments, settings?⟩
  have known : Json.variantNamed kinds "interval" = .ok .interval := rfl
  -- Sorted by key, the settings stand between the leading members and the last two.
  have front := readFields_leading duration categoryName featureType arguments
  have back : ∀ draft : IntervalDraft, readFields IntervalDraft.withField draft
      [(kindKey, .string "interval"), ("task", .string task)] = .ok { draft with task } :=
    fun _ => rfl
  cases settings? with
  | none =>
      have same : (toJson (.interval ⟨duration, task, categoryName, featureType, arguments,
          none⟩)).ordered =
          .object [("categoryName", .string categoryName), ("duration", .string duration),
            ("featureArgsList", Json.ordered (.array (arguments.map .string))),
            ("featureTypeName", .string featureType), (kindKey, .string "interval"),
            ("task", .string task)] := rfl
      have read := (readFields_append IntervalDraft.withField front _).trans (back _)
      rw [same, ordered_strings, ofJson_of_kind rfl known, ofMembers]
      exact congrArg (·.bind (IntervalDraft.complete (.missingField "categoryName"))) read
  | some settings =>
      have same : (toJson (.interval ⟨duration, task, categoryName, featureType, arguments,
          some settings⟩)).ordered =
          .object [("categoryName", .string categoryName), ("duration", .string duration),
            ("featureArgsList", Json.ordered (.array (arguments.map .string))),
            ("featureTypeName", .string featureType), ("intervalSettings", settings.ordered),
            (kindKey, .string "interval"), ("task", .string task)] := rfl
      have middle : readFields IntervalDraft.withField
          ⟨duration, "", some categoryName, featureType, arguments, none⟩
          [("intervalSettings", settings)] =
          .ok ⟨duration, "", some categoryName, featureType, arguments,
            stated? (some settings)⟩ := by
        rw [readFields, List.foldlM_cons, withField_settings]
        rfl
      have read := (readFields_append IntervalDraft.withField front _).trans
        ((readFields_append IntervalDraft.withField middle _).trans (back _))
      rw [same, ordered_strings, sorted settings rfl, ofJson_of_kind rfl known, ofMembers]
      exact congrArg (·.bind (IntervalDraft.complete (.missingField "categoryName"))) read

/-! ## One row -/

section Rows

variable {σ φ : Type} [IntervalSettings σ]

/-- A form that comes back from a printed plan as it is.  It is sorted by key, as
every value is that the reader makes, and legible where settings stand. -/
def Survives (form : Json) : Prop :=
  form.ordered = form ∧ Json.Legible 3 form

/-- A category makes the settings from a form.  Without a form they must be the
default of the category. -/
def ReadsFrom (category : Category σ φ) (settings : σ) : Option Json → Prop
  | none => IntervalSettings.same category.defaultSettings settings = true
  | some form =>
      ∃ read, category.settingsOfJson form = .ok read ∧ IntervalSettings.same read settings = true

/-- A category reads settings back from their JSON form in a printed plan.  A form
that is null is no form, since the reader takes a null for a missing member. -/
structure ReadsSettings (category : Category σ φ) (settings : σ) : Prop where
  survives : ∀ form, IntervalSettings.json? settings = some form → Survives form
  reads : ReadsFrom category settings (stated? (IntervalSettings.json? settings))

/-- What a row needs to be read back from JSON. -/
def IsReadable (registry : Registry σ φ) : Row σ → Prop
  | .group row => row.level ≠ 0
  | .interval row => ∃ category, registry.category? row.categoryName = some category ∧
      ReadsSettings category row.settings

/-- The settings of an item are those of the row. -/
theorem ReadsSettings.settingsIn {category : Category σ φ} {settings : σ}
    (back : ReadsSettings category settings) :
    ∃ read, Item.settingsIn category (stated? (IntervalSettings.json? settings)) = (read, none) ∧
      IntervalSettings.same read settings = true := by
  have reads := back.reads
  cases stated : stated? (IntervalSettings.json? settings) with
  | none =>
      rw [stated] at reads
      exact ⟨category.defaultSettings, rfl, reads⟩
  | some form =>
      rw [stated] at reads
      rcases reads with ⟨read, known, same⟩
      refine ⟨read, ?_, same⟩
      rw [settingsIn_of_ne_null category (ne_null_of_stated? stated).1, known]

variable {registry : Registry σ φ}

/-- The item of an interval is legible when the JSON form of its settings is. -/
theorem legible_interval {row : IntervalRow σ}
    (forms : ∀ form, IntervalSettings.json? row.settings = some form → Json.Legible 3 form) :
    Json.Legible 2 (ofRow (.interval row)).toJson := by
  have texts : Json.LegibleElements 4 (row.arguments.map .string) := by
    apply Json.legibleElements_of_forall
    intro element member
    rcases List.mem_map.mp member with ⟨text, -, rfl⟩
    trivial
  rw [ofRow, toJson]
  dsimp only
  cases told : IntervalSettings.json? row.settings with
  | none =>
      exact ⟨by decide, trivial, trivial, trivial, trivial, trivial, ⟨by decide, texts⟩, trivial⟩
  | some form =>
      exact ⟨by decide, trivial, trivial, trivial, trivial, trivial, ⟨by decide, texts⟩,
        forms form told, trivial⟩

theorem IsReadable.legible {row : Row σ} (readable : IsReadable registry row) :
    Json.Legible 2 (ofRow row).toJson := by
  cases row with
  | group row =>
      have bounded := row.level.toNat_lt
      exact ⟨by decide, trivial, ⟨by omega, by omega⟩, trivial, trivial⟩
  | interval row =>
      rcases readable with ⟨category, -, reads⟩
      exact legible_interval fun form told => (reads.survives form told).2

/-- The item of a readable row is read as the same row, with nothing to note. -/
theorem read_toJson {row : Row σ} (readable : IsReadable registry row) :
    (read registry (ofRow row).toJson.ordered).note? = none ∧
      ∃ back, (read registry (ofRow row).toJson.ordered).row? = some back ∧
        back.same row = true := by
  cases row with
  | group row =>
      have made : GroupRow.make? row.level row.name = some row := if_neg readable
      rw [read, ofRow, ofJson_group]
      dsimp only
      rw [contribution, Contribution.ofGroup, made]
      exact ⟨rfl, _, rfl, beq_self_eq_true row⟩
  | interval row =>
      rcases readable with ⟨category, found, reads⟩
      rcases reads.settingsIn with ⟨settings, known, same⟩
      rw [read, ofRow, ofJson_interval _ fun form told => (reads.survives form told).1]
      dsimp only
      rw [contribution, found]
      dsimp only
      rw [known, Registry.name_of_category? found]
      exact ⟨rfl, _, rfl, IntervalRow.same_withSettings row same⟩

/-! ## A plan -/

/-- The report on a printed plan, when each item is read as it was printed. -/
def reread (registry : Registry σ φ) (plan : Plan σ) : Report σ :=
  .ofPieces plan.name .item 0 (read registry)
    (plan.rows.map fun row => (ofRow row).toJson.ordered)

theorem readPlan_eq_reread {plan : Plan σ}
    (items : ∀ row ∈ plan.rows, Json.Legible 2 (ofRow row).toJson) :
    readPlan registry (writePlan plan) = .ok (reread registry plan) := by
  have legible : Json.Legible 0 (documentOf plan) := by
    refine ⟨by decide, trivial, ⟨by decide, Json.legibleElements_of_forall ?_⟩, trivial⟩
    intro item member
    rcases List.mem_map.mp member with ⟨row, known, rfl⟩
    exact items row known
  have document : (documentOf plan).ordered =
      .object [("items", .array (Json.orderedElements (plan.rows.map fun row =>
        (ofRow row).toJson))), ("name", .string plan.name)] := rfl
  rw [readPlan, writePlan, Json.ofText_indented legible, document, Json.orderedElements_eq_map,
    List.map_map]
  rfl

theorem rows_reread (plan : Plan σ) :
    (reread registry plan).plan.rows =
      (plan.rows.map fun row => read registry (ofRow row).toJson.ordered).filterMap
        Contribution.row? := by
  rw [reread, Report.rows_ofPieces, List.map_map]
  rfl

theorem warnings_reread_eq_nil_iff {plan : Plan σ} :
    (reread registry plan).warnings = [] ↔
      ∀ row ∈ plan.rows, (read registry (ofRow row).toJson.ordered).note? = none := by
  rw [reread, Report.warnings_ofPieces_eq_nil_iff, List.forall_mem_map, List.forall_mem_map]

/-- A report is known row by row, when every item gives a row and nothing else. -/
theorem reread_eq_of_forall_read {plan : Plan σ} (next : Row σ → Row σ)
    (each : ∀ row ∈ plan.rows, read registry (ofRow row).toJson.ordered = .ofRow (next row)) :
    reread registry plan = ⟨⟨plan.name, plan.rows.map next⟩, []⟩ := by
  have rows : (reread registry plan).plan.rows = plan.rows.map next := by
    rw [rows_reread, List.map_congr_left each, List.filterMap_map]
    exact congrFun List.filterMap_eq_map plan.rows
  have silent : (reread registry plan).warnings = [] :=
    warnings_reread_eq_nil_iff.mpr fun row member => congrArg Contribution.note? (each row member)
  exact congr (congrArg Report.mk (congrArg (Plan.mk plan.name) rows)) silent

/-- Readable rows are read again as the same rows, with nothing to warn of. -/
theorem reread_of_isReadable {plan : Plan σ}
    (readable : ∀ row ∈ plan.rows, IsReadable registry row) :
    (reread registry plan).warnings = [] ∧ Plan.same (reread registry plan).plan plan = true := by
  have back : ∀ row ∈ plan.rows, ∃ back,
      (read registry (ofRow row).toJson.ordered).row? = some back ∧ back.same row = true :=
    fun row member => (read_toJson (readable row member)).2
  constructor
  · exact warnings_reread_eq_nil_iff.mpr fun row member => (read_toJson (readable row member)).1
  · rw [Plan.same, rows_reread, List.filterMap_map, Bool.and_eq_true]
    refine ⟨beq_self_eq_true plan.name, (Row.sameAll_filterMap fun row member => ?_).mpr back⟩
    exact (back row member).imp fun _ known => known.1

/-- A plan of readable rows is written as JSON and read back as the same plan,
with nothing to warn of. -/
theorem readPlan_writePlan (registry : Registry σ φ) (plan : Plan σ)
    (readable : ∀ row ∈ plan.rows, IsReadable registry row) :
    ∃ report, readPlan registry (writePlan plan) = .ok report ∧ report.warnings = [] ∧
      Plan.same report.plan plan = true :=
  ⟨reread registry plan, readPlan_eq_reread fun row member => (readable row member).legible,
    reread_of_isReadable readable⟩

/-- A plan of the catalog with settings of its own and texts that need escaping. -/
def session : Plan CatalogSettings :=
  ⟨"Σ \"quoted\" \\ \t\u0001 🎸", [.group ⟨4294967295, ""⟩,
    .interval ⟨"", " two\nlines ", "Guitar", "Scale, minor", ["", ",", ""],
      .guitar ⟨some 92, 3, false⟩⟩,
    .interval ⟨"0:30", "#", "General", "Rest", [], .plain "General"⟩]⟩

theorem readPlan_session : (∀ row ∈ session.rows, IsReadable Catalog.registry row) ∧
    ∃ report, readPlan Catalog.registry (writePlan session) = .ok report ∧
      report.warnings = [] ∧ Plan.same report.plan session = true := by
  have readable : ∀ row ∈ session.rows, IsReadable Catalog.registry row := by
    intro row member
    simp only [session, List.mem_cons, List.not_mem_nil, or_false] at member
    rcases member with rfl | rfl | rfl
    · exact (by decide : (4294967295 : UInt32) ≠ 0)
    · have legible : Json.Legible 3
          (.object [("metronome", Metronome.toJson ⟨some 92, 3, false⟩)]) :=
        ⟨by decide, ⟨by decide, trivial, ⟨by decide, by decide⟩, ⟨by decide, by decide⟩, trivial⟩,
          trivial⟩
      refine ⟨Catalog.guitar, rfl, ?_, .guitar ⟨some 92, 3, false⟩, rfl, rfl⟩
      intro form told
      rcases Option.some.inj told with rfl
      exact ⟨rfl, legible⟩
    · exact ⟨Catalog.general, rfl, nofun, rfl⟩
  exact ⟨readable, readPlan_writePlan Catalog.registry session readable⟩

/-! ## Forms that are null -/

/-- A null is written but never shown to the category.  The row comes back with
the default settings, and there is nothing to note. -/
theorem read_toJson_of_null {row : IntervalRow σ} {category : Category σ φ}
    (found : registry.category? row.categoryName = some category)
    (null : IntervalSettings.json? row.settings = some .null) :
    read registry (ofRow (.interval row)).toJson.ordered =
      .ofRow (.interval { row with settings := category.defaultSettings }) := by
  have sorted : ∀ form, IntervalSettings.json? row.settings = some form → form.ordered = form := by
    intro form told
    rcases Option.some.inj (null.symm.trans told) with rfl
    rfl
  rw [read, ofRow, ofJson_interval _ sorted]
  dsimp only
  rw [contribution, null, found]
  dsimp only
  rw [Registry.name_of_category? found]
  rfl

/-- The plan of such a row is read without a warning, and the settings are lost. -/
theorem readPlan_of_null {row : IntervalRow σ} {category : Category σ φ} (name : String)
    (found : registry.category? row.categoryName = some category)
    (null : IntervalSettings.json? row.settings = some .null) :
    readPlan registry (writePlan ⟨name, [.interval row]⟩) =
      .ok ⟨⟨name, [.interval { row with settings := category.defaultSettings }]⟩, []⟩ := by
  have printed : Json.Legible 2 (ofRow (.interval row)).toJson := by
    apply legible_interval
    intro form told
    rcases Option.some.inj (null.symm.trans told) with rfl
    trivial
  have legible : ∀ other ∈ [Row.interval row], Json.Legible 2 (ofRow other).toJson :=
    List.forall_mem_singleton.mpr printed
  have lost : ∀ other ∈ [Row.interval row], read registry (ofRow other).toJson.ordered =
      .ofRow (.interval { row with settings := category.defaultSettings }) :=
    List.forall_mem_singleton.mpr (read_toJson_of_null found null)
  rw [readPlan_eq_reread legible, reread_eq_of_forall_read (fun _ => .interval _) lost]
  rfl

end Rows

/-- Settings of a category that counts in or not.  A null stands for counting in. -/
structure CountIn where
  on : Bool

instance : IntervalSettings CountIn where
  category _ := "Drums"
  json? settings := if settings.on then some .null else none
  block? _ _ := none
  replaceBlock name _ := throw (.noBlock "Drums" name)
  literal? _ := none

namespace CountIn

/-- Settings in their JSON form, or as a truth value. -/
def ofJson : Json → Except SettingsError CountIn
  | .null => .ok ⟨true⟩
  | other => (other.asBoolean.mapError .shape).map CountIn.mk

def drums : Category CountIn Unit where
  name := "Drums"
  displayName := "Drums"
  types := []
  defaultSettings := ⟨false⟩
  settingsOfJson := ofJson
  settingsOfLiteral? _ := none

def registry : Registry CountIn Unit :=
  ⟨[drums]⟩

/-- From every form, a null as well, the category makes the settings again. -/
theorem readsFrom_drums (settings : CountIn) :
    ReadsFrom drums settings (IntervalSettings.json? settings) := by
  rcases settings with ⟨_ | _⟩
  · exact rfl
  · exact ⟨⟨true⟩, rfl, rfl⟩

theorem survives_drums (settings : CountIn) {form : Json}
    (told : IntervalSettings.json? settings = some form) : Survives form := by
  rcases settings with ⟨_ | _⟩
  · cases told
  · rcases Option.some.inj told with rfl
    exact ⟨rfl, trivial⟩

def march : IntervalRow CountIn :=
  ⟨"1:00", "March", "Drums", "", [], ⟨true⟩⟩

def bareMarch : IntervalRow CountIn :=
  { march with settings := drums.defaultSettings }

/-- The category makes the settings from their form, which survives printing, and still
they come back as the default, without a warning. -/
theorem march_lost :
    CountIn.registry.category? march.categoryName = some drums ∧
      (∀ form, IntervalSettings.json? march.settings = some form → Survives form) ∧
      ReadsFrom drums march.settings (IntervalSettings.json? march.settings) ∧
      readPlan CountIn.registry (writePlan ⟨"", [.interval march]⟩) =
        .ok ⟨⟨"", [.interval bareMarch]⟩, []⟩ ∧
      Plan.same ⟨"", [.interval bareMarch]⟩ ⟨"", [.interval march]⟩ = false := by
  have found : CountIn.registry.category? march.categoryName = some drums := rfl
  exact ⟨found, fun _ => survives_drums march.settings, readsFrom_drums march.settings,
    readPlan_of_null "" found rfl, rfl⟩

end CountIn

end Item
end Notation
end PracticePlan
