import PracticePlan.Catalog.Basic
import PracticePlan.Proofs.Item.Settings
import PracticePlan.Proofs.Report.Gathering

namespace PracticePlan
namespace Notation
namespace Item

/-!
# Items are read one by one

A document is refused as a whole only when it has no items at all
(`IsRefused`).  Otherwise each of its items is settled by itself and by the
registry.  It gives one row, perhaps with a note that default settings are used,
or it gives no row and one note that tells why (`IsYield`).

Settings never cost a row: an item whose settings its category refuses gives the
row that it gives without them, and a note.
-/

variable {σ φ : Type}

/-! ## One list of notes -/

/-- The settings of an interval item, with a note when the default is used in
their place. -/
def settingsNoting (category : Category σ φ) : Option Json → Noting σ
  | none | some .null => pure category.defaultSettings
  | some content => match category.settingsOfJson content with
      | .ok settings => pure settings
      | .error cause => do
          Noting.note (.defaultSettings cause)
          pure category.defaultSettings

/-- Read an item of the right shape. -/
def contributionNoting (registry : Registry σ φ) : Item → Noting (Option (Row σ))
  | group level name => .group level name
  | interval fields => match registry.category? fields.categoryName with
      | none => throw (.unregistered fields.categoryName)
      | some category => do
          let settings ← settingsNoting category fields.settings?
          pure (some (.interval ⟨fields.duration, fields.task, category.name, fields.featureType,
            fields.arguments, settings⟩))

/-- Read an item with a list of notes at hand. -/
def readNoting (registry : Registry σ φ) (item : Json) : Noting (Option (Row σ)) :=
  match ofJson item with
  | .ok shaped => shaped.contributionNoting registry
  | .error cause => throw (.malformed cause)

theorem settingsNoting_of_ne_null (category : Category σ φ) {form : Json} (shown : form ≠ .null) :
    settingsNoting category (some form) = match category.settingsOfJson form with
      | .ok settings => pure settings
      | .error cause =>
          (Noting.note (.defaultSettings cause) >>= fun _ => pure category.defaultSettings) := by
  cases form with
  | null => exact absurd rfl shown
  | _ => rfl

theorem on_settingsNoting (category : Category σ φ) (settings? : Option Json)
    (notes : List Note) :
    (settingsNoting category settings?).on notes =
      (.ok (settingsIn category settings?).1,
        notes ++ (settingsIn category settings?).2.toList) := by
  have silent (settings : σ) : (pure settings : Noting σ).on notes = (.ok settings, notes ++ []) :=
    congrArg (Prod.mk _) (List.append_nil notes).symm
  rcases settings? with _ | form
  · exact silent category.defaultSettings
  · by_cases shown : form = .null
    · subst shown
      exact silent category.defaultSettings
    · rw [settingsNoting_of_ne_null category shown, settingsIn_of_ne_null category shown]
      cases category.settingsOfJson form with
      | ok settings => exact silent settings
      | error cause => rfl

variable {registry : Registry σ φ}

theorem gives_readNoting (item : Json) : (readNoting registry item).Gives (read registry item) := by
  rw [readNoting, read]
  cases ofJson item with
  | error cause => exact Noting.gives_skipped (.malformed cause)
  | ok shaped =>
      cases shaped with
      | group level name => exact Noting.gives_group level name
      | interval fields =>
          dsimp only
          rw [contributionNoting, contribution]
          cases registry.category? fields.categoryName with
          | none => exact Noting.gives_skipped (.unregistered fields.categoryName)
          | some category =>
              exact Noting.gives_bind (on_settingsNoting category fields.settings?) fun settings =>
                .interval ⟨fields.duration, fields.task, category.name, fields.featureType,
                  fields.arguments, settings⟩

/-! ## What an item gives -/

/-- What an item may contribute: a row, possibly with a note that default settings
are used, or no row and one note. -/
inductive IsYield : Contribution σ → Prop
  | row (row : Row σ) : IsYield ⟨some row, none⟩
  | standard (row : Row σ) (cause : SettingsError) :
      IsYield ⟨some row, some (.defaultSettings cause)⟩
  | malformed (cause : Json.ShapeError) : IsYield ⟨none, some (.malformed cause)⟩
  | levelZero : IsYield ⟨none, some .levelZero⟩
  | unregistered (category : String) : IsYield ⟨none, some (.unregistered category)⟩

theorem isYield_contribution (item : Item) : IsYield (item.contribution registry) := by
  cases item with
  | group level name =>
      rw [contribution, Contribution.ofGroup]
      cases GroupRow.make? level name with
      | none => exact .levelZero
      | some row => exact .row (.group row)
  | interval fields =>
      cases found : registry.category? fields.categoryName with
      | none =>
          rw [contribution, found]
          exact .unregistered fields.categoryName
      | some category =>
          rw [contribution_of_category? found]
          rcases fields.settings? with _ | form
          · exact .row _
          · by_cases shown : form = .null
            · subst shown
              exact .row _
            · rw [settingsIn_of_ne_null category shown]
              cases category.settingsOfJson form with
              | ok settings => exact .row _
              | error cause => exact .standard _ cause

theorem isYield_read (item : Json) : IsYield (read registry item) := by
  rw [read]
  cases ofJson item with
  | error cause => exact .malformed cause
  | ok shaped => exact isYield_contribution shaped

/-! ## Documents -/

/-- Whether a text is a JSON object with a list of items. -/
def HasItems (text name : String) (items : List Json) : Prop :=
  ∃ members, Json.ofText text = .ok (.object members) ∧
    Json.member? "items" members = some (.array items) ∧ nameOf members = name

/-- Why a text has no items. -/
inductive IsRefused (text : String) : FormatError → Prop
  | invalid {fault : Json.Fault} (refused : Json.ofText text = .error fault) :
      IsRefused text (.invalidJson fault)
  | notAnObject {root : Json} (read : Json.ofText text = .ok root)
      (other : ∀ members, root ≠ .object members) : IsRefused text .notAnObject
  | missingItems {members : List (String × Json)}
      (read : Json.ofText text = .ok (.object members))
      (missing : ∀ items, Json.member? "items" members ≠ some (.array items)) :
      IsRefused text .missingItems

theorem readPlan_of_hasItems {text name : String} {items : List Json}
    (has : HasItems text name items) :
    readPlan registry text = .ok (.ofPieces name .item 0 (read registry) items) := by
  rcases has with ⟨members, parsed, present, rfl⟩
  rw [readPlan, parsed, Except.mapError_ok]
  dsimp only [Except.bind]
  rw [readDocument, present]

theorem readPlan_of_isRefused {text : String} {error : FormatError}
    (refused : IsRefused text error) : readPlan registry text = .error error := by
  rw [readPlan]
  cases refused with
  | invalid refused =>
      rw [refused]
      rfl
  | @notAnObject root parsed other =>
      rw [parsed]
      cases root with
      | object members => exact absurd rfl (other members)
      | _ => rfl
  | @missingItems members parsed missing =>
      rw [parsed, Except.mapError_ok]
      dsimp only [Except.bind]
      rw [readDocument]
      split
      · next items present => exact absurd present (missing items)
      · rfl

/-- A text either has items or is refused. -/
theorem hasItems_or_isRefused (text : String) :
    (∃ name items, HasItems text name items) ∨ ∃ error, IsRefused text error := by
  cases parsed : Json.ofText text with
  | error fault => exact .inr ⟨_, .invalid parsed⟩
  | ok root =>
      by_cases object : ∃ members, root = .object members
      · rcases object with ⟨members, rfl⟩
        by_cases present : ∃ items, Json.member? "items" members = some (.array items)
        · rcases present with ⟨items, present⟩
          exact .inl ⟨_, items, members, parsed, present, rfl⟩
        · exact .inr ⟨_, .missingItems parsed fun items found => present ⟨items, found⟩⟩
      · exact .inr ⟨_, .notAnObject parsed fun members same => object ⟨members, same⟩⟩

theorem readPlan_eq_error_iff (text : String) (error : FormatError) :
    readPlan registry text = .error error ↔ IsRefused text error := by
  constructor
  · intro outcome
    rcases hasItems_or_isRefused text with ⟨name, items, has⟩ | ⟨cause, refused⟩
    · exact nomatch (readPlan_of_hasItems has).symm.trans outcome
    · cases (readPlan_of_isRefused refused).symm.trans outcome
      exact refused
  · exact readPlan_of_isRefused

theorem readPlan_eq_ok_iff (text : String) (report : Report σ) :
    readPlan registry text = .ok report ↔
      ∃ name items, HasItems text name items ∧
        report = .ofPieces name .item 0 (read registry) items := by
  constructor
  · intro outcome
    rcases hasItems_or_isRefused text with ⟨name, items, has⟩ | ⟨cause, refused⟩
    · exact ⟨name, items, has, (Except.ok.inj ((readPlan_of_hasItems has).symm.trans outcome)).symm⟩
    · exact nomatch (readPlan_of_isRefused refused).symm.trans outcome
  · rintro ⟨name, items, has, rfl⟩
    exact readPlan_of_hasItems has

/-- A text is refused exactly when it has no items, and any other gives a report on
its items.  The report is gathered with one list of notes, and yet each item
contributes a row, a note or both by itself, so that items behind others are read
as they are alone.  Settings that are refused leave everything else of a row. -/
theorem readPlan_item_by_item (registry : Registry σ φ) :
    (∀ text error, readPlan registry text = .error error ↔ IsRefused text error) ∧
    (∀ text report, readPlan registry text = .ok report ↔ ∃ name items, HasItems text name items ∧
      report = Report.gather name .item 0 (readNoting registry) items) ∧
    (∀ name items, (Report.gather name .item 0 (readNoting registry) items).IsPutTogether .item 0
      (items.map (read registry))) ∧
    (∀ item, IsYield (read registry item)) ∧
    (∀ first second whole name other both earlier later, HasItems first name earlier →
      HasItems second other later → HasItems whole both (earlier ++ later) →
      ∃ front back joined, readPlan registry first = .ok front ∧
        readPlan registry second = .ok back ∧ readPlan registry whole = .ok joined ∧
        joined.plan.rows = front.plan.rows ++ back.plan.rows ∧
        joined.warnings = front.warnings ++ back.warnings.map (.raised earlier.length)) ∧
    ∀ form bare element row category cause, AddsSettings form bare element →
      (read registry bare).row? = some (.interval row) →
      registry.category? row.categoryName = some category → form ≠ .null →
      category.settingsOfJson form = .error cause →
      row.settings = category.defaultSettings ∧
        read registry bare = ⟨some (.interval row), none⟩ ∧
        read registry element = ⟨some (.interval row), some (.defaultSettings cause)⟩ := by
  have gathered (name : String) (items : List Json) :
      Report.gather name .item 0 (readNoting registry) items =
        .ofPieces name .item 0 (read registry) items :=
    Report.gather_eq_ofPieces gives_readNoting name .item 0 items
  have told (name : String) (items : List Json) := Report.isPutTogether_ofPieces name .item 0
    (read registry) items
  refine ⟨readPlan_eq_error_iff, ?_, ?_, isYield_read, ?_, ?_⟩
  · intro text report
    simp only [gathered]
    exact readPlan_eq_ok_iff text report
  · intro name items
    rw [gathered]
    exact told name items
  · intro first second whole name other both earlier later hasFirst hasSecond hasWhole
    have joined := told both (earlier ++ later)
    rw [List.map_append] at joined
    have appended := (told name earlier).append (told other later) joined fun number => rfl
    rw [List.length_map] at appended
    exact ⟨_, _, _, readPlan_of_hasItems hasFirst, readPlan_of_hasItems hasSecond,
      readPlan_of_hasItems hasWhole, appended⟩
  · intro form bare element row category cause adds given found shown refused
    exact read_of_addsSettings adds given found shown refused

def groupItem : Json :=
  .object [("level", .integer 1), ("rowType", .string "group")]

/-- The fields of an item for a guitar, without settings. -/
def guitarFields : List (String × Json) :=
  [("categoryName", .string "Guitar"), ("rowType", .string "interval"), ("task", .string "Trills")]

/-- Settings with a tempo that is out of range. -/
def rushed : Json :=
  .object [("metronome", .object [("bpm", .integer 1000)])]

/-- The item that is no item is the second one, and the row with the tempo out of
range is kept. -/
theorem readPlan_trills :
    HasItems "\x7b\"items\":[\x7b\"level\":1,\"rowType\":\"group\"\x7d]\x7d" "" [groupItem] ∧
    HasItems "\x7b\"items\":[7]\x7d" "" [.integer 7] ∧
    (∃ joined, readPlan Catalog.registry
        "\x7b\"items\":[\x7b\"level\":1,\"rowType\":\"group\"\x7d,7],\"name\":\"Trills\"\x7d" =
          .ok joined ∧
      joined.plan.rows = [.group ⟨1, ""⟩] ∧
      joined.warnings = [⟨.item 1,
        .malformed (.wrongType (.integer 7) "internally tagged enum ItemJson")⟩]) ∧
    read Catalog.registry (.object (("categoryName", .string "Guitar") ::
        (settingsKey, rushed) :: guitarFields.tail)) =
      ⟨some (.interval ⟨"0:00", "Trills", "Guitar", "", [], .guitar .standard⟩),
        some (.defaultSettings .tempoOutOfRange)⟩ := by
  have laws := readPlan_item_by_item Catalog.registry
  have first : HasItems "\x7b\"items\":[\x7b\"level\":1,\"rowType\":\"group\"\x7d]\x7d" ""
      [groupItem] := ⟨_, rfl, rfl, rfl⟩
  have second : HasItems "\x7b\"items\":[7]\x7d" "" [.integer 7] := ⟨_, rfl, rfl, rfl⟩
  have whole : HasItems
      "\x7b\"items\":[\x7b\"level\":1,\"rowType\":\"group\"\x7d,7],\"name\":\"Trills\"\x7d" "Trills"
      ([groupItem] ++ [.integer 7]) := ⟨_, rfl, rfl, rfl⟩
  have adds : AddsSettings rushed (.object guitarFields) (.object (("categoryName",
      .string "Guitar") :: (settingsKey, rushed) :: guitarFields.tail)) :=
    @AddsSettings.member rushed (guitarFields.take 1) guitarFields.tail (by decide)
  refine ⟨first, second, ?_, ?_⟩
  · rcases laws.2.2.2.2.1 _ _ _ _ _ _ _ _ first second whole with
      ⟨front, back, joined, readFirst, readSecond, readWhole, rows, warnings⟩
    cases readFirst
    cases readSecond
    exact ⟨joined, readWhole, rows, warnings⟩
  · exact (laws.2.2.2.2.2 _ _ _ _ Catalog.guitar _ adds rfl rfl (by simp [rushed]) rfl).2.2

end Item
end Notation
end PracticePlan
