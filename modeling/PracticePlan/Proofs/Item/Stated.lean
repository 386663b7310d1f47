import PracticePlan.Proofs.Item.Independence
import PracticePlan.Proofs.Item.Reading
import PracticePlan.Proofs.Json.Parsed

namespace PracticePlan
namespace Notation
namespace Item

/-!
# Settings that stand in items

A category may be handed any JSON value, but the reader of plans hands it no
others than those that stand for settings in the items of some text
(`IsStated`).  Such a form is no null, which counts as no settings, and it has been
read together with the items, three levels deep (`isParsed_of_isStated`).

A category that keeps whatever it is handed therefore makes again all settings that
its intervals can have (`readsFrom_keepsakes`).  Without floating point numbers they
also survive printing (`survives_keepsakes`).
-/

variable {σ φ : Type}

/-- A form that the settings of an interval have in an item of some text. -/
def IsStated (form : Json) : Prop :=
  ∃ text name items item fields, HasItems text name items ∧ item ∈ items ∧
    ofJson item = .ok (.interval fields) ∧ fields.settings? = some form

/-- Settings that a category gives to an interval in an item of some text. -/
def IsStatedSettings (category : Category σ φ) (settings : σ) : Prop :=
  settings = category.defaultSettings ∨
    ∃ form, IsStated form ∧ category.settingsOfJson form = .ok settings

/-- A row as an item of some text gives it. -/
def IsStatedRow (registry : Registry σ φ) : Row σ → Prop
  | .group row => row.level ≠ 0
  | .interval row => ∃ category, registry.category? row.categoryName = some category ∧
      IsStatedSettings category row.settings

theorem IsStatedSettings.isHeld {category : Category σ φ} {settings : σ}
    (stated : IsStatedSettings category settings) : IsHeldSettings category settings :=
  stated.imp_right fun ⟨form, _, read⟩ => ⟨form, read⟩

theorem IsStatedRow.isHeld {registry : Registry σ φ} {row : Row σ}
    (stated : IsStatedRow registry row) : IsHeld registry row := by
  cases row with
  | group row => exact stated
  | interval row =>
      rcases stated with ⟨category, found, settings⟩
      exact ⟨category, found, settings.isHeld⟩

/-- Every row of a plan that was read from JSON is one of a text. -/
theorem isStatedRow_of_mem_readPlan {registry : Registry σ φ} {text : String} {report : Report σ}
    (read : readPlan registry text = .ok report) {row : Row σ}
    (member : row ∈ report.plan.rows) : IsStatedRow registry row := by
  rcases (readPlan_eq_ok_iff text report).mp read with ⟨name, items, has, rfl⟩
  rw [Report.rows_ofPieces, List.mem_filterMap] at member
  rcases member with ⟨piece, known, given⟩
  rcases List.mem_map.mp known with ⟨item, inside, rfl⟩
  rcases read_cases given with
    ⟨_, rfl, positive⟩ | ⟨_, category, fields, rfl, found, shape, origin⟩
  · exact positive
  · refine ⟨category, found, origin.imp_right ?_⟩
    rintro ⟨form, told, made⟩
    exact ⟨form, ⟨text, name, items, item, fields, has, inside, shape, told⟩, made⟩

/-! ## Where settings stand -/

/-- A field changes the settings of a draft only when it is the settings. -/
theorem settings?_of_withField {draft after : IntervalDraft} {key : String} {value : Json}
    (read : draft.withField key value = .ok after) :
    after.settings? = draft.settings? ∨ after.settings? = stated? (some value) := by
  by_cases settings : key = settingsKey
  · subst settings
    have set := (withField_settings draft value).symm.trans read
    exact .inr (congrArg IntervalDraft.settings? (Except.ok.inj set)).symm
  · have kept : draft.withField key value =
        (draft.withField key value).map (.withSettings draft.settings?) :=
      withField_withSettings draft draft.settings? settings value
    rcases Except.map_eq_ok_iff.mp (kept.symm.trans read) with ⟨next, -, rfl⟩
    exact .inl rfl

/-- The settings of a draft are one of the named values, and no null. -/
def IntervalDraft.TakesFrom (named : List (String × Json)) (draft : IntervalDraft) : Prop :=
  ∀ form, draft.settings? = some form → form ≠ .null ∧ ∃ key, (key, form) ∈ named

theorem takesFrom_of_readFields {named : List (String × Json)} {draft : IntervalDraft}
    (read : readFields IntervalDraft.withField .empty named = .ok draft) :
    draft.TakesFrom named := by
  have nothing : IntervalDraft.empty.TakesFrom named := fun _ told => nomatch told
  refine Except.foldlM_preserves (IntervalDraft.TakesFrom named) ?_ nothing read
  intro field member before after held stepped form told
  rcases settings?_of_withField stepped with same | taken
  · exact held form (same ▸ told)
  · rcases ne_null_of_stated? (taken ▸ told) with ⟨solid, same⟩
    exact ⟨solid, field.1, Option.some.inj same ▸ member⟩

/-- The settings of a finished item are those of its draft. -/
theorem exists_key_of_complete {named : List (String × Json)} {draft : IntervalDraft}
    (read : readFields IntervalDraft.withField .empty named = .ok draft)
    {missing : Json.ShapeError} {fields : IntervalItem}
    (done : draft.complete missing = .ok (.interval fields)) {form : Json}
    (told : fields.settings? = some form) : form ≠ .null ∧ ∃ key, (key, form) ∈ named :=
  takesFrom_of_readFields read form ((complete_withSettings done none).1 ▸ told)

/-- The settings of an item of either shape are inside the item. -/
theorem isParsed_of_ofJson {depth : Nat} {item : Json} (parsed : item.IsParsed depth)
    {fields : IntervalItem} (shape : ofJson item = .ok (.interval fields)) {form : Json}
    (told : fields.settings? = some form) : form ≠ .null ∧ form.IsParsed (depth + 1) := by
  cases parsed with
  | @object _ members _ _ each =>
      unfold ofJson at shape
      dsimp only at shape
      split at shape
      · rcases Except.bind_eq_ok_iff.mp shape with ⟨kind, -, made⟩
        rcases interval_of_ofMembers made with ⟨-, draft, read, done⟩
        rcases exists_key_of_complete read done told with ⟨solid, key, inside⟩
        exact ⟨solid, each _ inside⟩
      · cases shape
  | @array _ elements _ each =>
      cases elements with
      | nil => cases shape
      | cons first rest =>
          rcases Except.bind_eq_ok_iff.mp shape with ⟨kind, -, made⟩
          rcases interval_of_ofElements made with ⟨-, draft, read, done⟩
          rcases exists_key_of_complete read done told with ⟨solid, key, inside⟩
          exact ⟨solid, each form (List.mem_cons_of_mem first (List.of_mem_zip inside).2)⟩
  | _ => cases shape

/-- A form that stands in an item was read inside the plan, the item list and the
item. -/
theorem isParsed_of_isStated {form : Json} (stated : IsStated form) :
    form ≠ .null ∧ form.IsParsed 3 := by
  rcases stated with ⟨text, name, items, item, fields, ⟨members, read, found, -⟩, inside, shape,
    told⟩
  have document := Json.isParsed_of_ofText read
  cases document with
  | object _ _ each =>
      have list := each _ (Json.mem_of_member? found)
      cases list with
      | array _ each => exact isParsed_of_ofJson (each item inside) shape told

/-! ## A category that keeps everything -/

/-- Settings that are any JSON value, or nothing. -/
structure Keepsake where
  form? : Option Json

instance : IntervalSettings Keepsake where
  category _ := "Keepsakes"
  json? := Keepsake.form?
  block? _ _ := none
  replaceBlock name _ := throw (.noBlock "Keepsakes" name)
  literal? _ := none

def keepsakes : Category Keepsake Unit where
  name := "Keepsakes"
  displayName := "Keepsakes"
  types := []
  defaultSettings := ⟨none⟩
  settingsOfJson form := .ok ⟨some form⟩
  settingsOfLiteral? _ := none

theorem isStated_of_keepsakes {settings : Keepsake} (stated : IsStatedSettings keepsakes settings)
    {form : Json} (told : settings.form? = some form) : IsStated form := by
  rcases stated with rfl | ⟨own, stated, read⟩
  · cases told
  · rcases Except.ok.inj read with rfl
    rcases Option.some.inj told with rfl
    exact stated

/-- What is kept is made again from its form. -/
theorem readsFrom_keepsakes {settings : Keepsake} (stated : IsStatedSettings keepsakes settings) :
    ReadsFrom keepsakes settings (IntervalSettings.json? settings) := by
  rcases settings with ⟨_ | form⟩
  · exact rfl
  · have parsed := (isParsed_of_isStated (isStated_of_keepsakes stated rfl)).2
    exact ⟨⟨some form⟩, rfl, parsed.same_self⟩

/-- No null is ever kept. -/
theorem stated?_keepsakes {settings : Keepsake} (stated : IsStatedSettings keepsakes settings) :
    stated? (IntervalSettings.json? settings) = IntervalSettings.json? settings := by
  rcases settings with ⟨_ | form⟩
  · rfl
  · exact stated?_of_ne_null (isParsed_of_isStated (isStated_of_keepsakes stated rfl)).1

/-- What is kept survives printing, when it has no floating point numbers. -/
theorem survives_keepsakes {settings : Keepsake} (stated : IsStatedSettings keepsakes settings)
    {form : Json} (told : IntervalSettings.json? settings = some form)
    (exactly : form.isExact = true) : Survives form := by
  have parsed := (isParsed_of_isStated (isStated_of_keepsakes stated told)).2
  exact ⟨parsed.ordered_eq, parsed.legible exactly⟩

end Item
end Notation
end PracticePlan
