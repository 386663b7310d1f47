import PracticePlan.Proofs.Item.RoundTrip
import PracticePlan.Proofs.Outcome

namespace PracticePlan
namespace Notation
namespace Item

/-!
# Items with and without settings

The settings of an interval item are kept as they are until its category reads them,
and no other field looks at them, in an object as in an array.  `AddsSettings` says
of two JSON values that settings are all that one has and the other has not, and the
items that are read from them then differ in their settings alone
(`ofJson_of_addsSettings`).  When the category refuses the settings, the row is the
one that is read without them (`read_of_addsSettings`).
-/

/-! ## Drafts -/

def settingsKey : String :=
  "intervalSettings"

/-- A draft with other settings. -/
def IntervalDraft.withSettings (settings? : Option Json) (draft : IntervalDraft) : IntervalDraft :=
  { draft with settings? }

/-- No other field looks at the settings. -/
theorem withField_withSettings (draft : IntervalDraft) (settings? : Option Json) {key : String}
    (other : key ≠ settingsKey) (value : Json) :
    (draft.withSettings settings?).withField key value =
      (draft.withField key value).map (.withSettings settings?) := by
  unfold IntervalDraft.withField
  split
  · cases value.asText <;> rfl
  · cases value.asText <;> rfl
  · cases value.asText <;> rfl
  · cases value.asText <;> rfl
  · cases value.asList Json.asText <;> rfl
  · exact absurd rfl other
  · rfl

theorem readFields_withSettings (draft : IntervalDraft) (settings? : Option Json)
    {named : List (String × Json)} (others : ∀ field ∈ named, field.1 ≠ settingsKey) :
    readFields IntervalDraft.withField (draft.withSettings settings?) named =
      (readFields IntervalDraft.withField draft named).map (.withSettings settings?) := by
  induction named generalizing draft with
  | nil => rfl
  | cons field rest inductionHypothesis =>
      rw [List.forall_mem_cons] at others
      rw [readFields, List.foldlM_cons, withField_withSettings draft settings? others.1, readFields,
        List.foldlM_cons]
      cases draft.withField field.1 field.2 with
      | error cause => rfl
      | ok next => exact inductionHypothesis next others.2

/-- Settings that stand among other fields are put into the draft that these make. -/
theorem readFields_insert {front back : List (String × Json)}
    (others : ∀ field ∈ front ++ back, field.1 ≠ settingsKey) (form : Json) :
    readFields IntervalDraft.withField .empty (front ++ (settingsKey, form) :: back) =
      (readFields IntervalDraft.withField .empty (front ++ back)).map
        (.withSettings (stated? (some form))) := by
  have behind : ∀ field ∈ back, field.1 ≠ settingsKey :=
    fun field member => others field (List.mem_append_right front member)
  cases first : readFields IntervalDraft.withField .empty front with
  | error cause =>
      rw [readFields, readFields, List.foldlM_append, List.foldlM_append]
      rw [readFields] at first
      rw [first]
      rfl
  | ok draft =>
      have set : draft.withField settingsKey form = .ok (draft.withSettings (stated? (some form))) :=
        withField_settings draft form
      rw [readFields_append _ first, readFields_append _ first, ← readFields_withSettings _ _ behind,
        readFields, List.foldlM_cons, set]
      rfl

/-- Without settings among the fields there are none in the draft. -/
theorem settings?_of_readFields {named : List (String × Json)} {draft : IntervalDraft}
    (others : ∀ field ∈ named, field.1 ≠ settingsKey)
    (read : readFields IntervalDraft.withField .empty named = .ok draft) : draft.settings? = none := by
  have same := readFields_withSettings .empty none others
  rw [show IntervalDraft.empty.withSettings none = .empty from rfl, read] at same
  exact congrArg IntervalDraft.settings? (Except.ok.inj same)

/-! ## Values -/

/-- The settings of an interval item are all that differs between two JSON values:
they are a member of the object, or stand behind all other fields in the array. -/
inductive AddsSettings (form : Json) : Json → Json → Prop
  | member {front back : List (String × Json)}
      (others : ∀ field ∈ front ++ back, field.1 ≠ settingsKey) :
      AddsSettings form (.object (front ++ back)) (.object (front ++ (settingsKey, form) :: back))
  | last {kind : Json} {elements : List Json}
      (count : elements.length + 1 = IntervalDraft.declared.length) :
      AddsSettings form (.array (kind :: elements)) (.array (kind :: (elements ++ [form])))

/-- A finished draft is finished with other settings, too. -/
theorem complete_withSettings {missing : Json.ShapeError} {draft : IntervalDraft}
    {fields : IntervalItem} (done : draft.complete missing = .ok (.interval fields))
    (settings? : Option Json) :
    fields.settings? = draft.settings? ∧
      (draft.withSettings settings?).complete missing =
        .ok (.interval { fields with settings? }) := by
  rcases draft with ⟨duration, task, categoryName?, featureType, arguments, own?⟩
  cases categoryName? with
  | none => cases done
  | some categoryName =>
      cases done
      exact ⟨rfl, rfl⟩

theorem kind_of_complete {missing : Json.ShapeError} {draft : GroupDraft} {item : Item}
    (done : draft.complete missing = .ok item) : ∃ level name, item = .group level name := by
  rcases draft with ⟨level?, name⟩
  cases level? with
  | none => cases done
  | some level => exact ⟨level, name, (Except.ok.inj done).symm⟩

theorem interval_of_ofMembers {members : List (String × Json)} {kind : Kind}
    {fields : IntervalItem} (read : ofMembers members kind = .ok (.interval fields)) :
    kind = .interval ∧ ∃ draft, readFields IntervalDraft.withField .empty members = .ok draft ∧
      draft.complete (.missingField "categoryName") = .ok (.interval fields) := by
  cases kind with
  | group =>
      rcases Except.bind_eq_ok_iff.mp read with ⟨draft, -, done⟩
      rcases kind_of_complete done with ⟨level, name, other⟩
      cases other
  | interval => exact ⟨rfl, Except.bind_eq_ok_iff.mp read⟩

theorem interval_of_ofElements {elements : List Json} {kind : Kind} {fields : IntervalItem}
    (read : ofElements elements kind = .ok (.interval fields)) :
    kind = .interval ∧ ∃ draft,
      readFields IntervalDraft.withField .empty (IntervalDraft.declared.zip elements) = .ok draft ∧
      draft.complete (.wrongLength 2 "struct IntervalJson with 6 elements") =
        .ok (.interval fields) := by
  have counted {declared : List String} {item : Item}
      (passed : checkCount declared elements item = .ok (.interval fields)) :
      item = .interval fields := by
    unfold checkCount at passed
    split at passed
    · exact Except.ok.inj passed
    · cases passed
  cases kind with
  | group =>
      rcases Except.bind_eq_ok_iff.mp read with ⟨item, made, passed⟩
      rcases Except.bind_eq_ok_iff.mp made with ⟨draft, -, done⟩
      rcases kind_of_complete done with ⟨level, name, rfl⟩
      cases counted passed
  | interval =>
      rcases Except.bind_eq_ok_iff.mp read with ⟨item, made, passed⟩
      cases counted passed
      exact ⟨rfl, Except.bind_eq_ok_iff.mp made⟩

/-- The settings are the last of the declared fields. -/
def leading : List String :=
  ["duration", "task", "categoryName", "featureTypeName", "featureArgsList"]

theorem zip_declared {elements : List Json}
    (count : elements.length + 1 = IntervalDraft.declared.length) :
    IntervalDraft.declared.zip elements = leading.zip elements := by
  have joined : (leading ++ [settingsKey]).zip (elements ++ []) =
      leading.zip elements ++ [settingsKey].zip [] := List.zip_append (Nat.succ.inj count.symm)
  rwa [List.append_nil, List.zip_nil_right, List.append_nil] at joined

theorem zip_declared_concat {elements : List Json} {form : Json}
    (count : elements.length + 1 = IntervalDraft.declared.length) :
    IntervalDraft.declared.zip (elements ++ [form]) =
      leading.zip elements ++ [(settingsKey, form)] :=
  List.zip_append (Nat.succ.inj count.symm : leading.length = elements.length)

theorem others_zip (elements : List Json) :
    ∀ field ∈ leading.zip elements, field.1 ≠ settingsKey := by
  intro field member same
  have inside : settingsKey ∈ leading := same ▸ (List.of_mem_zip member).1
  exact absurd inside (by decide)

theorem member?_insert {key other : String} (different : other ≠ key) (value : Json)
    (front back : List (String × Json)) :
    Json.member? key (front ++ (other, value) :: back) = Json.member? key (front ++ back) := by
  induction front with
  | nil => exact if_neg different
  | cons field rest inductionHypothesis =>
      rw [List.cons_append, List.cons_append, Json.member?, Json.member?, inductionHypothesis]

theorem ofJson_of_addsSettings {form bare element : Json}
    (adds : AddsSettings form bare element) {fields : IntervalItem}
    (read : ofJson bare = .ok (.interval fields)) :
    fields.settings? = none ∧
      ofJson element = .ok (.interval { fields with settings? := stated? (some form) }) := by
  cases adds with
  | @member front back others =>
      have sameKind : Json.member? kindKey (front ++ (settingsKey, form) :: back) =
          Json.member? kindKey (front ++ back) := member?_insert (by decide) form front back
      unfold ofJson at read ⊢
      dsimp only at read ⊢
      rw [sameKind]
      cases named : Json.member? kindKey (front ++ back) with
      | none =>
          rw [named] at read
          cases read
      | some kind =>
          rw [named] at read
          dsimp only at read ⊢
          rcases Except.bind_eq_ok_iff.mp read with ⟨known, isKind, made⟩
          rcases interval_of_ofMembers made with ⟨rfl, draft, fieldsRead, done⟩
          have whole := complete_withSettings done (stated? (some form))
          refine ⟨whole.1.trans (settings?_of_readFields others fieldsRead), ?_⟩
          refine Except.bind_eq_ok_iff.mpr
            ⟨.interval, isKind, Except.bind_eq_ok_iff.mpr ⟨_, ?_, whole.2⟩⟩
          rw [readFields_insert others, fieldsRead]
          rfl
  | @last kind elements count =>
      rcases Except.bind_eq_ok_iff.mp read with ⟨known, isKind, made⟩
      rcases interval_of_ofElements made with ⟨rfl, draft, fieldsRead, done⟩
      have whole := complete_withSettings done (stated? (some form))
      rw [zip_declared count] at fieldsRead
      refine ⟨whole.1.trans (settings?_of_readFields (others_zip elements) fieldsRead), ?_⟩
      refine Except.bind_eq_ok_iff.mpr ⟨.interval, isKind, Except.bind_eq_ok_iff.mpr
        ⟨_, Except.bind_eq_ok_iff.mpr ⟨_, ?_, whole.2⟩, if_pos ?_⟩⟩
      · have others : ∀ field ∈ leading.zip elements ++ [], field.1 ≠ settingsKey := by
          rw [List.append_nil]
          exact others_zip elements
        rw [zip_declared_concat count, readFields_insert others, List.append_nil, fieldsRead]
        rfl
      · exact Nat.le_of_eq (List.length_append.trans count)

/-! ## Rows -/

variable {σ φ : Type} {registry : Registry σ φ}

/-- The row of an interval item with settings. -/
def rowWith (fields : IntervalItem) (settings : σ) : IntervalRow σ :=
  ⟨fields.duration, fields.task, fields.categoryName, fields.featureType, fields.arguments,
    settings⟩

theorem contribution_of_category? {fields : IntervalItem} {category : Category σ φ}
    (found : registry.category? fields.categoryName = some category) :
    (interval fields).contribution registry =
      ⟨some (.interval (rowWith fields (settingsIn category fields.settings?).1)),
        (settingsIn category fields.settings?).2⟩ := by
  rw [contribution, found]
  dsimp only
  rw [Registry.name_of_category? found]
  rfl

/-- An item whose settings are refused gives the row that it gives without them,
which has the default settings of its category. -/
theorem read_of_addsSettings {form bare element : Json} (adds : AddsSettings form bare element)
    {row : IntervalRow σ} (given : (read registry bare).row? = some (.interval row))
    {category : Category σ φ} (found : registry.category? row.categoryName = some category)
    (shown : form ≠ .null) {cause : SettingsError}
    (refused : category.settingsOfJson form = .error cause) :
    row.settings = category.defaultSettings ∧
      read registry bare = ⟨some (.interval row), none⟩ ∧
      read registry element = ⟨some (.interval row), some (.defaultSettings cause)⟩ := by
  unfold read at given ⊢
  cases shaped : ofJson bare with
  | error cause =>
      rw [shaped] at given
      cases given
  | ok item =>
      rw [shaped] at given
      cases item with
      | group level name => exact nomatch (Contribution.row?_ofGroup given).2
      | interval fields =>
          rcases ofJson_of_addsSettings adds shaped with ⟨bareSettings, other⟩
          have stated : stated? (some form) = some form := by
            cases form with
            | null => exact absurd rfl shown
            | _ => rfl
          rw [stated] at other
          rw [other]
          dsimp only at given ⊢
          cases registered : registry.category? fields.categoryName with
          | none =>
              rw [contribution, registered] at given
              cases given
          | some own =>
              rw [contribution_of_category? registered, bareSettings] at given
              cases given
              obtain rfl : own = category := Option.some.inj (registered.symm.trans found)
              rw [contribution_of_category? registered, bareSettings]
              have changed : registry.category?
                  { fields with settings? := some form }.categoryName = some own := registered
              refine ⟨rfl, rfl, ?_⟩
              rw [contribution_of_category? changed, settingsIn_of_ne_null own shown, refused]
              rfl

end Item
end Notation
end PracticePlan
