import Mathlib.Data.List.Nodup
import PracticePlan.Proofs.Arguments.ReadBack

namespace PracticePlan

/-!
# Labels that are lost

Arguments that were put together, and not read, are read back as long as they
have values of the right shape, with one exception.  A toggle label that has
blanks around it, or that the schema has twice, passes the check of the schema
and is lost or doubled.  `Arguments.readsBack_iff_labels` says that nothing else
can go wrong.
-/

namespace ArgSpec

variable {blockOf : String → Json} {spec : ArgSpec}

/-! ## Values of the right shape -/

/-- The values an argument that takes texts may be given.  A toggle set has
labels of the schema, each at most once and in the order of the schema. -/
inductive Fits (spec : ArgSpec) : ArgValue → Prop
  | single {value : ArgValue} (one : spec.isVariadic = false) (scalar : spec.IsScalar value) :
      Fits spec value
  | list {items : List ArgValue} (many : spec.isVariadic = true) (list : spec.isToggles = false)
      (scalars : ∀ item ∈ items, spec.IsScalar item) : Fits spec (.list items)
  | selection {selected : List String} (toggles : spec.isToggles = true)
      (ordered : selected.Sublist spec.labels) (distinct : selected.Nodup) :
      Fits spec (.selection selected)

theorem same_valueTaking_of_fits {value : ArgValue} (slot : spec.isBlock = false)
    (plain : spec.isToggles = true → ∀ label ∈ spec.labels, '-' ∉ label.toList)
    (labels : spec.isToggles = true →
      spec.labels.Nodup ∧ ∀ label ∈ spec.labels, Text.Tight label.toList)
    (fits : spec.Fits value) :
    (spec.valueTaking blockOf (spec.textsOf (some value))).same value = true := by
  cases fits with
  | single one scalar => exact same_valueTaking_single slot one scalar
  | list many list scalars => exact same_valueTaking_list slot many list scalars
  | @selection selected toggles ordered distinct =>
      rw [valueTaking_selection toggles]
      · exact beq_self_eq_true selected
      · exact filter_contains_of_sublist (labels toggles).1 ordered
      · exact fun label member => plain toggles label (ordered.subset member)
      · exact fun label member => (labels toggles).2 label (ordered.subset member)

/-- Every argument that takes texts has a value of the right shape without any. -/
theorem fits_valueTaking_nil (slot : spec.isBlock = false) :
    spec.Fits (spec.valueTaking blockOf []) := by
  cases number : spec.isVariadic with
  | false =>
      rw [valueTaking, slot, number]
      exact .single number (isScalar_valueOf slot "")
  | true =>
      cases toggles : spec.isToggles with
      | false =>
          rw [valueTaking, slot, number, variadicValueOf, toggles]
          exact .list number toggles fun item none => absurd none List.not_mem_nil
      | true =>
          have nothing : spec.selectionOf [] = [] := List.filter_eq_nil_iff.mpr fun label known =>
            Bool.false_ne_true
          rw [valueTaking_toggles toggles, nothing]
          exact .selection toggles (List.nil_sublist _) List.nodup_nil

end ArgSpec

namespace Arguments

variable {σ : Type} [IntervalSettings σ]

/-! ## Arguments that were put together -/

/-- Whether every argument that takes texts has a value of the right shape. -/
def Fit (schema : Schema) (arguments : Arguments) : Prop :=
  ∀ spec ∈ Schema.positional schema,
    ∃ value, arguments.get? spec.name = some value ∧ spec.Fits value

/-- Whether every argument that takes texts is read back from the written texts,
with no text left over. -/
def ReadsBack (schema : Schema) (settings : Option σ) (arguments : Arguments) : Prop :=
  (ofTexts schema (toTexts schema arguments) settings).rest = [] ∧
    ∀ spec ∈ Schema.positional schema, ∃ value back, arguments.get? spec.name = some value ∧
      (ofTexts schema (toTexts schema arguments) settings).get? spec.name = some back ∧
        back.same value = true

/-- Arguments in which one toggle set has a single label, and all others are as
without texts. -/
def onlyLabel (blockOf : String → Json) (schema : Schema) (name label : String) : Arguments :=
  ⟨schema.map fun spec => (spec.name,
    if spec.name = name then .selection [label] else spec.valueTaking blockOf []), []⟩

theorem get?_onlyLabel {blockOf : String → Json} {schema : Schema}
    (distinct : (schema.map ArgSpec.name).Nodup) (name label : String) {spec : ArgSpec}
    (member : spec ∈ schema) :
    (onlyLabel blockOf schema name label).get? spec.name =
      some (if spec.name = name then .selection [label] else spec.valueTaking blockOf []) := by
  rw [onlyLabel, get?]
  exact Named.value?_map (fun spec : ArgSpec =>
    if spec.name = name then ArgValue.selection [label] else spec.valueTaking blockOf [])
    distinct member

theorem fit_onlyLabel {blockOf : String → Json} {schema : Schema}
    (distinct : (schema.map ArgSpec.name).Nodup) {spec : ArgSpec} (member : spec ∈ schema)
    (toggles : spec.isToggles = true) {label : String} (known : label ∈ spec.labels) :
    Fit schema (onlyLabel blockOf schema spec.name label) := by
  intro other positional
  rcases Schema.mem_positional_iff.mp positional with ⟨listed, slot⟩
  refine ⟨_, get?_onlyLabel distinct spec.name label listed, ?_⟩
  by_cases here : other.name = spec.name
  · have same : other = spec := List.inj_on_of_nodup_map distinct listed member here
    rw [if_pos here, same]
    exact .selection toggles (List.singleton_sublist.mpr known) (List.nodup_singleton label)
  · rw [if_neg here]
    exact ArgSpec.fits_valueTaking_nil slot

/-- A toggle set of which this label is read back has the label once and without
blanks around it. -/
theorem tight_and_count_of_readsBack {schema : Schema} (usable : Schema.IsUsable schema)
    (settings : Option σ) {spec : ArgSpec} (member : spec ∈ schema)
    (toggles : spec.isToggles = true) {label : String}
    (readsBack : ReadsBack schema settings
      (onlyLabel (blockContent settings) schema spec.name label)) :
    Text.Tight label.toList ∧ spec.labels.count label = 1 := by
  have given : (onlyLabel (blockContent settings) schema spec.name label).get? spec.name =
      some (.selection [label]) := by
    rw [get?_onlyLabel usable.distinct spec.name label member, if_pos rfl]
  have positional : spec ∈ Schema.positional schema :=
    Schema.mem_positional_of_isToggles member toggles
  rcases readsBack.2 spec positional with ⟨value, back, found, read, equal⟩
  rw [get?_ofTexts_toTexts usable settings (fun _ => rfl) member, given,
    ArgSpec.valueTaking_toggles toggles, ArgSpec.textsOf_toggles toggles] at read
  cases given.symm.trans found
  cases read
  exact ArgSpec.tight_and_count_of_selectionOf (beq_iff_eq.mp equal)

theorem readsBack_of_labels {schema : Schema} (usable : Schema.IsUsable schema)
    (labels : ∀ spec ∈ schema, spec.isToggles = true →
      spec.labels.Nodup ∧ ∀ label ∈ spec.labels, Text.Tight label.toList)
    (settings : Option σ) {arguments : Arguments} (nothing : arguments.rest = [])
    (fit : Fit schema arguments) : ReadsBack schema settings arguments := by
  have full : Schema.hasVariadic schema = true → arguments.rest = [] := fun _ => nothing
  constructor
  · rw [ofTexts_toTexts usable settings full]
    exact nothing
  · intro spec positional
    rcases Schema.mem_positional_iff.mp positional with ⟨member, slot⟩
    rcases fit spec positional with ⟨value, found, fits⟩
    refine ⟨value, _, found, get?_ofTexts_toTexts usable settings full member, ?_⟩
    rw [found]
    exact ArgSpec.same_valueTaking_of_fits slot (usable.unhyphenated spec member)
      (labels spec member) fits

/-- Given the check, whatever is put together in the right shape is read back
exactly when the labels of each toggle set differ from each other and have no
blanks around them. -/
theorem readsBack_iff_labels {owner : String} {schema : Schema}
    (checked : Schema.check owner schema = .ok ()) (settings : Option σ) :
    (∀ arguments : Arguments, arguments.rest = [] → Fit schema arguments →
        ReadsBack schema settings arguments) ↔
      ∀ spec ∈ schema, spec.isToggles = true →
        spec.labels.Nodup ∧ ∀ label ∈ spec.labels, Text.Tight label.toList := by
  have usable := Schema.isUsable_of_check checked
  constructor
  · intro readsBack spec member toggles
    have each : ∀ label ∈ spec.labels, Text.Tight label.toList ∧ spec.labels.count label = 1 := by
      intro label known
      apply tight_and_count_of_readsBack usable settings member toggles
      exact readsBack _ rfl (fit_onlyLabel usable.distinct member toggles known)
    constructor
    · apply List.nodup_iff_count_le_one.mpr
      intro label
      by_cases known : label ∈ spec.labels
      · exact Nat.le_of_eq (each label known).2
      · rw [List.count_eq_zero_of_not_mem known]
        exact Nat.zero_le 1
    · exact fun label known => (each label known).1
  · exact fun labels arguments nothing fit => readsBack_of_labels usable labels settings nothing fit

theorem readsBack_chords : Schema.check "Chords" chordSchema = .ok () ∧
    ReadsBack chordSchema (some (CatalogSettings.guitar .standard))
      ⟨[("qualities", .selection ["Minor"]), ("tempo", .number (.ofQuotient false 181 2))], []⟩ := by
  have checked : Schema.check "Chords" chordSchema = .ok () := rfl
  have labels : ∀ spec ∈ chordSchema, spec.isToggles = true →
      spec.labels.Nodup ∧ ∀ label ∈ spec.labels, Text.Tight label.toList := by
    decide +kernel
  have fit : Fit chordSchema
      ⟨[("qualities", .selection ["Minor"]), ("tempo", .number (.ofQuotient false 181 2))], []⟩ := by
    intro spec positional
    have slots : Schema.positional chordSchema =
        [.number "tempo", .toggles "qualities" ["Major", "Minor"]] := rfl
    rw [slots] at positional
    rcases List.mem_cons.mp positional with rfl | behind
    · exact ⟨.number (.ofQuotient false 181 2), rfl, .single rfl ⟨rfl, by decide +kernel⟩⟩
    · rcases List.mem_singleton.mp behind with rfl
      exact ⟨.selection ["Minor"], rfl,
        .selection rfl (List.singleton_sublist.mpr (by decide)) (List.nodup_singleton "Minor")⟩
  exact ⟨checked, (readsBack_iff_labels checked _).mpr labels _ rfl fit⟩

/-- A toggle set with a blank in front of one label, and with another label
twice. -/
def keySchema : Schema :=
  [.toggles "keys" [" A", "B", "B"]]

theorem fit_keys {label : String} (known : label ∈ [" A", "B", "B"]) :
    Fit keySchema ⟨[("keys", .selection [label])], []⟩ := by
  intro spec positional
  rcases List.mem_singleton.mp positional with rfl
  exact ⟨_, rfl, .selection rfl (List.singleton_sublist.mpr known) (List.nodup_singleton label)⟩

theorem not_readsBack_of_get? {schema : Schema} {settings : Option σ} {arguments : Arguments}
    {spec : ArgSpec} (positional : spec ∈ Schema.positional schema) {value back : ArgValue}
    (given : arguments.get? spec.name = some value)
    (read : (ofTexts schema (toTexts schema arguments) settings).get? spec.name = some back)
    (different : back.same value = false) : ¬ ReadsBack schema settings arguments := by
  rintro ⟨-, each⟩
  rcases each spec positional with ⟨value, back, found, known, equal⟩
  cases given.symm.trans found
  cases read.symm.trans known
  cases different.symm.trans equal

/-- Both labels pass the check.  The first one is read as no label at all, as
tokens are read without the blanks around them, and the other one is doubled. -/
theorem keys_lost : Schema.check "Keys" keySchema = .ok () ∧
    Fit keySchema ⟨[("keys", .selection [" A"])], []⟩ ∧
    (ofTexts keySchema (toTexts keySchema ⟨[("keys", .selection [" A"])], []⟩)
      (some (CatalogSettings.guitar .standard))).get? "keys" = some (.selection []) ∧
    ¬ ReadsBack keySchema (some (CatalogSettings.guitar .standard))
      ⟨[("keys", .selection [" A"])], []⟩ ∧
    Fit keySchema ⟨[("keys", .selection ["B"])], []⟩ ∧
    (ofTexts keySchema (toTexts keySchema ⟨[("keys", .selection ["B"])], []⟩)
      (some (CatalogSettings.guitar .standard))).get? "keys" = some (.selection ["B", "B"]) ∧
    ¬ ReadsBack keySchema (some (CatalogSettings.guitar .standard))
      ⟨[("keys", .selection ["B"])], []⟩ := by
  have checked : Schema.check "Keys" keySchema = .ok () := rfl
  have keys : ArgSpec.toggles "keys" [" A", "B", "B"] ∈ Schema.positional keySchema :=
    List.mem_singleton_self _
  refine ⟨checked, fit_keys (by decide), rfl, ?_, fit_keys (by decide), rfl, ?_⟩
  · exact not_readsBack_of_get? keys rfl rfl rfl
  · exact not_readsBack_of_get? keys rfl rfl rfl

end Arguments
end PracticePlan
