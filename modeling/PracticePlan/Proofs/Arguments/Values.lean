import PracticePlan.Proofs.Arguments.Number
import PracticePlan.Proofs.Arguments.Slots

namespace PracticePlan

/-!
# Values and their texts

Values that are equal have the same texts (`ArgSpec.textsOf_of_same`), and a value
of the shape of its argument is read back from them.  For single arguments and
lists this rests on numbers alone.  For toggle sets it depends on the labels: a
selection is read back when its labels have no blanks around them and no hyphen,
and when it holds every copy of a label that the schema has
(`ArgSpec.selectionOf_of_isComplete`).
-/

/-! ## Equal values have equal texts -/

namespace ArgValue

mutual

theorem toText_of_same {first second : ArgValue} (equal : first.same second = true) :
    first.toText = second.toText := by
  cases first <;> cases second <;> simp only [same, Bool.false_eq_true, beq_iff_eq] at equal
  case text.text => rw [equal]
  case number.number => exact numberText_of_same equal
  case boolean.boolean => rw [equal]
  case choice.choice => rw [equal]
  case list.list => rw [toText, toText, textsOf_of_sameItems equal]
  case selection.selection => rw [equal]
  case block.block => rfl

theorem textsOf_of_sameItems {firsts seconds : List ArgValue}
    (equal : sameItems firsts seconds = true) : textsOf firsts = textsOf seconds := by
  cases firsts with
  | nil =>
      cases seconds with
      | nil => rfl
      | cons second others => cases equal
  | cons first rest =>
      cases seconds with
      | nil => cases equal
      | cons second others =>
          rw [sameItems, Bool.and_eq_true] at equal
          rw [textsOf, textsOf, toText_of_same equal.1, textsOf_of_sameItems equal.2]

end

end ArgValue

namespace ArgSpec

theorem textsOf_of_same (spec : ArgSpec) {first second : ArgValue}
    (equal : first.same second = true) : spec.textsOf (some first) = spec.textsOf (some second) := by
  have text := ArgValue.toText_of_same equal
  unfold textsOf
  split
  · cases first <;> cases second <;>
      simp only [ArgValue.same, Bool.false_eq_true, beq_iff_eq] at equal
    case list.list => exact ArgValue.textsOf_of_sameItems equal
    case selection.selection => rw [equal]
    case block.block => rfl
    all_goals exact congrArg (fun word => [word]) text
  · exact congrArg (fun word => [word]) text

/-! ## Values of one text -/

/-- Whether one text of the argument may stand for the value. -/
def IsScalar (spec : ArgSpec) : ArgValue → Prop
  | .text _ => spec.baseType = .text
  | .choice _ => spec.baseType = .choice
  | .boolean _ => spec.baseType = .boolean
  | .number number => spec.baseType = .number ∧ number.isFinite = true
  | _ => False

theorem isScalar_valueOf {spec : ArgSpec} (slot : spec.isBlock = false) (text : String) :
    spec.IsScalar (spec.valueOf text) := by
  have kind : spec.baseType ≠ .block := of_decide_eq_false slot
  unfold valueOf
  split
  · next known => exact known
  · next known => exact absurd known kind
  · next known => exact ⟨known, isFinite_numberOf text⟩
  · next known => exact known
  · next known => exact known

/-- The text of a value of one text is read as that value. -/
theorem same_valueOf_toText {spec : ArgSpec} {value : ArgValue} (scalar : spec.IsScalar value) :
    (spec.valueOf value.toText).same value = true := by
  cases value with
  | text words =>
      have kind : spec.baseType = .text := scalar
      rw [valueOf, kind]
      exact beq_self_eq_true words
  | choice label =>
      have kind : spec.baseType = .choice := scalar
      rw [valueOf, kind]
      exact beq_self_eq_true label
  | boolean value =>
      have kind : spec.baseType = .boolean := scalar
      rw [valueOf, kind]
      cases value <;> decide
  | number number =>
      rw [valueOf, scalar.1]
      exact same_numberOf_numberText scalar.2
  | list items => cases scalar
  | selection labels => cases scalar
  | block content => cases scalar

theorem sameItems_valueOf_textsOf {spec : ArgSpec} {items : List ArgValue}
    (scalars : ∀ item ∈ items, spec.IsScalar item) :
    ArgValue.sameItems ((ArgValue.textsOf items).map spec.valueOf) items = true := by
  induction items with
  | nil => rfl
  | cons item rest inductionHypothesis =>
      rw [ArgValue.textsOf, List.map_cons, ArgValue.sameItems, Bool.and_eq_true]
      constructor
      · exact same_valueOf_toText (scalars item List.mem_cons_self)
      · exact inductionHypothesis fun other behind => scalars other (List.mem_cons_of_mem item behind)

/-! ## Selections -/

theorem tight_of_mem_tokensOf {texts : List String} {token : String}
    (member : token ∈ tokensOf texts) : Text.Tight token.toList := by
  have tight (piece : List Char) : Text.Tight (String.ofList (Text.trim piece)).toList := by
    rw [String.toList_ofList]
    exact Text.tight_trim piece
  unfold tokensOf at member
  split at member
  · split at member
    · rcases List.mem_map.mp member with ⟨piece, -, same⟩
      exact same ▸ tight piece
    · next single _ => exact List.mem_singleton.mp member ▸ tight single.toList
  · rcases List.mem_map.mp member with ⟨text, -, same⟩
    exact same ▸ tight text.toList

/-- Texts without a hyphen are one token each. -/
theorem tokensOf_of_unhyphenated {texts : List String} (plain : ∀ text ∈ texts, '-' ∉ text.toList) :
    tokensOf texts = texts.map Text.trimmed := by
  unfold tokensOf
  split
  · next single =>
      have whole : single.toList.contains '-' = false := by
        simpa using plain single List.mem_cons_self
      rw [whole]
      rfl
  · rfl

theorem trimmed_eq_self_iff (text : String) : Text.trimmed text = text ↔ Text.Tight text.toList := by
  rw [← Text.trim_eq_self_iff, Text.trimmed, ← String.toList_inj, String.toList_ofList]

/-- Whether a selection is in the order of the schema and holds every copy of its
labels that the schema has. -/
def IsComplete (spec : ArgSpec) (selected : List String) : Prop :=
  (spec.labels.filter fun label => selected.contains label) = selected

theorem isComplete_filter (spec : ArgSpec) (chosen : String → Bool) :
    spec.IsComplete (spec.labels.filter chosen) := by
  apply List.filter_congr
  intro label known
  cases picked : chosen label with
  | true => exact List.elem_eq_true_of_mem (List.mem_filter.mpr ⟨known, picked⟩)
  | false =>
      apply Bool.eq_false_iff.mpr
      intro member
      have both := List.mem_filter.mp (List.mem_of_elem_eq_true member)
      cases picked.symm.trans both.2

theorem filter_contains_of_sublist {labels selected : List String} (distinct : labels.Nodup)
    (ordered : selected.Sublist labels) :
    (labels.filter fun label => selected.contains label) = selected := by
  induction ordered with
  | slnil => rfl
  | cons label sub inductionHypothesis =>
      rw [List.nodup_cons] at distinct
      have left : ¬ (List.contains _ label = true) := fun member =>
        distinct.1 (sub.subset (List.mem_of_elem_eq_true member))
      rw [List.filter_cons_of_neg left]
      exact inductionHypothesis distinct.2
  | cons_cons label sub inductionHypothesis =>
      rw [List.nodup_cons] at distinct
      rw [List.filter_cons_of_pos (by simp)]
      congr 1
      refine Eq.trans (List.filter_congr ?_) (inductionHypothesis distinct.2)
      intro other known
      have apart : other ≠ label := fun same => distinct.1 (same ▸ known)
      rw [List.contains_cons, beq_eq_false_iff_ne.mpr apart, Bool.false_or]

/-- A complete selection of labels without hyphens and without blanks around them
is read back. -/
theorem selectionOf_of_isComplete {spec : ArgSpec} {selected : List String}
    (complete : spec.IsComplete selected) (plain : ∀ label ∈ selected, '-' ∉ label.toList)
    (tight : ∀ label ∈ selected, Text.Tight label.toList) : spec.selectionOf selected = selected := by
  have tokens : tokensOf selected = selected := by
    calc tokensOf selected = selected.map Text.trimmed := tokensOf_of_unhyphenated plain
      _ = selected.map id := List.map_congr_left fun label member =>
          (trimmed_eq_self_iff label).mpr (tight label member)
      _ = selected := List.map_id selected
  unfold selectionOf
  rw [tokens]
  exact complete

/-- A single label is read back only when the schema has it once and without
blanks around it. -/
theorem tight_and_count_of_selectionOf {spec : ArgSpec} {label : String}
    (readsBack : spec.selectionOf (spec.labels.filter fun other => [label].contains other) =
      [label]) : Text.Tight label.toList ∧ spec.labels.count label = 1 := by
  have chosen : label ∈ spec.selectionOf (spec.labels.filter fun other => [label].contains other) := by
    rw [readsBack]
    exact List.mem_cons_self
  have token := (List.mem_filter.mp chosen).2
  have counted : (spec.selectionOf (spec.labels.filter fun other => [label].contains other)).count
      label = spec.labels.count label := List.count_filter token
  constructor
  · exact tight_of_mem_tokensOf (List.mem_of_elem_eq_true token)
  · rw [← counted, readsBack]
    exact List.count_singleton_self

end ArgSpec
end PracticePlan
