import Mathlib.Data.List.Forall2
import PracticePlan.Catalog.Settings
import PracticePlan.Proofs.Arguments.Values

namespace PracticePlan

/-!
# Arguments are read back from their texts

For a usable schema, arguments that were read are read back from their own texts
(`Arguments.agrees_ofTexts_toTexts`).  So reading and writing once brings texts
into a normal form, however many there were and whatever they said.
-/

namespace ArgValue

/-- Whether two values agree.  The contents of blocks have to be the very same. -/
def Agrees : ArgValue → ArgValue → Prop
  | block first, block second => first = second
  | first, second => first.same second = true

theorem agrees_of_same {first second : ArgValue} (equal : first.same second = true)
    (shown : ∀ content, first ≠ .block content) : first.Agrees second := by
  unfold Agrees
  split
  · exact absurd rfl (shown _)
  · exact equal

end ArgValue

namespace ArgSpec

variable {blockOf : String → Json} {spec : ArgSpec}

/-! ## One argument -/

theorem same_valueTaking_single {value : ArgValue} (slot : spec.isBlock = false)
    (one : spec.isVariadic = false) (scalar : spec.IsScalar value) :
    (spec.valueTaking blockOf (spec.textsOf (some value))).same value = true := by
  rw [valueTaking, textsOf, slot, one]
  exact same_valueOf_toText scalar

theorem same_valueTaking_list {items : List ArgValue} (slot : spec.isBlock = false)
    (many : spec.isVariadic = true) (list : spec.isToggles = false)
    (scalars : ∀ item ∈ items, spec.IsScalar item) :
    (spec.valueTaking blockOf (spec.textsOf (some (.list items)))).same (.list items) = true := by
  have value : spec.valueTaking blockOf (spec.textsOf (some (.list items))) =
      .list ((ArgValue.textsOf items).map spec.valueOf) := by
    rw [valueTaking, textsOf, slot, many, if_neg Bool.false_ne_true, if_pos rfl, if_pos rfl,
      variadicValueOf, list]
    rfl
  rw [value]
  exact sameItems_valueOf_textsOf scalars

theorem valueTaking_toggles (toggles : spec.isToggles = true) (texts : List String) :
    spec.valueTaking blockOf texts = .selection (spec.selectionOf texts) := by
  rw [valueTaking, isBlock_of_isToggles toggles, isVariadic_of_isToggles toggles, variadicValueOf,
    toggles]
  rfl

theorem textsOf_toggles (toggles : spec.isToggles = true) (selected : List String) :
    spec.textsOf (some (.selection selected)) =
      spec.labels.filter fun label => selected.contains label := by
  rw [textsOf, isVariadic_of_isToggles toggles, variadicTexts, toggles]
  rfl

/-- A complete selection of labels without hyphens and without blanks around them
is read back from its texts. -/
theorem valueTaking_selection {selected : List String} (toggles : spec.isToggles = true)
    (complete : spec.IsComplete selected) (plain : ∀ label ∈ selected, '-' ∉ label.toList)
    (tight : ∀ label ∈ selected, Text.Tight label.toList) :
    spec.valueTaking blockOf (spec.textsOf (some (.selection selected))) = .selection selected := by
  have texts : spec.textsOf (some (.selection selected)) = selected :=
    (textsOf_toggles toggles selected).trans complete
  rw [texts, valueTaking_toggles toggles, selectionOf_of_isComplete complete plain tight]

/-- A value that was read is read back. -/
theorem same_valueTaking_again (slot : spec.isBlock = false)
    (plain : spec.isToggles = true → ∀ label ∈ spec.labels, '-' ∉ label.toList)
    (texts : List String) :
    (spec.valueTaking blockOf (spec.textsOf (some (spec.valueTaking blockOf texts)))).same
      (spec.valueTaking blockOf texts) = true := by
  cases number : spec.isVariadic with
  | false =>
      have value : spec.valueTaking blockOf texts = spec.valueOf (texts.headD "") := by
        rw [valueTaking, slot, number]
        rfl
      rw [value]
      exact same_valueTaking_single slot number (isScalar_valueOf slot _)
  | true =>
      cases toggles : spec.isToggles with
      | false =>
          have value : spec.valueTaking blockOf texts = .list (texts.map spec.valueOf) := by
            rw [valueTaking, slot, number, variadicValueOf, toggles]
            rfl
          rw [value]
          apply same_valueTaking_list slot number toggles
          intro item member
          rcases List.mem_map.mp member with ⟨text, -, same⟩
          exact same ▸ isScalar_valueOf slot text
      | true =>
          have complete : spec.IsComplete (spec.selectionOf texts) := isComplete_filter spec _
          rw [valueTaking_toggles toggles texts, valueTaking_selection toggles complete]
          · exact beq_self_eq_true (spec.selectionOf texts)
          · intro label member
            exact plain toggles label (List.mem_filter.mp member).1
          · intro label member
            exact tight_of_mem_tokensOf (List.mem_of_elem_eq_true (List.mem_filter.mp member).2)

theorem valueTaking_ne_block (slot : spec.isBlock = false) (texts : List String) (content : Json) :
    spec.valueTaking blockOf texts ≠ .block content := by
  rw [valueTaking, slot, if_neg Bool.false_ne_true]
  split
  · unfold variadicValueOf
    split <;> simp
  · unfold valueOf
    split <;> simp

end ArgSpec

namespace Arguments

variable {σ : Type} [IntervalSettings σ]

/-! ## All arguments -/

/-- Whether arguments agree place by place and in their rests. -/
structure Agrees (first second : Arguments) : Prop where
  values : List.Forall₂ (fun named other => named.1 = other.1 ∧ named.2.Agrees other.2)
    first.values second.values
  rest : first.rest = second.rest

theorem putAll_map {schema : Schema} (distinct : (schema.map ArgSpec.name).Nodup)
    (valueOf : ArgSpec → ArgValue) :
    putAll (schema.map fun spec => (spec.name, valueOf spec)) =
      schema.map fun spec => (spec.name, valueOf spec) := by
  apply putAll_of_nodup
  rw [List.map_map]
  exact distinct

/-- Arguments that were read have a value for each argument of the schema, and a
variadic argument leaves no rest. -/
theorem exists_taken_of_ofTexts {schema : Schema} (usable : Schema.IsUsable schema)
    (texts : List String) (settings : Option σ) :
    (∃ taken : String → List String, (ofTexts schema texts settings).values =
      schema.map fun spec => (spec.name, spec.valueTaking (blockContent settings) (taken spec.name))) ∧
      (Schema.hasVariadic schema = true → (ofTexts schema texts settings).rest = []) := by
  rcases exists_division usable.distinct texts with ⟨taken, -, values⟩
  constructor
  · refine ⟨taken, ?_⟩
    rw [ofTexts, ofTextsWith, values]
    exact putAll_map usable.distinct _
  · intro variadic
    exact distribute_rest_of_hasVariadic variadic texts

/-- Written arguments are read one by one from their own texts. -/
theorem ofTexts_toTexts {schema : Schema} (usable : Schema.IsUsable schema) (settings : Option σ)
    {arguments : Arguments} (full : Schema.hasVariadic schema = true → arguments.rest = []) :
    ofTexts schema (toTexts schema arguments) settings =
      ⟨schema.map fun spec => (spec.name, spec.valueTaking (blockContent settings)
        (spec.textsOf (arguments.get? spec.name))), arguments.rest⟩ := by
  have single (spec : ArgSpec) (one : spec.isVariadic = false) :
      ∃ text, spec.textsOf (arguments.get? spec.name) = [text] := by
    rw [ArgSpec.textsOf, one]
    exact ⟨_, rfl⟩
  rw [ofTexts, ofTextsWith, toTexts, distribute_flatMap usable.last single full,
    putAll_map usable.distinct]

theorem get?_ofTexts_toTexts {schema : Schema} (usable : Schema.IsUsable schema)
    (settings : Option σ) {arguments : Arguments}
    (full : Schema.hasVariadic schema = true → arguments.rest = []) {spec : ArgSpec}
    (member : spec ∈ schema) :
    (ofTexts schema (toTexts schema arguments) settings).get? spec.name =
      some (spec.valueTaking (blockContent settings) (spec.textsOf (arguments.get? spec.name))) := by
  rw [ofTexts_toTexts usable settings full]
  exact Named.value?_map (fun spec : ArgSpec => spec.valueTaking (blockContent settings)
    (spec.textsOf (arguments.get? spec.name))) usable.distinct member

theorem toTexts_congr {schema : Schema} {first second : Arguments}
    (texts : ∀ spec ∈ Schema.positional schema,
      spec.textsOf (first.get? spec.name) = spec.textsOf (second.get? spec.name))
    (rest : first.rest = second.rest) : toTexts schema first = toTexts schema second := by
  rw [toTexts, toTexts, rest, List.flatMap_congr texts]

/-- Arguments that were read from any texts are read back from their own texts,
and are written as the same texts again. -/
theorem agrees_ofTexts_toTexts {owner : String} {schema : Schema}
    (checked : Schema.check owner schema = .ok ()) (texts : List String) (settings : Option σ) :
    Agrees (ofTexts schema (toTexts schema (ofTexts schema texts settings)) settings)
        (ofTexts schema texts settings) ∧
      toTexts schema (ofTexts schema (toTexts schema (ofTexts schema texts settings)) settings) =
        toTexts schema (ofTexts schema texts settings) := by
  have usable := Schema.isUsable_of_check checked
  rcases exists_taken_of_ofTexts usable texts settings with ⟨⟨taken, values⟩, full⟩
  generalize ofTexts schema texts settings = arguments at values full
  have known : ∀ spec ∈ schema, arguments.get? spec.name =
      some (spec.valueTaking (blockContent settings) (taken spec.name)) := by
    intro spec member
    rw [get?, values]
    exact Named.value?_map (fun spec : ArgSpec =>
      spec.valueTaking (blockContent settings) (taken spec.name)) usable.distinct member
  have again : ∀ spec ∈ schema, spec.isBlock = false →
      (spec.valueTaking (blockContent settings) (spec.textsOf (arguments.get? spec.name))).same
        (spec.valueTaking (blockContent settings) (taken spec.name)) = true := by
    intro spec member slot
    rw [known spec member]
    exact ArgSpec.same_valueTaking_again slot (usable.unhyphenated spec member) _
  have back := ofTexts_toTexts usable settings full
  constructor
  · constructor
    · rw [back, values, List.forall₂_map_left_iff, List.forall₂_map_right_iff, List.forall₂_same]
      intro spec member
      refine ⟨rfl, ?_⟩
      cases slot : spec.isBlock with
      | true =>
          rw [ArgSpec.valueTaking, ArgSpec.valueTaking, slot]
          rfl
      | false =>
          exact ArgValue.agrees_of_same (again spec member slot)
            (ArgSpec.valueTaking_ne_block slot _)
    · rw [back]
  · apply toTexts_congr
    · intro spec positional
      rcases Schema.mem_positional_iff.mp positional with ⟨member, slot⟩
      rw [get?_ofTexts_toTexts usable settings full member,
        spec.textsOf_of_same (again spec member slot), known spec member]
    · rw [back]

/-- A number, a block and a toggle set. -/
def chordSchema : Schema :=
  [.number "tempo", .block "metronome" [], .toggles "qualities" ["Major", "Minor"]]

/-- A hyphenated text, a label that the schema does not know and a number with
useless zeros are gone once the arguments are written. -/
theorem agrees_chords : Schema.check "Chords" chordSchema = .ok () ∧
    toTexts chordSchema (ofTexts chordSchema ["0090.50", "Minor - Blues - Major"]
      (some (CatalogSettings.guitar .standard))) = ["90.5", "Major", "Minor"] ∧
    Agrees
      (ofTexts chordSchema ["90.5", "Major", "Minor"] (some (CatalogSettings.guitar .standard)))
      (ofTexts chordSchema ["0090.50", "Minor - Blues - Major"]
        (some (CatalogSettings.guitar .standard))) := by
  have checked : Schema.check "Chords" chordSchema = .ok () := rfl
  have written : toTexts chordSchema (ofTexts chordSchema ["0090.50", "Minor - Blues - Major"]
      (some (CatalogSettings.guitar .standard))) = ["90.5", "Major", "Minor"] := by
    decide +kernel
  have agrees := (agrees_ofTexts_toTexts checked ["0090.50", "Minor - Blues - Major"]
    (some (CatalogSettings.guitar .standard))).1
  rw [written] at agrees
  exact ⟨checked, written, agrees⟩

end Arguments
end PracticePlan
