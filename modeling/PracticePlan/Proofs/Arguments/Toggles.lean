import PracticePlan.Proofs.Arguments.Places

namespace PracticePlan

/-!
# Toggle sets

A toggle set takes all texts behind those of the single arguments.  Read as
tokens, they stand for a set.  A label is selected when a token is that label,
blanks around it apart, so the order of the tokens and their number make no
difference, and neither do tokens that are no label.

There are two spellings, one token for each text and all tokens in one text with
hyphens between them.  A token without a hyphen is the same in both, so a list
of such tokens may be written either way (`ArgSpec.tokensOf_joined`).
-/

/-- The texts behind those of the single arguments. -/
def Schema.behindSingles (schema : Schema) (texts : List String) : List String :=
  texts.drop (Schema.singles schema).length

namespace ArgSpec

/-- Whether no token has a hyphen. -/
def ArePlain (tokens : List String) : Prop :=
  ∀ token ∈ tokens, '-' ∉ token.toList

instance (tokens : List String) : Decidable (ArePlain tokens) :=
  inferInstanceAs (Decidable (∀ token ∈ tokens, '-' ∉ token.toList))

/-! ## The two spellings -/

/-- A single text has one token for each piece between its hyphens, and one token
if it has no hyphen. -/
theorem tokensOf_singleton (single : String) :
    tokensOf [single] =
      (Text.pieces '-' single.toList).map fun piece => String.ofList (Text.trim piece) := by
  rw [tokensOf]
  split
  · rfl
  · next unhyphenated =>
      have absent : '-' ∉ single.toList := by simpa using unhyphenated
      rw [Text.pieces_of_not_mem absent]
      rfl

/-- Tokens without a hyphen may be joined by hyphens. -/
theorem tokensOf_joined {tokens : List String} (present : tokens ≠ [])
    (plain : ArePlain tokens) :
    tokensOf [Text.joined "-" tokens] = tokensOf tokens := by
  have cut : Text.pieces '-' (Text.joined "-" tokens).toList = tokens.map String.toList := by
    rw [Text.joined, String.toList_intercalate]
    apply Text.pieces_intercalate (by simpa using present)
    intro part member
    rcases List.mem_map.mp member with ⟨token, given, rfl⟩
    exact plain token given
  rw [tokensOf_singleton, cut, tokensOf_of_unhyphenated plain, List.map_map]
  rfl

/-! ## Labels among tokens -/

/-- The labels that equal some token, blanks around the token apart, in the order
of the schema. -/
def labelsAmong (spec : ArgSpec) (tokens : List String) : List String :=
  spec.labels.filter fun label => ∃ token ∈ tokens, Text.trimmed token = label

theorem selectionOf_of_unhyphenated (spec : ArgSpec) {tokens : List String}
    (plain : ArePlain tokens) :
    spec.selectionOf tokens = spec.labelsAmong tokens := by
  unfold selectionOf labelsAmong
  rw [tokensOf_of_unhyphenated plain]
  apply List.filter_congr
  intro label known
  simp [List.contains_eq_mem]

/-- Changes to a list of tokens that do not matter to a toggle set with the given
labels. -/
inductive IsRestyled (labels : List String) : List String → List String → Prop
  | sameSet {tokens others : List String}
      (same : ∀ word, word ∈ tokens.map Text.trimmed ↔ word ∈ others.map Text.trimmed) :
      IsRestyled labels tokens others
  | permuted {tokens others : List String} (permutation : tokens.Perm others) :
      IsRestyled labels tokens others
  | repeated {token : String} {tokens : List String} (given : token ∈ tokens) :
      IsRestyled labels tokens (token :: tokens)
  | padded {front back : List Char} {token wide : String} (before after : List String)
      (frontBlank : ∀ c ∈ front, Text.isBlank c = true)
      (backBlank : ∀ c ∈ back, Text.isBlank c = true)
      (spelling : wide.toList = front ++ (token.toList ++ back)) :
      IsRestyled labels (before ++ token :: after) (before ++ wide :: after)
  | unknown {token : String} (tokens : List String) (strange : Text.trimmed token ∉ labels) :
      IsRestyled labels tokens (token :: tokens)
  | symm {tokens others : List String} (restyled : IsRestyled labels tokens others) :
      IsRestyled labels others tokens
  | trans {tokens others further : List String} (first : IsRestyled labels tokens others)
      (second : IsRestyled labels others further) : IsRestyled labels tokens further

theorem trimmed_padded {front back : List Char} {token wide : String}
    (frontBlank : ∀ c ∈ front, Text.isBlank c = true)
    (backBlank : ∀ c ∈ back, Text.isBlank c = true)
    (spelling : wide.toList = front ++ (token.toList ++ back)) :
    Text.trimmed wide = Text.trimmed token := by
  rw [Text.trimmed, spelling, Text.trim_blanks_append frontBlank,
    Text.trim_append_of_blank _ backBlank, Text.trimmed]

/-- A label equals a token before such a change exactly when it does so after it. -/
theorem exists_token_iff_of_isRestyled {labels tokens others : List String}
    (restyled : IsRestyled labels tokens others) {label : String} (known : label ∈ labels) :
    (∃ token ∈ tokens, Text.trimmed token = label) ↔
      ∃ token ∈ others, Text.trimmed token = label := by
  induction restyled with
  | sameSet same => simpa only [List.mem_map] using same label
  | permuted permutation => simp only [permutation.mem_iff]
  | @repeated token tokens given =>
      rw [List.exists_mem_cons_iff]
      exact (or_iff_right_of_imp fun same => ⟨token, given, same⟩).symm
  | padded before after frontBlank backBlank spelling =>
      simp only [List.mem_append, List.mem_cons, or_and_right, exists_or, exists_eq_left,
        trimmed_padded frontBlank backBlank spelling]
  | unknown tokens strange =>
      rw [List.exists_mem_cons_iff]
      have different : Text.trimmed _ ≠ label := fun same => strange (same ▸ known)
      exact (or_iff_right different).symm
  | symm _ inductionHypothesis => exact inductionHypothesis.symm
  | trans _ _ first second => exact first.trans second

theorem labelsAmong_of_isRestyled {spec : ArgSpec} {tokens others : List String}
    (restyled : IsRestyled spec.labels tokens others) :
    spec.labelsAmong tokens = spec.labelsAmong others := by
  apply List.filter_congr
  intro label known
  rw [decide_eq_decide]
  exact exists_token_iff_of_isRestyled restyled known

/-- Selected labels are written one by one. -/
theorem variadicTexts_selectionOf {spec : ArgSpec} (toggles : spec.isToggles = true)
    (texts : List String) :
    spec.variadicTexts (some (.selection (spec.selectionOf texts))) = spec.selectionOf texts := by
  have complete : spec.IsComplete (spec.selectionOf texts) := isComplete_filter spec _
  rw [variadicTexts, toggles]
  exact complete

end ArgSpec

namespace Arguments

variable {schema : Schema} {σ : Type} [IntervalSettings σ]

theorem get?_ofTexts_toggles (usable : Schema.IsUsable schema) {spec : ArgSpec}
    (member : spec ∈ schema) (toggles : spec.isToggles = true) (texts : List String)
    (settings : Option σ) :
    (ofTexts schema texts settings).get? spec.name =
      some (.selection (spec.selectionOf (Schema.behindSingles schema texts))) := by
  have positional : spec ∈ Schema.positional schema :=
    Schema.mem_positional_of_isToggles member toggles
  have placed := isPlaced_ofTexts usable texts settings
  rw [(placed.variadic spec positional (ArgSpec.isVariadic_of_isToggles toggles)).1,
    ArgSpec.variadicValueOf, if_pos toggles, Schema.behindSingles]

theorem toTexts_ofTexts_toggles (usable : Schema.IsUsable schema) {spec : ArgSpec}
    (member : spec ∈ schema) (toggles : spec.isToggles = true) (texts : List String)
    (settings : Option σ) :
    toTexts schema (ofTexts schema texts settings) =
      (Schema.singles schema).map (fun single =>
          single.singleText ((ofTexts schema texts settings).get? single.name)) ++
        spec.selectionOf (Schema.behindSingles schema texts) := by
  have positional : spec ∈ Schema.positional schema :=
    Schema.mem_positional_of_isToggles member toggles
  have many := ArgSpec.isVariadic_of_isToggles toggles
  have nothing := ((isPlaced_ofTexts usable texts settings).variadic spec positional many).2
  rw [toTexts_of_variadic usable positional many, nothing, List.append_nil,
    get?_ofTexts_toggles usable member toggles, ArgSpec.variadicTexts_selectionOf toggles]

/-- What stands behind the single arguments may be exchanged. -/
theorem behindSingles_take_append {texts : List String}
    (present : Schema.behindSingles schema texts ≠ []) (others : List String) :
    Schema.behindSingles schema (texts.take (Schema.singles schema).length ++ others) =
      others := by
  have enough : (Schema.singles schema).length ≤ texts.length := by
    by_contra short
    exact present (List.drop_eq_nil_of_le (Nat.le_of_not_le short))
  have front : (texts.take (Schema.singles schema).length).length =
      (Schema.singles schema).length := List.length_take_of_le enough
  rw [Schema.behindSingles, List.drop_append_of_le_length front.ge,
    List.drop_eq_nil_of_le front.le, List.nil_append]

/-- A toggle set is read as the labels among its tokens, and these are written one
by one behind the single arguments.  Tokens joined by hyphens are read alike, and
so are tokens that are changed without effect on the set. -/
theorem selection_ofTexts {owner : String} (checked : Schema.check owner schema = .ok ())
    {spec : ArgSpec} (member : spec ∈ schema) (toggles : spec.isToggles = true)
    (settings : Option σ) :
    (∀ texts, ArgSpec.ArePlain (Schema.behindSingles schema texts) →
      (ofTexts schema texts settings).get? spec.name =
          some (.selection (spec.labelsAmong (Schema.behindSingles schema texts))) ∧
        toTexts schema (ofTexts schema texts settings) =
          (Schema.singles schema).map (fun single =>
              single.singleText ((ofTexts schema texts settings).get? single.name)) ++
            spec.labelsAmong (Schema.behindSingles schema texts) ∧
        (Schema.behindSingles schema texts ≠ [] →
          (ofTexts schema (texts.take (Schema.singles schema).length ++
              [Text.joined "-" (Schema.behindSingles schema texts)]) settings).get? spec.name =
            (ofTexts schema texts settings).get? spec.name)) ∧
      ∀ texts others, ArgSpec.ArePlain (Schema.behindSingles schema texts) →
        ArgSpec.ArePlain (Schema.behindSingles schema others) →
        ArgSpec.IsRestyled spec.labels (Schema.behindSingles schema texts)
          (Schema.behindSingles schema others) →
        (ofTexts schema texts settings).get? spec.name =
          (ofTexts schema others settings).get? spec.name := by
  have usable := Schema.isUsable_of_check checked
  have value (texts : List String) := get?_ofTexts_toggles usable member toggles texts settings
  constructor
  · intro texts plain
    have among := spec.selectionOf_of_unhyphenated plain
    refine ⟨by rw [value, among], ?_, ?_⟩
    · rw [toTexts_ofTexts_toggles usable member toggles, among]
    · intro present
      rw [value, value, behindSingles_take_append present, ArgSpec.selectionOf,
        ArgSpec.tokensOf_joined present plain, ArgSpec.selectionOf]
  · intro texts others plain otherPlain restyled
    rw [value, value, spec.selectionOf_of_unhyphenated plain,
      spec.selectionOf_of_unhyphenated otherPlain, ArgSpec.labelsAmong_of_isRestyled restyled]

/-- A key, whether to use inversions, and the qualities of chords. -/
def triadSchema : Schema :=
  [.choice "key" ["C", "G"], .block "metronome" [], .boolean "inversions",
    .toggles "qualities" ["Major", "Minor", "Diminished"]]

/-- A blank, a label given twice and an unknown one make no difference, and the
labels may be joined. -/
theorem selection_triads : Schema.check "Triads" triadSchema = .ok () ∧
    toTexts triadSchema (ofTexts triadSchema ["G", "true", " Minor", "Major"]
      (some (CatalogSettings.guitar .standard))) = ["G", "true", "Major", "Minor"] ∧
    (ofTexts triadSchema ["G", "true", " Minor-Major"]
        (some (CatalogSettings.guitar .standard))).get? "qualities" =
      (ofTexts triadSchema ["G", "true", " Minor", "Major"]
        (some (CatalogSettings.guitar .standard))).get? "qualities" ∧
    (ofTexts triadSchema ["G", "true", " Minor", "Major"]
        (some (CatalogSettings.guitar .standard))).get? "qualities" =
      (ofTexts triadSchema ["C", "", "Sus4", "Major", "Major", " Minor"]
        (some (CatalogSettings.guitar .standard))).get? "qualities" := by
  have checked : Schema.check "Triads" triadSchema = .ok () := rfl
  have member : ArgSpec.toggles "qualities" ["Major", "Minor", "Diminished"] ∈ triadSchema := by
    simp [triadSchema]
  have law := selection_ofTexts checked member rfl (some (CatalogSettings.guitar .standard))
  have plain : ArgSpec.ArePlain (Schema.behindSingles triadSchema
      ["G", "true", " Minor", "Major"]) := by
    decide +kernel
  have otherPlain : ArgSpec.ArePlain (Schema.behindSingles triadSchema
      ["C", "", "Sus4", "Major", "Major", " Minor"]) := by
    decide +kernel
  have restyled : ArgSpec.IsRestyled ["Major", "Minor", "Diminished"]
      [" Minor", "Major"] ["Sus4", "Major", "Major", " Minor"] := by
    refine .trans (.permuted (.swap "Major" " Minor" [])) ?_
    exact .trans (.repeated List.mem_cons_self) (.unknown _ (by decide +kernel))
  rcases law.1 _ plain with ⟨-, written, joined⟩
  refine ⟨checked, written, joined (List.cons_ne_nil _ _), ?_⟩
  exact law.2 _ _ plain otherPlain restyled

end Arguments
end PracticePlan
