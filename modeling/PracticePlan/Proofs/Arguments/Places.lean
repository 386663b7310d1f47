import Mathlib.Data.List.DropRight
import PracticePlan.Proofs.Arguments.ReadBack
import PracticePlan.Proofs.Arguments.Selection

namespace PracticePlan

/-!
# The place of a text

Which argument takes a text depends on the place of the text alone.  In a usable
schema the single arguments take one text each from the front, and whatever is
behind them goes to the variadic argument, or to the rest when there is none
(`Arguments.isPlaced_ofTexts`).  So a block has no influence on the other
arguments, wherever it stands.

How many texts are left over can be said of every schema, usable or not.  A
variadic argument leaves nothing over, even if single arguments stand behind it.
Without one, as many texts are taken as there are single arguments.  This is
what the check of the arity counts, so the check fails exactly when reading
leaves a rest (`Arguments.checkArity_eq_ok_iff_rest_eq_nil`).
-/

namespace Schema

/-- The arguments that take one text each, in their order. -/
def singles (schema : Schema) : List ArgSpec :=
  (positional schema).filter fun spec => !spec.isVariadic

theorem length_singles (schema : Schema) : (singles schema).length = singleSlots schema :=
  List.countP_eq_length_filter.symm

theorem mem_singles_iff {schema : Schema} {spec : ArgSpec} :
    spec ∈ singles schema ↔ spec ∈ positional schema ∧ spec.isVariadic = false := by
  simp [singles]

theorem isSingle_of_mem_singles (schema : Schema) :
    ∀ spec ∈ singles schema, spec.isBlock = false ∧ spec.isVariadic = false := by
  intro spec member
  rcases mem_singles_iff.mp member with ⟨slot, one⟩
  exact ⟨(mem_positional_iff.mp slot).2, one⟩

theorem singles_eq_positional {schema : Schema} (none : hasVariadic schema = false) :
    singles schema = positional schema := by
  apply List.filter_eq_self.mpr
  intro spec member
  simpa using List.any_eq_false.mp none spec member

section Order

variable {schema : Schema} (last : schema.Pairwise fun earlier later =>
  earlier.isBlock = false → earlier.isVariadic = true → later.isBlock = true)

include last

/-- A variadic argument stands behind the single ones, and nothing behind it. -/
theorem positional_eq_of_variadic {spec : ArgSpec} (member : spec ∈ positional schema)
    (many : spec.isVariadic = true) : positional schema = singles schema ++ [spec] := by
  rcases List.append_of_mem member with ⟨front, back, order⟩
  have slot : ∀ other ∈ front ++ spec :: back, other.isBlock = false := by
    intro other inside
    rw [← order] at inside
    exact (mem_positional_iff.mp inside).2
  have ordered : (positional schema).Pairwise _ := last.sublist List.filter_sublist
  rw [order, List.pairwise_append, List.pairwise_cons] at ordered
  have nothing : back = [] := by
    apply List.eq_nil_iff_forall_not_mem.mpr
    intro other behind
    have block := ordered.2.1.1 other behind (slot spec (by simp)) many
    cases block.symm.trans (slot other (by simp [behind]))
  have single : ∀ other ∈ front, other.isVariadic = false := by
    intro other before
    cases number : other.isVariadic with
    | false => rfl
    | true =>
        have block := ordered.2.2 other before spec List.mem_cons_self
          (slot other (by simp [before])) number
        cases block.symm.trans (slot spec (by simp))
  have same : front.filter (fun other => !other.isVariadic) = front := by
    apply List.filter_eq_self.mpr
    simpa using single
  rw [singles, order, nothing, List.filter_append, same]
  simp [many]

theorem exists_positional_eq_append : ∃ others, positional schema = singles schema ++ others := by
  cases variadic : hasVariadic schema with
  | true =>
      rcases hasVariadic_iff.mp variadic with ⟨spec, member, many⟩
      exact ⟨[spec], positional_eq_of_variadic last member many⟩
  | false => exact ⟨[], by rw [singles_eq_positional variadic, List.append_nil]⟩

end Order

end Schema

namespace Arguments

variable {blockOf : String → Json}

/-! ## One step for many arguments -/

/-- Blocks take no texts, so the other arguments and the rest are the same without
them. -/
theorem distribute_positional (blockOf : String → Json) (schema : Schema) (texts : List String) :
    (distribute blockOf (Schema.positional schema) texts).1.Sublist
        (distribute blockOf schema texts).1 ∧
      (distribute blockOf (Schema.positional schema) texts).2 =
        (distribute blockOf schema texts).2 := by
  induction schema generalizing texts with
  | nil => exact ⟨.slnil, rfl⟩
  | cons spec others inductionHypothesis =>
      rw [distribute_cons]
      cases kind : spec.isBlock with
      | true =>
          rw [Schema.positional_cons_of_block kind, ArgSpec.remaining_of_block kind]
          exact ⟨(inductionHypothesis texts).1.cons _, (inductionHypothesis texts).2⟩
      | false =>
          rw [Schema.positional_cons_of_slot kind, distribute_cons]
          exact ⟨(inductionHypothesis _).1.cons_cons _, (inductionHypothesis _).2⟩

/-- Single arguments take the texts at their own places, and what stands behind
them takes the texts behind those. -/
theorem distribute_singles_append {front : List ArgSpec}
    (single : ∀ spec ∈ front, spec.isBlock = false ∧ spec.isVariadic = false)
    (others : List ArgSpec) (texts : List String) :
    distribute blockOf (front ++ others) texts =
      (front.mapIdx (fun place spec => (spec.name, spec.valueOf (texts.getD place ""))) ++
          (distribute blockOf others (texts.drop front.length)).1,
        (distribute blockOf others (texts.drop front.length)).2) := by
  induction front generalizing texts with
  | nil => rfl
  | cons spec front inductionHypothesis =>
      rw [List.forall_mem_cons] at single
      have first : texts.headD "" = texts.getD 0 "" := by cases texts <;> rfl
      have later (place : Nat) : texts.tail.getD place "" = texts.getD (place + 1) "" := by
        cases texts <;> rfl
      rw [List.cons_append, distribute_cons, ArgSpec.remaining_of_single single.1.1 single.1.2,
        ArgSpec.valueTaking_of_single single.1.1 single.1.2, inductionHypothesis single.2,
        List.mapIdx_cons, List.length_cons, List.drop_tail, first]
      simp only [later, List.cons_append]

/-! ## What is left over -/

theorem distribute_rest_of_not_hasVariadic {schema : Schema}
    (none : Schema.hasVariadic schema = false) (texts : List String) :
    (distribute blockOf schema texts).2 = texts.drop (Schema.singles schema).length := by
  have slots : Schema.positional schema = Schema.singles schema ++ [] := by
    rw [List.append_nil, Schema.singles_eq_positional none]
  rw [← (distribute_positional blockOf schema texts).2, slots,
    distribute_singles_append (Schema.isSingle_of_mem_singles schema)]
  rfl

theorem checkArity_eq_error_iff {schema : Schema} {texts : List String} {error : ArityError} :
    checkArity schema texts = .error error ↔
      Schema.hasVariadic schema = false ∧ Schema.singleSlots schema < texts.length ∧
        error = ⟨Schema.singleSlots schema, texts.length⟩ := by
  unfold checkArity
  cases Schema.hasVariadic schema with
  | true => simp
  | false =>
      by_cases surplus : Schema.singleSlots schema < texts.length
      · simp [surplus, eq_comm]
      · simp [surplus]

variable {σ : Type} [IntervalSettings σ]

theorem rest_ofTexts_of_hasVariadic {schema : Schema} (variadic : Schema.hasVariadic schema = true)
    (texts : List String) (settings : Option σ) : (ofTexts schema texts settings).rest = [] :=
  distribute_rest_of_hasVariadic variadic texts

theorem rest_ofTexts_of_not_hasVariadic {schema : Schema}
    (none : Schema.hasVariadic schema = false) (texts : List String) (settings : Option σ) :
    (ofTexts schema texts settings).rest = texts.drop (Schema.singles schema).length :=
  distribute_rest_of_not_hasVariadic none texts

/-- The check of the arity succeeds exactly when reading leaves no rest.  When it
fails, it tells the number of texts and that of the single arguments, and the
rest is as many of the last texts as there are more of the former. -/
theorem checkArity_eq_ok_iff_rest_eq_nil (schema : Schema) (texts : List String)
    (settings : Option σ) :
    (checkArity schema texts = .ok () ↔ (ofTexts schema texts settings).rest = []) ∧
      ∀ error, checkArity schema texts = .error error →
        error.found = texts.length ∧ error.expected = (Schema.singles schema).length ∧
          error.expected < error.found ∧
            (ofTexts schema texts settings).rest = texts.rtake (error.found - error.expected) := by
  constructor
  · rw [checkArity_eq_ok_iff, ← Schema.length_singles]
    cases variadic : Schema.hasVariadic schema with
    | true => simp [rest_ofTexts_of_hasVariadic variadic]
    | false => simp [rest_ofTexts_of_not_hasVariadic variadic, List.drop_eq_nil_iff]
  · intro error failed
    rcases checkArity_eq_error_iff.mp failed with ⟨none, surplus, rfl⟩
    refine ⟨rfl, (Schema.length_singles schema).symm, surplus, ?_⟩
    rw [rest_ofTexts_of_not_hasVariadic none, Schema.length_singles, List.rtake,
      Nat.sub_sub_self (Nat.le_of_lt surplus)]

/-- A schema that is not usable: a name occurs twice, and a block is variadic. -/
def keysSchema : Schema :=
  [.text "key", (ArgSpec.block "metronome" []).variadic, .text "key"]

/-- The variadic block takes no texts, so the two behind the keys are left over. -/
theorem rest_ofTexts_keys :
    checkArity keysSchema ["C", "G", "I", "V"] = .error ⟨2, 4⟩ ∧
      (ofTexts keysSchema ["C", "G", "I", "V"] (some (CatalogSettings.guitar .standard))).rest =
        ["I", "V"] := by
  have failed : checkArity keysSchema ["C", "G", "I", "V"] = .error ⟨2, 4⟩ := rfl
  have agrees := checkArity_eq_ok_iff_rest_eq_nil keysSchema ["C", "G", "I", "V"]
    (some (CatalogSettings.guitar .standard))
  exact ⟨failed, (agrees.2 _ failed).2.2.2⟩

/-! ## Texts in their places -/

theorem map_fst_distribute (schema : Schema) (texts : List String) :
    (distribute blockOf schema texts).1.map Prod.fst = schema.map ArgSpec.name := by
  induction schema generalizing texts with
  | nil => rfl
  | cons spec others inductionHypothesis =>
      rw [distribute_cons, List.map_cons, List.map_cons, inductionHypothesis]

theorem get?_ofTexts_of_mem {schema : Schema} (distinct : (schema.map ArgSpec.name).Nodup)
    {texts : List String} {settings : Option σ} {name : String} {value : ArgValue}
    (member : (name, value) ∈ (distribute (blockContent settings) schema texts).1) :
    (ofTexts schema texts settings).get? name = some value := by
  rw [← map_fst_distribute] at distinct
  have found := Named.value?_map Prod.snd distinct member
  rw [List.map_id'' fun _ => rfl] at found
  rw [ofTexts, ofTextsWith, get?, putAll_of_nodup distinct]
  exact found

variable {schema : Schema}

/-- Whether arguments have the values of the texts at their places. -/
structure IsPlaced (schema : Schema) (texts : List String) (arguments : Arguments) : Prop where
  single : ∀ (place : Nat) (spec : ArgSpec), (Schema.singles schema)[place]? = some spec →
    arguments.get? spec.name = some (spec.valueOf (texts.getD place ""))
  variadic : ∀ spec ∈ Schema.positional schema, spec.isVariadic = true →
    arguments.get? spec.name =
        some (spec.variadicValueOf (texts.drop (Schema.singles schema).length)) ∧
      arguments.rest = []
  rest : Schema.hasVariadic schema = false →
    arguments.rest = texts.drop (Schema.singles schema).length

theorem isPlaced_ofTexts (usable : Schema.IsUsable schema) (texts : List String)
    (settings : Option σ) : IsPlaced schema texts (ofTexts schema texts settings) := by
  constructor
  · intro place spec found
    rcases Schema.exists_positional_eq_append usable.last with ⟨others, order⟩
    apply get?_ofTexts_of_mem usable.distinct
    apply (distribute_positional (blockContent settings) schema texts).1.subset
    rw [order, distribute_singles_append (Schema.isSingle_of_mem_singles schema)]
    apply List.mem_append_left
    apply List.mem_of_getElem? (i := place)
    rw [List.getElem?_mapIdx, found]
    rfl
  · intro spec member many
    have variadic := Schema.hasVariadic_iff.mpr ⟨spec, member, many⟩
    refine ⟨?_, rest_ofTexts_of_hasVariadic variadic texts settings⟩
    apply get?_ofTexts_of_mem usable.distinct
    apply (distribute_positional (blockContent settings) schema texts).1.subset
    rw [Schema.positional_eq_of_variadic usable.last member many,
      distribute_singles_append (Schema.isSingle_of_mem_singles schema), distribute_cons,
      ArgSpec.valueTaking_of_variadic (Schema.mem_positional_iff.mp member).2 many]
    apply List.mem_append_right
    exact List.mem_cons_self
  · intro none
    exact rest_ofTexts_of_not_hasVariadic none texts settings

/-- Without the blocks of a schema the other arguments have the same values. -/
theorem get?_ofTexts_positional (distinct : (schema.map ArgSpec.name).Nodup) (texts : List String)
    (settings : Option σ) {spec : ArgSpec} (member : spec ∈ Schema.positional schema) :
    (ofTexts (Schema.positional schema) texts settings).get? spec.name =
      (ofTexts schema texts settings).get? spec.name := by
  have part : (Schema.positional schema).Sublist schema := List.filter_sublist
  have named : spec.name ∈ (distribute (blockContent settings) (Schema.positional schema)
      texts).1.map Prod.fst := by
    rw [map_fst_distribute]
    exact List.mem_map.mpr ⟨spec, member, rfl⟩
  rcases List.mem_map.mp named with ⟨⟨name, value⟩, given, rfl⟩
  have kept := (distribute_positional (blockContent settings) schema texts).1.subset given
  rw [get?_ofTexts_of_mem (distinct.sublist (part.map ArgSpec.name)) given,
    get?_ofTexts_of_mem distinct kept]

/-! ## Texts that are written again -/

/-- The single arguments are written first, as one text each. -/
theorem flatMap_singles (schema : Schema) (arguments : Arguments) :
    (Schema.singles schema).flatMap (fun spec => spec.textsOf (arguments.get? spec.name)) =
      (Schema.singles schema).map fun spec => spec.singleText (arguments.get? spec.name) := by
  rw [← List.flatMap_pure_eq_map]
  apply List.flatMap_congr
  intro spec member
  rw [ArgSpec.textsOf, (Schema.mem_singles_iff.mp member).2]
  rfl

theorem toTexts_of_not_hasVariadic (none : Schema.hasVariadic schema = false)
    (arguments : Arguments) :
    toTexts schema arguments =
      (Schema.singles schema).map (fun spec => spec.singleText (arguments.get? spec.name)) ++
        arguments.rest := by
  rw [toTexts, ← flatMap_singles, Schema.singles_eq_positional none]

theorem toTexts_of_variadic (usable : Schema.IsUsable schema) {spec : ArgSpec}
    (member : spec ∈ Schema.positional schema) (many : spec.isVariadic = true)
    (arguments : Arguments) :
    toTexts schema arguments =
      (Schema.singles schema).map (fun single => single.singleText (arguments.get? single.name)) ++
        spec.variadicTexts (arguments.get? spec.name) ++ arguments.rest := by
  rw [toTexts, Schema.positional_eq_of_variadic usable.last member many, List.flatMap_append,
    flatMap_singles, List.flatMap_singleton, ArgSpec.textsOf, if_pos many]

end Arguments

namespace ArgSpec

variable {spec : ArgSpec} (words : spec.baseType = .text ∨ spec.baseType = .choice)

include words

theorem toText_valueOf (text : String) : (spec.valueOf text).toText = text := by
  unfold valueOf
  rcases words with kind | kind
  · rw [kind]
    rfl
  · rw [kind]
    rfl

theorem textsOf_map_valueOf (texts : List String) :
    ArgValue.textsOf (texts.map spec.valueOf) = texts := by
  induction texts with
  | nil => rfl
  | cons text others inductionHypothesis =>
      rw [List.map_cons, ArgValue.textsOf, toText_valueOf words, inductionHypothesis]

end ArgSpec

namespace Arguments

variable {schema : Schema} {σ : Type} [IntervalSettings σ]

/-- Texts at the places of a list, with the empty text where there is none. -/
theorem map_eq_rightpad {α : Type} {entries : List α} {textOf : α → String} {texts : List String}
    (each : ∀ (place : Nat) (entry : α), entries[place]? = some entry →
      textOf entry = texts.getD place "") :
    entries.map textOf = (texts.take entries.length).rightpad entries.length "" := by
  induction entries generalizing texts with
  | nil => simp [List.rightpad]
  | cons entry others inductionHypothesis =>
      have behind : others.map textOf =
          (texts.tail.take others.length).rightpad others.length "" := by
        apply inductionHypothesis
        intro place other found
        rw [each (place + 1) other found]
        cases texts <;> rfl
      rw [List.map_cons, each 0 entry rfl, behind]
      cases texts with
      | nil => simp [List.rightpad, List.replicate_succ]
      | cons text rest => simp [List.rightpad]

/-- Arguments of words are written as the texts they were read from.  A single
argument without a text is written as the empty text. -/
theorem toTexts_of_words {texts : List String} {arguments : Arguments}
    (usable : Schema.IsUsable schema) (placed : IsPlaced schema texts arguments)
    (words : ∀ spec ∈ Schema.positional schema,
      spec.baseType = .text ∨ spec.baseType = .choice ∧ spec.isToggles = false) :
    toTexts schema arguments = texts.rightpad (Schema.singles schema).length "" := by
  have front : (Schema.singles schema).map
      (fun spec => spec.singleText (arguments.get? spec.name)) =
        (texts.take (Schema.singles schema).length).rightpad
          (Schema.singles schema).length "" := by
    apply map_eq_rightpad
    intro place spec found
    have member := (Schema.mem_singles_iff.mp (List.mem_of_getElem? found)).1
    rw [placed.single place spec found]
    exact ArgSpec.toText_valueOf ((words spec member).imp_right And.left) _
  have whole : (texts.take (Schema.singles schema).length).rightpad
      (Schema.singles schema).length "" ++ texts.drop (Schema.singles schema).length =
        texts.rightpad (Schema.singles schema).length "" := by
    rcases Nat.le_total (Schema.singles schema).length texts.length with enough | short
    · simp [List.rightpad, enough]
    · simp [List.rightpad, List.take_of_length_le short, List.drop_eq_nil_of_le short]
  cases variadic : Schema.hasVariadic schema with
  | true =>
      rcases Schema.hasVariadic_iff.mp variadic with ⟨spec, member, many⟩
      rcases placed.variadic spec member many with ⟨value, rest⟩
      have list : spec.isToggles = false := by
        rcases words spec member with kind | kind
        · simp [ArgSpec.isToggles, kind]
        · exact kind.2
      rw [toTexts_of_variadic usable member many, front, rest, value, List.append_nil, ← whole]
      congr 1
      rw [ArgSpec.variadicValueOf, list]
      exact ArgSpec.textsOf_map_valueOf ((words spec member).imp_right And.left) _
  | false => rw [toTexts_of_not_hasVariadic variadic, front, placed.rest variadic, whole]

/-- Reading gives each text one place.  The values and the texts of the other
arguments are the same without the blocks, and words are written as they were
read. -/
theorem slots_ofTexts {owner : String} (checked : Schema.check owner schema = .ok ())
    (texts : List String) (settings : Option σ) :
    IsPlaced schema texts (ofTexts schema texts settings) ∧
      (∃ shareOf, IsDivision schema texts shareOf (ofTexts schema texts settings).rest ∧
        ∀ spec ∈ schema, (ofTexts schema texts settings).get? spec.name =
          some (spec.valueTaking (blockContent settings) (shareOf spec.name))) ∧
      ((∀ spec ∈ Schema.positional schema,
          (ofTexts (Schema.positional schema) texts settings).get? spec.name =
            (ofTexts schema texts settings).get? spec.name) ∧
        (ofTexts (Schema.positional schema) texts settings).rest =
          (ofTexts schema texts settings).rest ∧
        toTexts (Schema.positional schema) (ofTexts (Schema.positional schema) texts settings) =
          toTexts schema (ofTexts schema texts settings)) ∧
      ((∀ spec ∈ Schema.positional schema,
          spec.baseType = .text ∨ spec.baseType = .choice ∧ spec.isToggles = false) →
        toTexts schema (ofTexts schema texts settings) =
          texts.rightpad (Schema.singles schema).length "") := by
  have usable := Schema.isUsable_of_check checked
  have placed := isPlaced_ofTexts usable texts settings
  have values : ∀ spec ∈ Schema.positional schema,
      (ofTexts (Schema.positional schema) texts settings).get? spec.name =
        (ofTexts schema texts settings).get? spec.name :=
    fun spec member => get?_ofTexts_positional usable.distinct texts settings member
  have rest : (ofTexts (Schema.positional schema) texts settings).rest =
      (ofTexts schema texts settings).rest :=
    (distribute_positional (blockContent settings) schema texts).2
  refine ⟨placed, ?_, ⟨values, rest, ?_⟩, toTexts_of_words usable placed⟩
  · rcases exists_division usable.distinct texts with ⟨shareOf, division, same⟩
    refine ⟨shareOf, division, ?_⟩
    intro spec member
    apply get?_ofTexts_of_mem usable.distinct
    rw [same]
    exact List.mem_map.mpr ⟨spec, member, rfl⟩
  · rw [toTexts, Schema.positional_positional]
    exact toTexts_congr (fun spec member => by rw [values spec member]) rest

/-- Words with blocks in front of them, between them and behind them. -/
def jamSchema : Schema :=
  [.block "metronome" [], .text "title", .block "looper" [], .choice "key" ["C", "G"],
    (ArgSpec.text "chords").variadic, .block "recorder" []]

/-- The blocks take none of the texts, and a missing text is written as an empty
one. -/
theorem slots_jam : Schema.check "Jam" jamSchema = .ok () ∧
    (ofTexts jamSchema ["Blues", "D", "I", "IV"] (some (CatalogSettings.guitar .standard))).get?
        "key" = some (.choice "D") ∧
    (ofTexts jamSchema ["Blues", "D", "I", "IV"] (some (CatalogSettings.guitar .standard))).get?
        "chords" = some (.list [.text "I", .text "IV"]) ∧
    toTexts jamSchema (ofTexts jamSchema ["Blues"] (some (CatalogSettings.guitar .standard))) =
      ["Blues", ""] := by
  have checked : Schema.check "Jam" jamSchema = .ok () := rfl
  have slots (texts : List String) :=
    slots_ofTexts checked texts (some (CatalogSettings.guitar .standard))
  have words : ∀ spec ∈ Schema.positional jamSchema,
      spec.baseType = .text ∨ spec.baseType = .choice ∧ spec.isToggles = false := by
    decide
  have chords : (ArgSpec.text "chords").variadic ∈ Schema.positional jamSchema := by
    simp [jamSchema, Schema.positional, ArgSpec.isBlock, ArgSpec.block, ArgSpec.text,
      ArgSpec.choice, ArgSpec.plain, ArgSpec.variadic]
  refine ⟨checked, ?_, ?_, ?_⟩
  · exact (slots ["Blues", "D", "I", "IV"]).1.single 1 (.choice "key" ["C", "G"]) rfl
  · exact ((slots ["Blues", "D", "I", "IV"]).1.variadic _ chords rfl).1
  · exact (slots ["Blues"]).2.2.2 words

end Arguments
end PracticePlan
