import PracticePlan.Catalog.Basic
import PracticePlan.Proofs.Line.Naming
import PracticePlan.Proofs.Line.Patterns

namespace PracticePlan
namespace Notation

/-!
# The grammar of a line

A line means a group, an interval, or nothing, and a line that means nothing is
either blank or refused.  `Line.IsReadAs` says so without a procedure.  It takes
a line apart into blanks, number signs, commas and pieces, and it names a category
and a type for the second field (`Resolves`) and settings for the last one
(`Line.ReadsFields`).

Every line without a newline has exactly one meaning, and the reader finds it.
The patterns that define the notation find the same one
(`Line.read_eq_iff_isReadAs`).
-/

variable {σ φ : Type}

/-! ## Names of types -/

/-- Whether a field names a registered category in front of its first slash. -/
def IsQualified (registry : Registry σ φ) (field : String) (category : Category σ φ)
    (type : String) : Prop :=
  ∃ before after, field.toList = before ++ '/' :: after ∧ '/' ∉ before ∧
    registry.category? (String.ofList (Text.trim before)) = some category ∧
    type = String.ofList (Text.trim after)

/-- The category and the type that a field stands for. -/
inductive Resolves (registry : Registry σ φ) (standard : Category σ φ) :
    String → Category σ φ → String → Prop
  | unnamed : Resolves registry standard "" standard ""
  | qualified {field type : String} {category : Category σ φ}
      (names : IsQualified registry field category type) :
      Resolves registry standard field category type
  | own {field : String} (shown : field ≠ "")
      (plain : ∀ category type, ¬ IsQualified registry field category type)
      (offered : (standard.type? field).isSome = true) :
      Resolves registry standard field standard field
  | elsewhere {field : String} {type : FeatureType σ φ} {category : Category σ φ}
      (shown : field ≠ "") (plain : ∀ category type, ¬ IsQualified registry field category type)
      (missing : standard.type? field = none) (found : registry.findType? field = some type)
      (registered : registry.category? type.category = some category) :
      Resolves registry standard field category field
  | unknown {field : String} (shown : field ≠ "")
      (plain : ∀ category type, ¬ IsQualified registry field category type)
      (missing : standard.type? field = none)
      (nowhere : ∀ type, registry.findType? field = some type →
        registry.category? type.category = none) :
      Resolves registry standard field standard field

theorem isQualified_iff {registry : Registry σ φ} {field : String} {category : Category σ φ}
    {type : String} :
    IsQualified registry field category type ↔
      explicit? registry field = some (category, type) := by
  unfold explicit? qualified?
  constructor
  · rintro ⟨before, after, whole, first, known, rfl⟩
    rw [whole, Text.cut?_append _ _ _ first, Option.map_some, Option.bind_some, known]
    rfl
  · intro explicit
    rcases Option.bind_eq_some_iff.mp explicit with ⟨parts, cut, known⟩
    rcases Option.map_eq_some_iff.mp cut with ⟨pair, found, rfl⟩
    rcases Option.map_eq_some_iff.mp known with ⟨other, registered, same⟩
    rcases Prod.mk.inj same with ⟨rfl, rfl⟩
    rcases Text.eq_append_of_cut? found with ⟨whole, first⟩
    exact ⟨pair.1, pair.2, whole, first, registered, rfl⟩

theorem not_isQualified_iff {registry : Registry σ φ} {field : String} :
    (∀ category type, ¬ IsQualified registry field category type) ↔
      explicit? registry field = none := by
  simp only [isQualified_iff, Option.eq_none_iff_forall_ne_some, ne_eq, Prod.forall]

theorem resolves_resolve (registry : Registry σ φ) (standard : Category σ φ) (field : String) :
    Resolves registry standard field (resolve registry standard field).1
      (resolve registry standard field).2 := by
  unfold resolve
  split
  · next empty =>
      rw [String.isEmpty_iff.mp empty]
      exact .unnamed
  · next named =>
      have shown : field ≠ "" := by simpa using named
      split
      · next found explicit => exact .qualified (isQualified_iff.mpr explicit)
      · next explicit =>
          have plain := not_isQualified_iff.mpr explicit
          split
          · next offered => exact .own shown plain offered
          · next missing =>
              have absent : standard.type? field = none := by simpa using missing
              split
              · next category there =>
                  rcases Option.bind_eq_some_iff.mp there with ⟨type, found, registered⟩
                  exact .elsewhere shown plain absent found registered
              · next lost =>
                  exact .unknown shown plain absent (Option.bind_eq_none_iff.mp lost)

/-- Every field resolves in exactly one way. -/
theorem resolves_iff {registry : Registry σ φ} {standard : Category σ φ} {field : String}
    {category : Category σ φ} {type : String} :
    Resolves registry standard field category type ↔
      resolve registry standard field = (category, type) := by
  constructor
  · intro resolves
    cases resolves with
    | unnamed => rfl
    | qualified names => exact resolve_of_explicit (isQualified_iff.mp names)
    | own shown plain offered =>
        rw [resolve, if_neg (by simpa using shown), not_isQualified_iff.mp plain]
        exact if_pos offered
    | elsewhere shown plain missing found registered =>
        have there : elsewhere? registry field = some category :=
          Option.bind_eq_some_iff.mpr ⟨_, found, registered⟩
        rw [resolve, if_neg (by simpa using shown), not_isQualified_iff.mp plain, missing, there]
        rfl
    | unknown shown plain missing nowhere =>
        have lost : elsewhere? registry field = none := Option.bind_eq_none_iff.mpr nowhere
        rw [resolve, if_neg (by simpa using shown), not_isQualified_iff.mp plain, missing, lost]
        rfl
  · intro found
    have resolves := resolves_resolve registry standard field
    rw [found] at resolves
    exact resolves

namespace Line

/-! ## Fields -/

/-- Whether a field has the shape of a literal: a mark, a key, a colon and
anything. -/
def IsLiteral (field : String) (body : String) : Prop :=
  ∃ first key between value, field.toList = '@' :: body.toList ∧
    body.toList = first :: (key ++ (between ++ ':' :: value)) ∧ first.isAlpha = true ∧
    (∀ c ∈ key, c.isAlphanum = true ∨ c = '_') ∧ ∀ c ∈ between, Text.isBlank c = true

/-- The field that decides about the literal. -/
def deciding (fields : List String) : String :=
  if fields.length ≤ 2 then "" else fields.getD 1 ""

/-- What the fields of an interval say. -/
inductive ReadsFields (registry : Registry σ φ) (standard : Category σ φ) (fields : List String) :
    Fields σ → Prop
  | literal {front : List String} {last body type : String} {category : Category σ φ} {settings : σ}
      (whole : fields = front ++ [last]) (shape : IsLiteral last body)
      (resolved : Resolves registry standard (deciding fields) category type)
      (known : category.settingsOfLiteral? body = some (.ok settings)) :
      ReadsFields registry standard fields ⟨front, some settings, none⟩
  | refused {front : List String} {last body type : String} {category : Category σ φ}
      {cause : SettingsError} (whole : fields = front ++ [last]) (shape : IsLiteral last body)
      (resolved : Resolves registry standard (deciding fields) category type)
      (known : category.settingsOfLiteral? body = some (.error cause)) :
      ReadsFields registry standard fields ⟨front, none, some (.ignoredLiteral body cause)⟩
  | plain (other : ∀ front last body category type, fields = front ++ [last] →
      IsLiteral last body → Resolves registry standard (deciding fields) category type →
      category.settingsOfLiteral? body = none) :
      ReadsFields registry standard fields ⟨fields, none, none⟩

theorem deciding_eq (fields : List String) : deciding fields = typeField fields := by
  rcases fields with _ | ⟨first, _ | ⟨second, _ | ⟨third, others⟩⟩⟩
  · rfl
  · rfl
  · rfl
  · exact if_neg (by simp)

theorem isLiteral_iff {field body : String} (newline : '\n' ∉ field.toList) :
    IsLiteral field body ↔ literalBody? field.toList = some body := by
  have keyChars {key : List Char} : (∀ c ∈ key, isKeyChar c = true) ↔
      ∀ c ∈ key, c.isAlphanum = true ∨ c = '_' := by
    simp [isKeyChar]
  constructor
  · rintro ⟨first, key, between, value, marked, shape, letter, inside, blank⟩
    have absent : '\n' ∉ value := by
      intro member
      apply newline
      rw [marked, shape]
      simp [member]
    rw [marked]
    exact literalBody?_cons (isLiteralBody_iff.mpr
      ⟨first, key, between, value, shape, letter, keyChars.mpr inside, blank, absent⟩)
  · intro found
    rcases literalBody?_eq_some found with ⟨marked, isBody⟩
    rcases isLiteralBody_iff.mp isBody with
      ⟨first, key, between, value, shape, letter, inside, blank, -⟩
    exact ⟨first, key, between, value, marked, shape, letter, keyChars.mp inside, blank⟩

section Taking

variable {registry : Registry σ φ} {standard : Category σ φ} {fields : List String}

/-- What becomes of the last field when it has the shape of a literal. -/
theorem takeLiteral_of_shape {front : List String} {last body : String}
    (whole : fields = front ++ [last]) (shape : literalBody? last.toList = some body) :
    takeLiteral registry standard fields =
      match (resolve registry standard (typeField fields)).1.settingsOfLiteral? body with
      | none => ⟨fields, none, none⟩
      | some (.ok settings) => ⟨front, some settings, none⟩
      | some (.error cause) => ⟨front, none, some (.ignoredLiteral body cause)⟩ := by
  have here : fields.getLast? = some last := by rw [whole, List.getLast?_concat]
  have rest : fields.dropLast = front := by rw [whole, List.dropLast_concat]
  rw [takeLiteral, here, Option.bind_some, lastLiteral?, shape, Option.bind_some, rest]
  cases (resolve registry standard (typeField fields)).1.settingsOfLiteral? body with
  | none => rfl
  | some outcome =>
      cases outcome with
      | ok settings => rfl
      | error cause => rfl

theorem takeLiteral_of_readsFields (clean : ∀ field ∈ fields, '\n' ∉ field.toList)
    {taken : Fields σ} (reads : ReadsFields registry standard fields taken) :
    takeLiteral registry standard fields = taken := by
  have answer {category : Category σ φ} {type : String}
      (resolved : Resolves registry standard (deciding fields) category type) :
      (resolve registry standard (typeField fields)).1 = category := by
    rw [deciding_eq] at resolved
    rw [resolves_iff.mp resolved]
  have literal {front : List String} {last body : String} (whole : fields = front ++ [last])
      (shape : IsLiteral last body) : literalBody? last.toList = some body :=
    (isLiteral_iff (clean last (by simp [whole]))).mp shape
  cases reads with
  | literal whole shape resolved known =>
      rw [takeLiteral_of_shape whole (literal whole shape), answer resolved, known]
  | refused whole shape resolved known =>
      rw [takeLiteral_of_shape whole (literal whole shape), answer resolved, known]
  | plain other =>
      rcases List.eq_nil_or_concat fields with rfl | ⟨front, last, joined⟩
      · rfl
      · have whole : fields = front ++ [last] := joined.trans List.concat_eq_append
        cases shape : literalBody? last.toList with
        | none =>
            have here : fields.getLast? = some last := by rw [whole, List.getLast?_concat]
            rw [takeLiteral, here, Option.bind_some, lastLiteral?, shape]
            rfl
        | some body =>
            have resolved := resolves_resolve registry standard (typeField fields)
            have unknown := other front last body _ _ whole
              ((isLiteral_iff (clean last (by simp [whole]))).mpr shape)
              ((deciding_eq fields).symm ▸ resolved)
            rw [takeLiteral_of_shape whole shape, ← deciding_eq, unknown]

theorem readsFields_takeLiteral (clean : ∀ field ∈ fields, '\n' ∉ field.toList) :
    ReadsFields registry standard fields (takeLiteral registry standard fields) := by
  have resolved := resolves_resolve registry standard (deciding fields)
  by_cases literal : ∃ front last body, fields = front ++ [last] ∧ IsLiteral last body ∧
      (resolve registry standard (deciding fields)).1.settingsOfLiteral? body ≠ none
  · rcases literal with ⟨front, last, body, whole, shape, known⟩
    have found := (isLiteral_iff (clean last (by simp [whole]))).mp shape
    rw [takeLiteral_of_shape whole found, ← deciding_eq]
    cases outcome : (resolve registry standard (deciding fields)).1.settingsOfLiteral? body with
    | none => exact absurd outcome known
    | some result =>
        cases result with
        | ok settings => exact .literal whole shape resolved outcome
        | error cause => exact .refused whole shape resolved outcome
  · have plain : ReadsFields registry standard fields ⟨fields, none, none⟩ := by
      refine .plain fun front last body category type whole shape resolves => ?_
      cases known : category.settingsOfLiteral? body with
      | none => rfl
      | some outcome =>
          refine absurd ⟨front, last, body, whole, shape, ?_⟩ literal
          rw [resolves_iff.mp resolves, known]
          exact Option.some_ne_none outcome
    rw [takeLiteral_of_readsFields clean plain]
    exact plain

end Taking

/-! ## Lines -/

/-- A line that is neither blank nor a group, as the text in front of the first
comma and the pieces behind the commas. -/
structure HasParts (line head : List Char) (pieces : List (List Char)) : Prop where
  shown : ∃ c ∈ line, Text.isBlank c = false
  noGroup : (Text.trim line).head? ≠ some '#'
  whole : line = head ++ pieces.flatMap fun piece => ',' :: piece
  first : ',' ∉ head
  apart : ∀ piece ∈ pieces, ',' ∉ piece

/-- What a line means. -/
inductive IsReadAs (registry : Registry σ φ) (standard : Category σ φ) (line : List Char) :
    Contribution σ → Prop
  | blank (blank : ∀ c ∈ line, Text.isBlank c = true) :
      IsReadAs registry standard line ⟨none, none⟩
  | group {before rest : List Char} {count : Nat}
      (whole : line = before ++ (List.replicate count '#' ++ rest))
      (front : ∀ c ∈ before, Text.isBlank c = true) (positive : 1 ≤ count)
      (maximal : rest.head? ≠ some '#') :
      IsReadAs registry standard line
        ⟨some (.group ⟨UInt32.ofNat count, String.ofList (Text.trim rest)⟩), none⟩
  | refused {head : List Char} {pieces : List (List Char)} (parts : HasParts line head pieces)
      (inside : ∃ c ∈ Text.trim head, Text.isBlank c = true) :
      IsReadAs registry standard line
        ⟨none, some (.unrecognized (String.ofList (Text.trim line)))⟩
  | interval {head : List Char} {pieces : List (List Char)} {taken : Fields σ}
      {category : Category σ φ} {type : String} (parts : HasParts line head pieces)
      (token : ∀ c ∈ Text.trim head, Text.isBlank c = false)
      (fields : ReadsFields registry standard
        (pieces.map fun piece => String.ofList (Text.trim piece)) taken)
      (resolved : Resolves registry standard (taken.values.getD 1 "") category type) :
      IsReadAs registry standard line
        ⟨some (.interval
          { duration := if Text.trim head = [] then "0:00" else String.ofList (Text.trim head)
            task := taken.values.getD 0 ""
            categoryName := category.name
            featureType := type
            arguments := taken.values.drop 2
            settings := taken.settings?.getD category.defaultSettings }), taken.note?⟩

section Reading

variable {registry : Registry σ φ} {standard : Category σ φ} {line : List Char}

theorem trim_ne_nil_iff : Text.trim line ≠ [] ↔ ∃ c ∈ line, Text.isBlank c = false := by
  rw [ne_eq, trim_eq_nil_iff]
  simp

/-- Pieces behind commas are the tail of a line. -/
theorem exists_tail_of_pieces {pieces : List (List Char)} (apart : ∀ piece ∈ pieces, ',' ∉ piece) :
    ∃ tail?, (pieces.flatMap fun piece => ',' :: piece) = tailChars tail? ∧
      fieldsOfTail tail? = pieces.map fun piece => String.ofList (Text.trim piece) := by
  cases pieces with
  | nil => exact ⟨none, rfl, rfl⟩
  | cons first others =>
      have both := List.forall_mem_cons.mp apart
      refine ⟨some (first ++ others.flatMap fun piece => ',' :: piece), rfl, ?_⟩
      rw [fieldsOfTail, Option.map_some, Option.getD_some,
        Text.pieces_append_flatMap both.1 both.2]

/-- The tail of a line consists of pieces behind commas. -/
theorem exists_pieces_of_tail (tail? : Option (List Char)) :
    ∃ pieces : List (List Char), tailChars tail? = (pieces.flatMap fun piece => ',' :: piece) ∧
      (∀ piece ∈ pieces, ',' ∉ piece) ∧
      fieldsOfTail tail? = pieces.map fun piece => String.ofList (Text.trim piece) := by
  cases tail? with
  | none => exact ⟨[], rfl, fun _ member => absurd member List.not_mem_nil, rfl⟩
  | some tail =>
      refine ⟨Text.pieces ',' tail, ?_, fun piece => Text.not_mem_of_mem_pieces, rfl⟩
      exact (Text.flatMap_pieces ',' tail).symm

theorem clean_of_hasParts (newline : '\n' ∉ line) {head : List Char} {pieces : List (List Char)}
    (parts : HasParts line head pieces) :
    ∀ field ∈ pieces.map fun piece => String.ofList (Text.trim piece), '\n' ∉ field.toList := by
  intro field member inside
  rcases List.mem_map.mp member with ⟨piece, known, rfl⟩
  rw [String.toList_ofList] at inside
  apply newline
  rw [parts.whole]
  refine List.mem_append_right head (List.mem_flatMap.mpr ⟨piece, known, ?_⟩)
  exact List.mem_cons_of_mem _ (Text.mem_of_mem_trim inside)

/-- A group contributes a row, since its level is not zero. -/
theorem ofGroup_of_count {count : Nat} (positive : 1 ≤ count) (short : count < 0x100000000)
    (name : String) :
    (.ofGroup (UInt32.ofNat count) name : Contribution σ) =
      ⟨some (.group ⟨UInt32.ofNat count, name⟩), none⟩ := by
  have level : UInt32.ofNat count ≠ 0 := by
    intro zero
    have counted := congrArg UInt32.toNat zero
    rw [UInt32.toNat_ofNat_of_lt' short] at counted
    exact absurd counted (Nat.ne_of_gt positive)
  rw [Contribution.ofGroup, GroupRow.make?, if_neg level]
  rfl

/-- What the fields of a line say is what the reader contributes. -/
theorem ofFields_of_readsFields {duration : List Char} {fields : List String} {taken : Fields σ}
    {category : Category σ φ} {type : String} (clean : ∀ field ∈ fields, '\n' ∉ field.toList)
    (reads : ReadsFields registry standard fields taken)
    (resolved : Resolves registry standard (taken.values.getD 1 "") category type) :
    ofFields registry standard duration fields =
      ⟨some (.interval
        { duration := if duration = [] then "0:00" else String.ofList duration
          task := taken.values.getD 0 ""
          categoryName := category.name
          featureType := type
          arguments := taken.values.drop 2
          settings := taken.settings?.getD category.defaultSettings }), taken.note?⟩ := by
  have second : taken.values.tail.headD "" = taken.values.getD 1 "" := by
    rcases taken.values with _ | ⟨first, _ | ⟨second, others⟩⟩ <;> rfl
  have task : taken.values.headD "" = taken.values.getD 0 "" := by
    cases taken.values <;> rfl
  have shown : (if duration.isEmpty then IntervalRow.standardDuration else String.ofList duration) =
      if duration = [] then "0:00" else String.ofList duration := by
    cases duration <;> rfl
  rw [ofFields, takeLiteral_of_readsFields clean reads]
  dsimp only [intervalOf]
  rw [second, task, shown, resolves_iff.mp resolved]

theorem read_of_isReadAs (newline : '\n' ∉ line)
    (short : ∀ before count rest, line = before ++ (List.replicate count '#' ++ rest) →
      (∀ c ∈ before, Text.isBlank c = true) → count < 0x100000000)
    {contribution : Contribution σ} (means : IsReadAs registry standard line contribution) :
    read registry standard line = contribution := by
  cases means with
  | blank blank => exact read_blank blank
  | @group before rest count whole front positive maximal =>
      rw [← ofGroup_of_count positive (short before count rest whole front)]
      rcases Nat.exists_eq_succ_of_ne_zero (Nat.ne_of_gt positive) with ⟨others, rfl⟩
      have signs : ∀ c ∈ List.replicate others '#', c = '#' := fun c => List.eq_of_mem_replicate
      have counted : ('#' :: List.replicate others '#').length = others.succ := by
        rw [List.length_cons, List.length_replicate]
      rw [whole, List.replicate_succ, ← counted]
      exact read_group_parts front signs maximal
  | @refused head pieces parts inside =>
      rcases exists_tail_of_pieces parts.apart with ⟨tail?, tail, -⟩
      have whole := parts.whole
      rw [tail] at whole
      subst whole
      rw [read_interval_parts parts.first (trim_ne_nil_iff.mpr parts.shown) parts.noGroup]
      exact if_pos (List.any_eq_true.mpr inside)
  | @interval head pieces taken category type parts token fields resolved =>
      rcases exists_tail_of_pieces parts.apart with ⟨tail?, tail, same⟩
      have clean := clean_of_hasParts newline parts
      have whole := parts.whole
      rw [tail] at whole
      subst whole
      rw [read_interval_parts parts.first (trim_ne_nil_iff.mpr parts.shown) parts.noGroup,
        any_isBlank_eq_false_iff.mpr token, if_neg Bool.false_ne_true, same]
      exact ofFields_of_readsFields clean fields resolved

theorem isReadAs_read (newline : '\n' ∉ line)
    (short : ∀ before count rest, line = before ++ (List.replicate count '#' ++ rest) →
      (∀ c ∈ before, Text.isBlank c = true) → count < 0x100000000) :
    IsReadAs registry standard line (read registry standard line) := by
  have found {contribution : Contribution σ}
      (means : IsReadAs registry standard line contribution) :
      IsReadAs registry standard line (read registry standard line) := by
    rw [read_of_isReadAs newline short means]
    exact means
  by_cases nothing : Text.trim line = []
  · exact found (.blank (trim_eq_nil_iff.mp nothing))
  · by_cases sign : (Text.trim line).head? = some '#'
    · rcases exists_group_parts sign with ⟨before, signs, rest, whole, blank, sharp, stop⟩
      have counted : line = before ++ (List.replicate (signs.length + 1) '#' ++ rest) := by
        rw [List.replicate_succ, ← List.eq_replicate_of_mem sharp]
        exact whole
      exact found (.group counted blank (Nat.le_add_left 1 _) stop)
    · rcases exists_tailChars line with ⟨head, tail?, whole, absent⟩
      rcases exists_pieces_of_tail tail? with ⟨pieces, tail, apart, -⟩
      have parts : HasParts line head pieces :=
        ⟨trim_ne_nil_iff.mp nothing, sign, tail ▸ whole, absent, apart⟩
      by_cases inside : ∃ c ∈ Text.trim head, Text.isBlank c = true
      · exact found (.refused parts inside)
      · have token : ∀ c ∈ Text.trim head, Text.isBlank c = false := by
          intro c member
          exact Bool.eq_false_iff.mpr fun blank => inside ⟨c, member, blank⟩
        exact found (.interval parts token
          (readsFields_takeLiteral (clean_of_hasParts newline parts)) (resolves_resolve ..))

/-- The reader and the patterns find the one meaning of a line.  Lines that start
with 2^32 number signs or more are left out, since no level is that deep. -/
theorem read_eq_iff_isReadAs (registry : Registry σ φ) (standard : Category σ φ)
    (line : List Char) (newline : '\n' ∉ line)
    (short : ∀ before count rest, line = before ++ (List.replicate count '#' ++ rest) →
      (∀ c ∈ before, Text.isBlank c = true) → count < 0x100000000) :
    readByPatterns registry standard line = read registry standard line ∧
      ∀ contribution, read registry standard line = contribution ↔
        IsReadAs registry standard line contribution := by
  refine ⟨readByPatterns_eq registry standard newline, fun contribution => ⟨?_, ?_⟩⟩
  · rintro rfl
    exact isReadAs_read newline short
  · exact read_of_isReadAs newline short

end Reading

/-- A line with blanks around its parts and a literal. -/
def clickLine : List Char :=
  "  10:00 ,Changes,, Chord Progression ,C,I , @BPM: 90 ".toList

/-- The second field of the line is empty, so the name behind it is an argument. -/
theorem isReadAs_clickLine : '\n' ∉ clickLine ∧ clickLine.length < 0x100000000 ∧
    IsReadAs Catalog.registry Catalog.guitar clickLine
      ⟨some (.interval ⟨"10:00", "Changes", "Guitar", "", ["Chord Progression", "C", "I"],
        .guitar (.atTempo 90)⟩), none⟩ := by
  have newline : '\n' ∉ clickLine := by decide
  have bounded : clickLine.length < 0x100000000 := by decide
  have short : ∀ before count rest, clickLine = before ++ (List.replicate count '#' ++ rest) →
      (∀ c ∈ before, Text.isBlank c = true) → count < 0x100000000 := by
    intro before count rest whole _
    have lengths := congrArg List.length whole
    rw [List.length_append, List.length_append, List.length_replicate] at lengths
    omega
  refine ⟨newline, bounded, ?_⟩
  exact ((read_eq_iff_isReadAs Catalog.registry Catalog.guitar clickLine newline short).2 _).mp rfl

end Line
end Notation
end PracticePlan
