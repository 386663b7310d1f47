import PracticePlan.Proofs.Arguments.Number
import PracticePlan.Proofs.Catalog.Changes

namespace PracticePlan

/-!
# Settings and makers of the catalog

Settings start as the default of a category, as a JSON form or as a literal, and
a block of them can be replaced.  Each of these ways ends in the check of the
metronome, so a metronome that a row has is always in range
(`CatalogSettings.inRange_of_isObtainable`).

A maker looks at decoded arguments and, if it needs the metronome, at the
settings.  What makes it succeed, and with which feature, is one equivalence for
each maker.  The metronome of the arguments is the one of the settings, because
the block of the arguments is filled from them (`metronomeOf_of_get?`).
-/

namespace CatalogSettings

/-- Settings that some row can come to have. -/
inductive IsObtainable : CatalogSettings → Prop
  | default {category : Category CatalogSettings CatalogFeature}
      (registered : category ∈ Catalog.registry.categories) :
      IsObtainable category.defaultSettings
  | form {category : Category CatalogSettings CatalogFeature} {form : Json}
      {settings : CatalogSettings} (registered : category ∈ Catalog.registry.categories)
      (read : category.settingsOfJson form = .ok settings) : IsObtainable settings
  | literal {category : Category CatalogSettings CatalogFeature} {text : String}
      {settings : CatalogSettings} (registered : category ∈ Catalog.registry.categories)
      (read : category.settingsOfLiteral? text = some (.ok settings)) : IsObtainable settings
  | changed {settings changed : CatalogSettings} {name : String} {content : Json}
      (before : IsObtainable settings)
      (set : IntervalSettings.setBlock settings name content = .ok changed) :
      IsObtainable changed

/-- Whether the numbers of a metronome are in range, if there is one. -/
def InRange : CatalogSettings → Prop
  | guitar metronome => metronome.check = .ok metronome
  | plain _ => True

/-- Replacing a block keeps settings in range, whatever they were. -/
theorem inRange_of_setBlock {settings changed : CatalogSettings} {name : String} {content : Json}
    (set : IntervalSettings.setBlock settings name content = .ok changed) : InRange changed := by
  rcases exists_metronome_of_setBlock set with ⟨metronome, inRange, rfl⟩
  exact Metronome.check_eq_ok_iff_isInRange.mpr inRange

theorem inRange_of_isObtainable {settings : CatalogSettings}
    (obtainable : IsObtainable settings) : InRange settings := by
  have known {category : Category CatalogSettings CatalogFeature}
      (registered : category ∈ Catalog.registry.categories) :
      category = Catalog.guitar ∨ category = Catalog.general := by
    simpa [Catalog.registry] using registered
  induction obtainable with
  | default registered =>
      rcases known registered with rfl | rfl
      · rfl
      · trivial
  | form registered read =>
      rcases known registered with rfl | rfl
      · rcases exists_metronome_of_guitarOfJson read with ⟨metronome, checked, rfl⟩
        exact checked
      · rw [eq_of_generalOfJson read]
        trivial
  | literal registered read =>
      rcases known registered with rfl | rfl
      · rcases exists_tempo_of_ofLiteral? read with ⟨tempo, inRange, rfl⟩
        exact Metronome.check_eq_ok_iff_isInRange.mpr (Metronome.isInRange_atTempo inRange)
      · cases read
  | changed _ set _ => exact inRange_of_setBlock set

/-- The metronome that settings stand for.  Settings without one stand for the
standard metronome, which is off. -/
def metronome : CatalogSettings → Metronome
  | guitar metronome => metronome
  | plain _ => .standard

/-- The tempo of settings, if they have one. -/
def tempo? (settings : CatalogSettings) : Option UInt32 :=
  settings.metronome.tempo

end CatalogSettings

namespace CatalogFeature

/-! ## The makers -/

/-- A block that was bound to the settings is read as their metronome. -/
theorem metronomeOf_of_get? {arguments : Arguments} {settings : CatalogSettings}
    (bound : arguments.get? CatalogSettings.metronomeBlock =
      some (.block (Arguments.blockContent (some settings) CatalogSettings.metronomeBlock))) :
    metronomeOf arguments settings = settings.metronome := by
  cases settings with
  | guitar metronome =>
      have block : arguments.block? CatalogSettings.metronomeBlock = some metronome.toJson := by
        rw [Arguments.block?, bound]
        rfl
      simp only [metronomeOf, block, Option.orElse_eq_orElse, Option.orElse_eq_or, Option.some_or,
        Metronome.ofJson_toJson]
      rfl
  | plain category =>
      have block : arguments.block? CatalogSettings.metronomeBlock = none := by
        rw [Arguments.block?, bound]
        rfl
      rw [metronomeOf, block]
      rfl

theorem chosen_eq_ok_iff {arguments : Arguments} {name value : String} {allowed : List String} :
    chosen arguments name allowed = .ok value ↔
      arguments.text? name = some value ∧ value ∈ allowed := by
  unfold chosen
  cases arguments.text? name with
  | none => simp
  | some given =>
      dsimp only
      by_cases known : given ∈ allowed
      · rw [if_pos known]
        constructor
        · intro same
          rw [← Except.ok.inj same]
          exact ⟨rfl, known⟩
        · intro both
          rw [Option.some.inj both.1]
      · rw [if_neg known]
        constructor
        · intro impossible
          split at impossible
          · cases impossible
          · cases impossible
        · intro both
          exact absurd (Option.some.inj both.1 ▸ both.2) known

theorem filterMap_chord? (texts : List String) :
    (texts.map ArgValue.text).filterMap chord? =
      (texts.map Text.trimmed).filter fun chord => chord ≠ "" := by
  have blank (text : String) : (Text.trim text.toList).isEmpty = true ↔ Text.trimmed text = "" := by
    rw [List.isEmpty_iff, Text.trimmed, ← String.toList_inj, String.toList_ofList]
    rfl
  induction texts with
  | nil => rfl
  | cons text rest inductionHypothesis =>
      rw [List.map_cons, List.map_cons, List.filterMap_cons, chord?]
      by_cases empty : Text.trimmed text = ""
      · rw [if_pos ((blank text).mpr empty), List.filter_cons_of_neg (by simpa using empty)]
        exact inductionHypothesis
      · rw [if_neg fun none => empty ((blank text).mp none),
          List.filter_cons_of_pos (by simpa using empty)]
        exact congrArg _ inductionHypothesis

theorem makeMetronome_eq_ok_iff {arguments : Arguments} {context : Context CatalogSettings}
    {feature : CatalogFeature} :
    makeMetronome arguments context = .ok feature ↔
      ∃ tempo, (metronomeOf arguments context.settings).tempo = some tempo ∧
        feature = metronome tempo (metronomeOf arguments context.settings).beatsPerBar := by
  unfold makeMetronome
  dsimp only
  cases (metronomeOf arguments context.settings).tempo with
  | none => simp
  | some tempo => simp [eq_comm]

/-- A maker that chooses a key, and after that refuses to work with an empty list. -/
theorem chosen_key_eq_ok_iff {arguments : Arguments} {cause : FeatureError}
    {feature : CatalogFeature} (make : String → List String → CatalogFeature)
    (entries : List String) :
    ((chosen arguments "key" keys).bind fun key =>
        if entries.isEmpty then .error cause else .ok (make key entries)) = .ok feature ↔
      ∃ key known, arguments.text? "key" = some key ∧ key ∈ keys ∧ entries = known ∧
        known ≠ [] ∧ feature = make key known := by
  constructor
  · intro made
    rcases Except.bind_eq_ok_iff.mp made with ⟨key, picked, rest⟩
    rcases chosen_eq_ok_iff.mp picked with ⟨given, known⟩
    split at rest
    · cases rest
    · next present =>
        refine ⟨key, entries, given, known, rfl, ?_, (Except.ok.inj rest).symm⟩
        simpa using present
  · rintro ⟨key, _, given, known, rfl, present, rfl⟩
    refine Except.bind_eq_ok_iff.mpr ⟨key, chosen_eq_ok_iff.mpr ⟨given, known⟩, ?_⟩
    exact if_neg (by simpa using present)

theorem makeProgression_eq_ok_iff {arguments : Arguments} {context : Context CatalogSettings}
    {feature : CatalogFeature} :
    makeProgression arguments context = .ok feature ↔
      ∃ key chords, arguments.text? "key" = some key ∧ key ∈ keys ∧
        ((arguments.list? "chords").getD []).filterMap chord? = chords ∧ chords ≠ [] ∧
        feature = progression key chords (metronomeOf arguments context.settings).tempo :=
  chosen_key_eq_ok_iff
    (fun key chords => progression key chords (metronomeOf arguments context.settings).tempo) _

theorem makeScale_eq_ok_iff {arguments : Arguments} {context : Context CatalogSettings}
    {feature : CatalogFeature} :
    makeScale arguments context = .ok feature ↔
      ∃ root mode selected, arguments.text? "root" = some root ∧ root ∈ keys ∧
        arguments.text? "mode" = some mode ∧ mode ∈ modes ∧
        (arguments.selection? "positions").getD [] = selected ∧
        feature = scale root mode (if selected = [] then allPositions else selected) := by
  have played (selected : List String) :
      (if selected.isEmpty = true then allPositions else selected) =
        if selected = [] then allPositions else selected :=
    if_congr List.isEmpty_iff rfl rfl
  unfold makeScale
  constructor
  · intro made
    rcases Except.bind_eq_ok_iff.mp made with ⟨root, pickedRoot, rest⟩
    rcases Except.bind_eq_ok_iff.mp rest with ⟨mode, pickedMode, last⟩
    rcases chosen_eq_ok_iff.mp pickedRoot with ⟨givenRoot, knownRoot⟩
    rcases chosen_eq_ok_iff.mp pickedMode with ⟨givenMode, knownMode⟩
    refine ⟨root, mode, _, givenRoot, knownRoot, givenMode, knownMode, rfl, ?_⟩
    rw [← played]
    exact (Except.ok.inj last).symm
  · rintro ⟨root, mode, selected, givenRoot, knownRoot, givenMode, knownMode, same, rfl⟩
    refine Except.bind_eq_ok_iff.mpr ⟨root, chosen_eq_ok_iff.mpr ⟨givenRoot, knownRoot⟩, ?_⟩
    refine Except.bind_eq_ok_iff.mpr ⟨mode, chosen_eq_ok_iff.mpr ⟨givenMode, knownMode⟩, ?_⟩
    dsimp only
    rw [same, played]

theorem makeTriads_eq_ok_iff {arguments : Arguments} {context : Context CatalogSettings}
    {feature : CatalogFeature} :
    makeTriads arguments context = .ok feature ↔
      ∃ key qualities, arguments.text? "key" = some key ∧ key ∈ keys ∧
        (arguments.selection? "qualities").getD [] = qualities ∧ qualities ≠ [] ∧
        feature = triads key ((arguments.boolean? "inversions").getD false) qualities :=
  chosen_key_eq_ok_iff
    (fun key qualities => triads key ((arguments.boolean? "inversions").getD false) qualities) _

/-! ## Numbers and truth values in texts -/

/-- How many notes a text asks for.  A dozen is the answer to a text that is no
finite number, as much as to zero. -/
inductive AsksFor (text : String) : Nat → Prop
  | unreadable (unread : ∀ number, Binary64.ofText? (Text.trim text.toList) = some number →
      number.isFinite = false) : AsksFor text 12
  | zero {number : Binary64} (read : Binary64.ofText? (Text.trim text.toList) = some number)
      (isZero : number.isZero = true) : AsksFor text 12
  | count {number : Binary64} {notes : Nat}
      (read : Binary64.ofText? (Text.trim text.toList) = some number)
      (whole : number.toInt? = some notes) (least : 1 ≤ notes) (most : notes ≤ 120) :
      AsksFor text notes

/-- Whether a text is the word `true` in any case, apart from blanks around it. -/
def SaysTrue (text : String) : Prop :=
  (Text.trim text.toList).map Char.toLower = ['t', 'r', 'u', 'e']

theorem truthOf_eq_iff {text : String} {value : Bool} :
    ArgSpec.truthOf text = value ↔ (value = true ↔ SaysTrue text) := by
  unfold ArgSpec.truthOf SaysTrue
  cases value with
  | true => simp
  | false => simp

theorem notesOf_eq_ok_iff {number : Binary64} {notes : Nat} :
    notesOf number = .ok notes ↔
      number.isZero = true ∧ notes = 12 ∨
        number.toInt? = some (notes : Int) ∧ 1 ≤ notes ∧ notes ≤ 120 := by
  unfold notesOf
  constructor
  · intro asked
    split at asked
    · next value whole =>
        split at asked
        · next zero =>
            subst zero
            exact .inl ⟨Binary64.isZero_of_toInt? whole, (Except.ok.inj asked).symm⟩
        · split at asked
          · next bounds =>
              rw [← Except.ok.inj asked]
              refine .inr ⟨?_, by omega, by omega⟩
              rw [whole, Int.toNat_of_nonneg (by omega)]
          · cases asked
    · cases asked
  · rintro (⟨zero, rfl⟩ | ⟨whole, least, most⟩)
    · rw [Binary64.toInt?_of_isZero zero]
      rfl
    · rw [whole]
      dsimp only
      rw [if_neg (by omega), if_pos (by omega), Int.toNat_natCast]

/-- The notes of a text, which is read as a number first. -/
theorem notesOf_numberOf_eq_ok_iff {text : String} {notes : Nat} :
    notesOf (ArgSpec.numberOf text) = .ok notes ↔ AsksFor text notes := by
  rw [notesOf_eq_ok_iff, ArgSpec.numberOf]
  constructor
  · intro asked
    cases read : (Binary64.ofText? (Text.trim text.toList)).filter Binary64.isFinite with
    | none =>
        rw [read, Option.getD_none] at asked
        have unread : ∀ number, Binary64.ofText? (Text.trim text.toList) = some number →
            number.isFinite = false := by
          intro number known
          rw [known, Option.filter_eq_none_iff] at read
          simpa using read number rfl
        rcases asked with ⟨-, rfl⟩ | ⟨whole, least, -⟩
        · exact .unreadable unread
        · have zero : some 0 = some (notes : Int) :=
            (Binary64.toInt?_of_isZero (show Binary64.zero.isZero = true from rfl)).symm.trans whole
          have same := Option.some.inj zero
          omega
    | some number =>
        rw [read, Option.getD_some] at asked
        have known := (Option.filter_eq_some_iff.mp read).1
        rcases asked with ⟨zero, rfl⟩ | ⟨whole, least, most⟩
        · exact .zero known zero
        · exact .count known whole least most
  · intro asked
    cases asked with
    | unreadable unread =>
        have none : (Binary64.ofText? (Text.trim text.toList)).filter Binary64.isFinite = none := by
          rw [Option.filter_eq_none_iff]
          intro number known
          simpa using unread number known
        rw [none]
        exact .inl ⟨rfl, rfl⟩
    | zero read isZero =>
        rw [read, Option.filter_some_pos (Binary64.isFinite_of_isZero isZero)]
        exact .inl ⟨isZero, rfl⟩
    | count read whole least most =>
        have finite := (Binary64.exists_units_of_toInt? whole).2.1
        rw [read, Option.filter_some_pos finite]
        exact .inr ⟨whole, least, most⟩

end CatalogFeature
end PracticePlan
