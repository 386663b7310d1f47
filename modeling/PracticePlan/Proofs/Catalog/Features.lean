import PracticePlan.Proofs.Arguments.Selection
import PracticePlan.Proofs.Catalog.Makers
import PracticePlan.Proofs.Timeline.Step

namespace PracticePlan
namespace Catalog

/-!
# What the catalog makes of a row

A row of the catalog names one of seven types.  Whether its feature can be made,
and which feature it is, can be read off the row (`IsFeatureOf`), without
schemas, decoded arguments or blocks.  `featureOf_eq_ok_iff_isFeatureOf` says
that the registry makes this feature and no other, and none at all from any
other row.

Each type is treated by itself (`makeFeature_scale` and its neighbours).  The
schema of a type gives the arguments of the row their names, and its maker says
which values they must have.
-/

open Timeline CatalogFeature ArgSpec

/-! ## The seven features -/

/-- What a row has to be for a feature to be made of it. -/
def IsFeatureOf (row : IntervalRow CatalogSettings) : CatalogFeature → Prop
  | .metronome tempo beats =>
      row.categoryName = "Guitar" ∧ row.featureType = "Metronome" ∧ row.arguments = [] ∧
        row.settings.tempo? = some tempo ∧ row.settings.metronome.beatsPerBar = beats
  | .progression key chords tempo =>
      row.categoryName = "Guitar" ∧ row.featureType = "Chord Progression" ∧
        ∃ later, row.arguments = key :: later ∧ key ∈ keys ∧
          chords = (later.map Text.trimmed).filter (fun chord => chord ≠ "") ∧ chords ≠ [] ∧
          tempo = row.settings.tempo?
  | .scale root mode positions =>
      row.categoryName = "Guitar" ∧ row.featureType = "Scale" ∧
        ∃ picks selected, row.arguments = root :: mode :: picks ∧ root ∈ keys ∧ mode ∈ modes ∧
          IsSelection allPositions picks selected ∧
          positions = if selected = [] then allPositions else selected
  | .triads key inversions qualities =>
      row.categoryName = "Guitar" ∧ row.featureType = "Triads" ∧
        ∃ turned picks, row.arguments = key :: turned :: picks ∧ key ∈ keys ∧
          (inversions = true ↔ SaysTrue turned) ∧
          IsSelection allQualities picks qualities ∧ qualities ≠ []
  | .fretboard notes naturalsOnly =>
      row.categoryName = "Guitar" ∧ row.featureType = "Fretboard Notes" ∧
        row.arguments.length ≤ 2 ∧ AsksFor (row.arguments.headD "") notes ∧
        (naturalsOnly = true ↔ SaysTrue (row.arguments.tail.headD ""))
  | .rest =>
      row.categoryName = "General" ∧ row.featureType = "Rest" ∧ row.arguments = []
  | .reading material =>
      row.categoryName = "General" ∧ row.featureType = "Reading" ∧
        ∃ text, row.arguments = [text] ∧ material = Text.trimmed text ∧ material ≠ ""

section Types

variable {row : IntervalRow CatalogSettings} {index : Nat} {duration : Duration}
variable {type : FeatureType CatalogSettings CatalogFeature} {feature : CatalogFeature}

theorem makeFeature_typeOf {category name displayName : String} {schema : Schema} {maker : Maker} :
    makeFeature (Catalog.typeOf category name displayName schema maker) row index duration =
        .ok feature ↔
      (Schema.hasVariadic schema = true ∨ row.arguments.length ≤ Schema.singleSlots schema) ∧
        maker (.ofTexts schema row.arguments (some row.settings))
          ⟨index, duration, row.settings⟩ = .ok feature := by
  rw [makeFeature_eq_ok_iff, Arguments.checkArity_eq_ok_iff]
  exact and_congr_right' Except.mapError_eq_ok_iff

/-- Without a variadic argument there are at most as many texts as places. -/
theorem length_le_of_fits (places : Nat) {schema : Schema} {texts : List String}
    (plain : Schema.hasVariadic schema = false) (slots : Schema.singleSlots schema = places) :
    (Schema.hasVariadic schema = true ∨ texts.length ≤ Schema.singleSlots schema) ↔
      texts.length ≤ places := by
  rw [plain, slots]
  exact or_iff_right Bool.false_ne_true

theorem makeFeature_metronome (category : row.categoryName = "Guitar")
    (named : row.featureType = "Metronome") (offered : guitar.type? "Metronome" = some type) :
    makeFeature type row index duration = .ok feature ↔
      ∃ tempo beats, IsFeatureOf row (.metronome tempo beats) ∧
        feature = .metronome tempo beats := by
  cases Option.some.inj offered
  have bound : (Arguments.ofTexts [metronomeSpec] row.arguments (some row.settings)).get?
      CatalogSettings.metronomeBlock = some (.block (Arguments.blockContent (some row.settings)
        CatalogSettings.metronomeBlock)) := rfl
  refine makeFeature_typeOf.trans ?_
  rw [length_le_of_fits 0 rfl rfl, Nat.le_zero, List.length_eq_zero_iff, makeMetronome_eq_ok_iff,
    metronomeOf_of_get? bound]
  constructor
  · rintro ⟨bare, tempo, on, rfl⟩
    exact ⟨tempo, _, ⟨category, named, bare, on, rfl⟩, rfl⟩
  · rintro ⟨tempo, beats, ⟨-, -, bare, on, same⟩, rfl⟩
    exact ⟨bare, tempo, on, by rw [same]⟩

theorem makeFeature_progression (category : row.categoryName = "Guitar")
    (named : row.featureType = "Chord Progression")
    (offered : guitar.type? "Chord Progression" = some type) :
    makeFeature type row index duration = .ok feature ↔
      ∃ key chords tempo, IsFeatureOf row (.progression key chords tempo) ∧
        feature = .progression key chords tempo := by
  cases Option.some.inj offered
  refine makeFeature_typeOf.trans ?_
  rw [makeProgression_eq_ok_iff, metronomeOf_of_get? rfl]
  constructor
  · rintro ⟨-, key, chords, given, known, same, present, rfl⟩
    refine ⟨key, chords, _, ⟨category, named, ?_⟩, rfl⟩
    cases whole : row.arguments with
    | nil =>
        rw [whole] at given
        cases given
        exact absurd known (by decide)
    | cons first later =>
        rw [whole] at given same
        cases given
        exact ⟨later, rfl, known, same.symm.trans (filterMap_chord? later), present, rfl⟩
  · rintro ⟨key, chords, tempo, ⟨-, -, later, whole, known, same, present, rfl⟩, rfl⟩
    refine ⟨.inl rfl, key, chords, ?_, known, ?_, present, rfl⟩
    · rw [whole]
      rfl
    · rw [whole, same]
      exact filterMap_chord? later

theorem makeFeature_scale (category : row.categoryName = "Guitar")
    (named : row.featureType = "Scale") (offered : guitar.type? "Scale" = some type) :
    makeFeature type row index duration = .ok feature ↔
      ∃ root mode positions, IsFeatureOf row (.scale root mode positions) ∧
        feature = .scale root mode positions := by
  cases Option.some.inj offered
  refine makeFeature_typeOf.trans ?_
  rw [makeScale_eq_ok_iff]
  have selection {picks selected : List String} :
      (ArgSpec.toggles "positions" allPositions).selectionOf picks = selected ↔
        IsSelection allPositions picks selected :=
    selectionOf_eq_iff (by decide) (by decide)
  constructor
  · rintro ⟨-, root, mode, selected, givenRoot, knownRoot, givenMode, knownMode, picked, rfl⟩
    refine ⟨root, mode, _, ⟨category, named, ?_⟩, rfl⟩
    rcases whole : row.arguments with - | ⟨first, - | ⟨second, picks⟩⟩
    · rw [whole] at givenRoot
      cases givenRoot
      exact absurd knownRoot (by decide)
    · rw [whole] at givenMode
      cases givenMode
      exact absurd knownMode (show "" ∉ modes by decide)
    · rw [whole] at givenRoot givenMode picked
      cases givenRoot
      cases givenMode
      exact ⟨picks, selected, rfl, knownRoot, knownMode, selection.mp picked, rfl⟩
  · rintro ⟨root, mode, positions,
      ⟨-, -, picks, selected, whole, knownRoot, knownMode, picked, rfl⟩, rfl⟩
    rw [whole]
    exact ⟨.inl rfl, root, mode, selected, rfl, knownRoot, rfl, knownMode, selection.mpr picked,
      rfl⟩

theorem makeFeature_triads (category : row.categoryName = "Guitar")
    (named : row.featureType = "Triads") (offered : guitar.type? "Triads" = some type) :
    makeFeature type row index duration = .ok feature ↔
      ∃ key inversions qualities, IsFeatureOf row (.triads key inversions qualities) ∧
        feature = .triads key inversions qualities := by
  cases Option.some.inj offered
  refine makeFeature_typeOf.trans ?_
  rw [makeTriads_eq_ok_iff]
  have selection {picks selected : List String} :
      (ArgSpec.toggles "qualities" allQualities).selectionOf picks = selected ↔
        IsSelection allQualities picks selected :=
    selectionOf_eq_iff (by decide) (by decide)
  constructor
  · rintro ⟨-, key, qualities, given, known, picked, present, rfl⟩
    refine ⟨key, _, qualities, ⟨category, named, ?_⟩, rfl⟩
    rcases whole : row.arguments with - | ⟨first, - | ⟨turned, picks⟩⟩
    · rw [whole] at given
      cases given
      exact absurd known (by decide)
    · rw [whole] at picked
      exact absurd picked.symm present
    · rw [whole] at given picked
      cases given
      exact ⟨turned, picks, rfl, known, truthOf_eq_iff.mp rfl, selection.mp picked, present⟩
  · rintro ⟨key, inversions, qualities, ⟨-, -, turned, picks, whole, known, told, picked, present⟩,
      rfl⟩
    rw [whole]
    refine ⟨.inl rfl, key, qualities, rfl, known, selection.mpr picked, present, ?_⟩
    rw [← truthOf_eq_iff.mpr told]
    rfl

theorem makeFeature_fretboard (category : row.categoryName = "Guitar")
    (named : row.featureType = "Fretboard Notes")
    (offered : guitar.type? "Fretboard Notes" = some type) :
    makeFeature type row index duration = .ok feature ↔
      ∃ notes naturalsOnly, IsFeatureOf row (.fretboard notes naturalsOnly) ∧
        feature = .fretboard notes naturalsOnly := by
  cases Option.some.inj offered
  refine makeFeature_typeOf.trans ?_
  rw [length_le_of_fits 2 rfl rfl]
  constructor
  · rintro ⟨fits, made⟩
    rcases Except.map_eq_ok_iff.mp made with ⟨notes, asked, rfl⟩
    exact ⟨notes, _, ⟨category, named, fits, notesOf_numberOf_eq_ok_iff.mp asked,
      truthOf_eq_iff.mp rfl⟩, rfl⟩
  · rintro ⟨notes, naturalsOnly, ⟨-, -, fits, asked, told⟩, rfl⟩
    refine ⟨fits, Except.map_eq_ok_iff.mpr ⟨notes, notesOf_numberOf_eq_ok_iff.mpr asked, ?_⟩⟩
    rw [← truthOf_eq_iff.mpr told]
    rfl

theorem makeFeature_rest (category : row.categoryName = "General")
    (named : row.featureType = "Rest") (offered : general.type? "Rest" = some type) :
    makeFeature type row index duration = .ok feature ↔
      IsFeatureOf row .rest ∧ feature = .rest := by
  cases Option.some.inj offered
  refine makeFeature_typeOf.trans ?_
  rw [length_le_of_fits 0 rfl rfl, Nat.le_zero, List.length_eq_zero_iff]
  constructor
  · rintro ⟨bare, made⟩
    exact ⟨⟨category, named, bare⟩, (Except.ok.inj made).symm⟩
  · rintro ⟨⟨-, -, bare⟩, rfl⟩
    exact ⟨bare, rfl⟩

theorem makeFeature_reading (category : row.categoryName = "General")
    (named : row.featureType = "Reading") (offered : general.type? "Reading" = some type) :
    makeFeature type row index duration = .ok feature ↔
      ∃ material, IsFeatureOf row (.reading material) ∧ feature = .reading material := by
  cases Option.some.inj offered
  refine makeFeature_typeOf.trans ?_
  rw [length_le_of_fits 1 rfl rfl]
  have made : makeReading (.ofTexts [.text "material"] row.arguments (some row.settings))
      ⟨index, duration, row.settings⟩ =
        if (Text.trimmed (row.arguments.headD "")).isEmpty then .error .noMaterial
        else .ok (.reading (Text.trimmed (row.arguments.headD ""))) := rfl
  rw [made]
  constructor
  · rintro ⟨fits, success⟩
    split at success
    · cases success
    · next present =>
        refine ⟨_, ⟨category, named, ?_⟩, (Except.ok.inj success).symm⟩
        rcases whole : row.arguments with - | ⟨text, - | ⟨second, others⟩⟩
        · rw [whole] at present
          exact absurd rfl present
        · rw [whole] at present
          refine ⟨text, rfl, rfl, ?_⟩
          simpa using present
        · rw [whole] at fits
          simp at fits
  · rintro ⟨material, ⟨-, -, text, whole, rfl, present⟩, rfl⟩
    rw [whole]
    exact ⟨Nat.le_refl 1, if_neg (by simpa using present)⟩

end Types

/-! ## Every row -/

theorem mem_names_of_type? {category : Category CatalogSettings CatalogFeature} {name : String}
    {type : FeatureType CatalogSettings CatalogFeature}
    (offered : category.type? name = some type) : name ∈ category.types.map FeatureType.name := by
  rw [Category.type?, Named.find?] at offered
  exact List.mem_map.mpr ⟨type, List.mem_of_find?_eq_some offered,
    Named.nameOf_of_find? offered⟩

theorem guitar_names {name : String} {type : FeatureType CatalogSettings CatalogFeature}
    (offered : guitar.type? name = some type) :
    name = "Metronome" ∨ name = "Chord Progression" ∨ name = "Scale" ∨ name = "Triads" ∨
      name = "Fretboard Notes" := by
  simpa [guitar, guitarTypes, typeOf] using mem_names_of_type? offered

theorem general_names {name : String} {type : FeatureType CatalogSettings CatalogFeature}
    (offered : general.type? name = some type) : name = "Rest" ∨ name = "Reading" := by
  simpa [general, generalTypes, typeOf] using mem_names_of_type? offered

/-- Whatever the catalog makes of a row is the feature of the row. -/
theorem isFeatureOf_of_hasFeature {row : IntervalRow CatalogSettings} {index : Nat}
    {duration : Duration} {feature : CatalogFeature}
    (has : HasFeature registry index row duration (some feature)) : IsFeatureOf row feature := by
  cases has with
  | made _ registered offered fitting success =>
      have made := makeFeature_eq_ok_iff.mpr ⟨fitting, success⟩
      rcases category?_cases registered with ⟨category, rfl⟩ | ⟨category, rfl⟩
      · rcases guitar_names offered with named | named | named | named | named
        · rw [named] at offered
          rcases (makeFeature_metronome category named offered).mp made with ⟨_, _, is, rfl⟩
          exact is
        · rw [named] at offered
          rcases (makeFeature_progression category named offered).mp made with ⟨_, _, _, is, rfl⟩
          exact is
        · rw [named] at offered
          rcases (makeFeature_scale category named offered).mp made with ⟨_, _, _, is, rfl⟩
          exact is
        · rw [named] at offered
          rcases (makeFeature_triads category named offered).mp made with ⟨_, _, _, is, rfl⟩
          exact is
        · rw [named] at offered
          rcases (makeFeature_fretboard category named offered).mp made with ⟨_, _, is, rfl⟩
          exact is
      · rcases general_names offered with named | named
        · rw [named] at offered
          rcases (makeFeature_rest category named offered).mp made with ⟨is, rfl⟩
          exact is
        · rw [named] at offered
          rcases (makeFeature_reading category named offered).mp made with ⟨_, is, rfl⟩
          exact is

/-- A feature is made when a type is found that makes it. -/
theorem hasFeature_of_makeFeature {category : Category CatalogSettings CatalogFeature}
    {name : String} {type : FeatureType CatalogSettings CatalogFeature}
    {row : IntervalRow CatalogSettings} {index : Nat} {duration : Duration}
    {feature : CatalogFeature} (named : row.featureType = name) (shown : name.isEmpty = false)
    (registered : registry.category? row.categoryName = some category)
    (offered : category.type? name = some type)
    (made : makeFeature type row index duration = .ok feature) :
    HasFeature registry index row duration (some feature) := by
  have both := makeFeature_eq_ok_iff.mp made
  subst named
  exact .made (by rw [IntervalRow.hasFeature, shown]; rfl) registered offered both.1 both.2

/-- The catalog makes the feature of a row. -/
theorem hasFeature_of_isFeatureOf {row : IntervalRow CatalogSettings} {feature : CatalogFeature}
    (is : IsFeatureOf row feature) (index : Nat) (duration : Duration) :
    HasFeature registry index row duration (some feature) := by
  have registered {category : Category CatalogSettings CatalogFeature} {name : String}
      (same : row.categoryName = name) (found : registry.category? name = some category) :
      registry.category? row.categoryName = some category := same ▸ found
  cases feature with
  | metronome tempo beats =>
      refine hasFeature_of_makeFeature is.2.1 rfl (registered is.1 rfl) rfl ?_
      exact (makeFeature_metronome is.1 is.2.1 rfl).mpr ⟨tempo, beats, is, rfl⟩
  | progression key chords tempo =>
      refine hasFeature_of_makeFeature is.2.1 rfl (registered is.1 rfl) rfl ?_
      exact (makeFeature_progression is.1 is.2.1 rfl).mpr ⟨key, chords, tempo, is, rfl⟩
  | scale root mode positions =>
      refine hasFeature_of_makeFeature is.2.1 rfl (registered is.1 rfl) rfl ?_
      exact (makeFeature_scale is.1 is.2.1 rfl).mpr ⟨root, mode, positions, is, rfl⟩
  | triads key inversions qualities =>
      refine hasFeature_of_makeFeature is.2.1 rfl (registered is.1 rfl) rfl ?_
      exact (makeFeature_triads is.1 is.2.1 rfl).mpr ⟨key, inversions, qualities, is, rfl⟩
  | fretboard notes naturalsOnly =>
      refine hasFeature_of_makeFeature is.2.1 rfl (registered is.1 rfl) rfl ?_
      exact (makeFeature_fretboard is.1 is.2.1 rfl).mpr ⟨notes, naturalsOnly, is, rfl⟩
  | rest =>
      refine hasFeature_of_makeFeature is.2.1 rfl (registered is.1 rfl) rfl ?_
      exact (makeFeature_rest is.1 is.2.1 rfl).mpr ⟨is, rfl⟩
  | reading material =>
      refine hasFeature_of_makeFeature is.2.1 rfl (registered is.1 rfl) rfl ?_
      exact (makeFeature_reading is.1 is.2.1 rfl).mpr ⟨material, is, rfl⟩

/-- The numbers of a metronome feature are in range. -/
theorem inRange_of_isFeatureOf {row : IntervalRow CatalogSettings}
    (obtainable : row.settings.IsObtainable) {tempo : UInt32} {beats : UInt8}
    (is : IsFeatureOf row (.metronome tempo beats)) :
    10 ≤ tempo ∧ tempo ≤ 400 ∧ 1 ≤ beats ∧ beats ≤ 16 := by
  rcases is with ⟨-, -, -, on, same⟩
  have inRange := CatalogSettings.inRange_of_isObtainable obtainable
  cases given : row.settings with
  | plain category =>
      rw [given] at on
      cases on
  | guitar metronome =>
      rw [given] at on same inRange
      rcases Metronome.check_eq_ok_iff.mp inRange with ⟨-, tempos, bars⟩
      have bounds := tempos tempo on
      rw [show metronome.beatsPerBar = beats from same] at bars
      exact ⟨bounds.1, bounds.2, bars.1, bars.2⟩

/-- The catalog makes exactly the features that the rows describe.  A row without
a type has none, and any other row without a description of a feature fails. -/
theorem featureOf_eq_ok_iff_isFeatureOf (row : IntervalRow CatalogSettings)
    (obtainable : row.settings.IsObtainable) (index : Nat) (duration : Duration) :
    (∀ feature?, featureOf registry row index duration = .ok feature? ↔
      row.featureType = "" ∧ feature? = none ∨
        ∃ feature, feature? = some feature ∧ IsFeatureOf row feature) ∧
    ∀ tempo beats, featureOf registry row index duration = .ok (some (.metronome tempo beats)) →
      10 ≤ tempo ∧ tempo ≤ 400 ∧ 1 ≤ beats ∧ beats ≤ 16 := by
  constructor
  · intro feature?
    rw [Timeline.featureOf_eq_ok_iff]
    constructor
    · intro has
      cases feature? with
      | none =>
          cases has with
          | nothing unnamed =>
              rw [IntervalRow.hasFeature, Bool.not_eq_false', String.isEmpty_iff] at unnamed
              exact .inl ⟨unnamed, rfl⟩
      | some feature => exact .inr ⟨feature, rfl, isFeatureOf_of_hasFeature has⟩
    · rintro (⟨unnamed, rfl⟩ | ⟨feature, rfl, is⟩)
      · exact .nothing (by rw [IntervalRow.hasFeature, unnamed]; rfl)
      · exact hasFeature_of_isFeatureOf is index duration
  · intro tempo beats success
    have has := Timeline.featureOf_eq_ok_iff.mp success
    exact inRange_of_isFeatureOf obtainable (isFeatureOf_of_hasFeature has)

/-- A row for a waltz at a slow tempo. -/
def waltzRow : IntervalRow CatalogSettings :=
  ⟨"5:00", "Waltz", "Guitar", "Metronome", [], .guitar ⟨some 90, 3, true⟩⟩

/-- The settings of the waltz come from a tempo literal and a changed block. -/
theorem featureOf_waltzRow : waltzRow.settings.IsObtainable ∧
    featureOf registry waltzRow 0 .zero = .ok (some (.metronome 90 3)) := by
  have registered : guitar ∈ registry.categories := List.mem_cons_self
  have slow : guitar.settingsOfLiteral? "BPM:90" = some (.ok (.guitar (.atTempo 90))) := rfl
  have bars : IntervalSettings.setBlock (CatalogSettings.guitar (.atTempo 90)) "metronome"
      (.object [("bpm", .integer 90), ("beatsPerBar", .integer 3)]) = .ok waltzRow.settings := rfl
  have obtainable : waltzRow.settings.IsObtainable := .changed (.literal registered slow) bars
  refine ⟨obtainable, ?_⟩
  exact ((featureOf_eq_ok_iff_isFeatureOf waltzRow obtainable 0 .zero).1 _).mpr
    (.inr ⟨_, rfl, rfl, rfl, rfl, rfl, rfl⟩)

end Catalog
end PracticePlan
