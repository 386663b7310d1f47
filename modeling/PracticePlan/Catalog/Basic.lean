import PracticePlan.Catalog.Feature

namespace PracticePlan
namespace Catalog

/-!
# The catalog

The catalog is the registry that a plan is read with unless another one is
given.  It has two categories, in this order: guitar exercises, which have a
metronome in their settings, and general intervals, which have none.
-/

/-- A way to make features of the catalog. -/
abbrev Maker : Type :=
  Arguments → Context CatalogSettings → Except FeatureError CatalogFeature

def typeOf (category name displayName : String) (schema : Schema) (maker : Maker) :
    FeatureType CatalogSettings CatalogFeature :=
  ⟨category, name, displayName, schema,
    fun arguments context => (maker arguments context).mapError FeatureError.message⟩

def metronomeSchema : Schema :=
  [.number "bpm", .number "beatsPerBar", .boolean "accentFirstBeat"]

def metronomeSpec : ArgSpec :=
  .block CatalogSettings.metronomeBlock metronomeSchema

def guitarTypes : List (FeatureType CatalogSettings CatalogFeature) :=
  let guitarType := typeOf CatalogSettings.guitarCategory
  [guitarType "Metronome" "Metronome" [metronomeSpec] CatalogFeature.makeMetronome,
   guitarType "Chord Progression" "Chord progression"
     [.choice "key" CatalogFeature.keys, metronomeSpec, (ArgSpec.text "chords").variadic]
     CatalogFeature.makeProgression,
   guitarType "Scale" "Scale"
     [.choice "root" CatalogFeature.keys, .choice "mode" CatalogFeature.modes,
      .toggles "positions" CatalogFeature.allPositions]
     CatalogFeature.makeScale,
   guitarType "Triads" "Triads"
     [.choice "key" CatalogFeature.keys, .boolean "inversions",
      .toggles "qualities" CatalogFeature.allQualities]
     CatalogFeature.makeTriads,
   guitarType "Fretboard Notes" "Fretboard notes"
     [.number "notesPerRound", .boolean "naturalsOnly"]
     CatalogFeature.makeFretboard]

/-- Guitar exercises, with a metronome in their settings. -/
def guitar : Category CatalogSettings CatalogFeature where
  name := CatalogSettings.guitarCategory
  displayName := "Guitar"
  types := guitarTypes
  defaultSettings := CatalogSettings.guitarDefault
  settingsOfJson := CatalogSettings.guitarOfJson
  settingsOfLiteral? := CatalogSettings.ofLiteral?

def generalTypes : List (FeatureType CatalogSettings CatalogFeature) :=
  let generalType := typeOf CatalogSettings.generalCategory
  [generalType "Rest" "Rest" [] CatalogFeature.makeRest,
   generalType "Reading" "Reading" [.text "material"] CatalogFeature.makeReading]

def general : Category CatalogSettings CatalogFeature where
  name := CatalogSettings.generalCategory
  displayName := "General"
  types := generalTypes
  defaultSettings := CatalogSettings.generalDefault
  settingsOfJson := CatalogSettings.generalOfJson
  settingsOfLiteral? := fun _ => none

def registry : Registry CatalogSettings CatalogFeature :=
  ⟨[guitar, general]⟩

/-- Every category of the catalog passes its check. -/
theorem ofCategories_catalog : Registry.ofCategories [guitar, general] = .ok registry := by
  rfl

end Catalog
end PracticePlan
