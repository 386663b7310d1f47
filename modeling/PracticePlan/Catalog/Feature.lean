import PracticePlan.Catalog.Settings
import PracticePlan.Registry.Basic

namespace PracticePlan

/-!
# Features of the catalog

Seven features can be practised.  Each is made from decoded arguments, and the
two that use the metronome also look at the settings of the row.  What a
feature holds has been checked: keys and modes come from their tables, a
progression has chords, a triad drill has qualities, and a fretboard drill has
between 1 and 120 notes.

A feature that cannot be made reports a cause.  Causes become texts only where
a registry asks for an explanation.
-/

/-- A configured exercise. -/
inductive CatalogFeature where
  | metronome (tempo : UInt32) (beatsPerBar : UInt8)
  | progression (key : String) (chords : List String) (tempo : Option UInt32)
  | scale (root : String) (mode : String) (positions : List String)
  | triads (key : String) (inversions : Bool) (qualities : List String)
  | fretboard (notesPerRound : Nat) (naturalsOnly : Bool)
  | rest
  | reading (material : String)
deriving DecidableEq, Repr

/-- Why a feature cannot be made. -/
inductive FeatureError where
  | required (name : String)
  | notAllowed (value : String) (name : String)
  | noTempo
  | noChord
  | noQuality
  | noteCount (number : Binary64)
  | noMaterial
deriving DecidableEq

namespace FeatureError

def message : FeatureError → String
  | required name => name ++ " is required"
  | notAllowed value name => Text.quoted value ++ " is not a valid " ++ name
  | noTempo => "metronome interval needs a tempo (add @BPM:<n>)"
  | noChord => "chord progression needs at least one chord"
  | noQuality => "select at least one triad quality"
  | noteCount number =>
      "notes per round must be a whole number between 1 and 120, got " ++ number.toText
  | noMaterial => "reading interval needs material to read"

end FeatureError

namespace CatalogFeature

/-- The twelve keys. -/
def keys : List String :=
  ["C", "C#", "D", "Eb", "E", "F", "F#", "G", "Ab", "A", "Bb", "B"]

/-- The seven modes. -/
def modes : List String :=
  ["Ionian", "Dorian", "Phrygian", "Lydian", "Mixolydian", "Aeolian", "Locrian"]

/-- The positions on the fretboard. -/
def allPositions : List String :=
  ["1", "2", "3", "4", "5"]

/-- The kinds of triads. -/
def allQualities : List String :=
  ["Major", "Minor", "Diminished", "Augmented"]

def typeName : CatalogFeature → String
  | metronome _ _ => "Metronome"
  | progression _ _ _ => "Chord Progression"
  | scale _ _ _ => "Scale"
  | triads _ _ _ => "Triads"
  | fretboard _ _ => "Fretboard Notes"
  | rest => "Rest"
  | reading _ => "Reading"

def numeral (value : Nat) : String :=
  String.ofList (Text.digitsOf value)

/-- A tempo at the end of a summary, if there is one. -/
def tempoSuffix : Option UInt32 → String
  | some tempo => " at " ++ numeral tempo.toNat ++ " bpm"
  | none => ""

def summary : CatalogFeature → String
  | metronome tempo beats =>
      "metronome at " ++ numeral tempo.toNat ++ " bpm, " ++ numeral beats.toNat ++ "/4"
  | progression key chords tempo =>
      Text.joined " " chords ++ " in " ++ key ++ tempoSuffix tempo
  | scale root mode positions =>
      root ++ " " ++ mode ++ " in positions " ++ Text.joined ", " positions
  | triads key inversions qualities =>
      Text.joined "/" qualities ++ " triads in " ++ key ++
        (if inversions then " with inversions" else "")
  | fretboard notes naturalsOnly =>
      numeral notes ++ (if naturalsOnly then " natural" else " chromatic") ++ " notes per round"
  | rest => "rest"
  | reading material => "read " ++ material

instance : Feature CatalogFeature where
  typeName := typeName
  summary := summary

/-- The metronome that a feature uses.  A block among the arguments wins over
the settings.  A block that is no metronome counts as the standard one. -/
def metronomeOf (arguments : Arguments) (settings : CatalogSettings) : Metronome :=
  match arguments.block? CatalogSettings.metronomeBlock <|>
      settings.block? CatalogSettings.metronomeBlock with
  | some content => match Metronome.ofJson content with
      | .ok read => read
      | .error _ => .standard
  | none => .standard

/-- The value of an argument that must be one of a table. -/
def chosen (arguments : Arguments) (name : String) (allowed : List String) :
    Except FeatureError String :=
  match arguments.text? name with
  | some value =>
      if value ∈ allowed then .ok value
      else if value.isEmpty then .error (.required name)
      else .error (.notAllowed value name)
  | none => .error (.required name)

/-- The chord that a list item names, unless it is blank. -/
def chord? : ArgValue → Option String
  | .text text => if (Text.trim text.toList).isEmpty then none else some (Text.trimmed text)
  | _ => none

def makeMetronome (arguments : Arguments) (context : Context CatalogSettings) :
    Except FeatureError CatalogFeature :=
  let set := metronomeOf arguments context.settings
  match set.tempo with
  | some tempo => .ok (metronome tempo set.beatsPerBar)
  | none => .error .noTempo

def makeProgression (arguments : Arguments) (context : Context CatalogSettings) :
    Except FeatureError CatalogFeature :=
  (chosen arguments "key" keys).bind fun key =>
    let chords := ((arguments.list? "chords").getD []).filterMap chord?
    if chords.isEmpty then .error .noChord
    else .ok (progression key chords (metronomeOf arguments context.settings).tempo)

/-- Play a scale.  Without a selection all positions are played. -/
def makeScale (arguments : Arguments) (_context : Context CatalogSettings) :
    Except FeatureError CatalogFeature :=
  (chosen arguments "root" keys).bind fun root =>
    (chosen arguments "mode" modes).bind fun mode =>
      let selected := (arguments.selection? "positions").getD []
      .ok (scale root mode (if selected.isEmpty then allPositions else selected))

def makeTriads (arguments : Arguments) (_context : Context CatalogSettings) :
    Except FeatureError CatalogFeature :=
  (chosen arguments "key" keys).bind fun key =>
    let qualities := (arguments.selection? "qualities").getD []
    if qualities.isEmpty then .error .noQuality
    else .ok (triads key ((arguments.boolean? "inversions").getD false) qualities)

/-- How many notes a number asks for.  Zero asks for a dozen. -/
def notesOf (number : Binary64) : Except FeatureError Nat :=
  match number.toInt? with
  | some value =>
      if value = 0 then .ok 12
      else if 1 ≤ value ∧ value ≤ 120 then .ok value.toNat
      else .error (.noteCount number)
  | none => .error (.noteCount number)

def makeFretboard (arguments : Arguments) (_context : Context CatalogSettings) :
    Except FeatureError CatalogFeature :=
  (notesOf ((arguments.number? "notesPerRound").getD .zero)).map fun notes =>
    fretboard notes ((arguments.boolean? "naturalsOnly").getD false)

def makeRest (_arguments : Arguments) (_context : Context CatalogSettings) :
    Except FeatureError CatalogFeature :=
  .ok rest

def makeReading (arguments : Arguments) (_context : Context CatalogSettings) :
    Except FeatureError CatalogFeature :=
  let material := Text.trimmed ((arguments.text? "material").getD "")
  if material.isEmpty then .error .noMaterial else .ok (reading material)

end CatalogFeature
end PracticePlan
