import PracticePlan.Settings.Metronome
import PracticePlan.Text.Blank
import PracticePlan.Text.Numeral

namespace PracticePlan

/-!
# Settings of the catalog

Guitar intervals have a metronome.  Intervals of every other category have
nothing to set, and only remember the name of their category.

The literal of guitar settings is their tempo, written `BPM:120`.  It says
nothing about the beats and the accent, so it stands for all of the settings
only when these have their standard values.
-/

/-- Settings of an interval of the catalog. -/
inductive CatalogSettings where
  | guitar (metronome : Metronome)
  | plain (category : String)
deriving DecidableEq, Repr

namespace CatalogSettings

/-- The category of intervals with a metronome. -/
def guitarCategory : String :=
  "Guitar"

/-- The category of intervals that need no instrument. -/
def generalCategory : String :=
  "General"

def metronomeBlock : String :=
  "metronome"

def category : CatalogSettings → String
  | guitar _ => guitarCategory
  | plain category => category

/-- The JSON form of settings that differ from the default. -/
def json? : CatalogSettings → Option Json
  | guitar metronome =>
      if metronome = .standard then none
      else some (.object [(metronomeBlock, metronome.toJson)])
  | plain _ => none

def block? : CatalogSettings → String → Option Json
  | guitar metronome, name => if name = metronomeBlock then some metronome.toJson else none
  | plain _, _ => none

/-- Replace the content of a block.  It is read and checked before anything is
replaced. -/
def replaceBlock (name : String) (content : Json) : SettingsChange CatalogSettings Unit := do
  match ← get with
  | guitar _ =>
      if name = metronomeBlock then
        let metronome ← Metronome.ofJsonChecked content
        set (guitar metronome)
      else throw (.noBlock "guitar" name)
  | plain category => throw (.noBlock category name)

/-- The literal of settings with a tempo. -/
def literal? : CatalogSettings → Option String
  | guitar metronome =>
      metronome.tempo.map fun tempo =>
        String.ofList (['B', 'P', 'M', ':'] ++ Text.digitsOf tempo.toNat)
  | plain _ => none

instance : IntervalSettings CatalogSettings where
  category := category
  json? := json?
  block? := block?
  replaceBlock := replaceBlock
  literal? := literal?

def guitarDefault : CatalogSettings :=
  guitar .standard

def generalDefault : CatalogSettings :=
  plain generalCategory

def ofTempo (tempo : UInt32) : Except SettingsError CatalogSettings :=
  (Metronome.atTempo tempo).check.map .guitar

def withField (metronome : Metronome) (key : String) (value : Json) : Json.Shaped Metronome :=
  if key = metronomeBlock then Metronome.ofJson value else .ok metronome

def guitarOfJson (value : Json) : Except SettingsError CatalogSettings :=
  (((value.asRecord "struct GuitarSettings" [metronomeBlock] .standard withField).mapError
    .shape).bind Metronome.check).map .guitar

/-- Read general settings, which can only be empty. -/
def generalOfJson : Json → Except SettingsError CatalogSettings
  | .null | .object [] => .ok generalDefault
  | found => .error (.nothingToSet found)

/-- Whether a text is the key of a tempo literal, in any case. -/
def isTempoKey (key : List Char) : Bool :=
  (Text.trim key).map Char.toLower = ['b', 'p', 'm']

/-- Read a tempo literal.  A text without a colon, or with another key, is not
one, and then there is no answer at all. -/
def ofLiteral? (literal : String) : Option (Except SettingsError CatalogSettings) :=
  (Text.cut? ':' literal.toList).bind fun parts =>
    if isTempoKey parts.1 then
      some (match Text.signedNumeralBelow? 0x100000000 (Text.trim parts.2) with
        | some tempo => ofTempo (UInt32.ofNat tempo)
        | none => .error (.badTempo (String.ofList parts.2)))
    else none

end CatalogSettings
end PracticePlan
