import PracticePlan.Json.Shape

namespace PracticePlan

/-!
# Settings of an interval

An interval carries settings that are no arguments of its feature.  What they
consist of is up to the category of the interval, so the library knows them
only through five operations.  A registry is built over one type of settings,
and everything that reads, writes or builds plans works for every such type.

Settings have a JSON form exactly when they differ from the default of their
category.  Two settings are the same when they belong to the same category and
have the same JSON form, so whatever does not show in the JSON form does not
count.

Settings are changed in place, one block at a time, and a change may be refused.
What a refused change leaves behind is up to the type of the settings.

A literal is a short text that stands for settings in the line notation.  The
class does not promise that a literal is read back to the same settings, since
that is a property of the reader of literals.
-/

/-- Why settings are refused. -/
inductive SettingsError where
  | shape (cause : Json.ShapeError)
  | noBlock (settings : String) (name : String)
  | tempoOutOfRange
  | beatsOutOfRange
  | nothingToSet (found : Json)
  | badTempo (text : String)

namespace SettingsError

/-- The wording of a cause, without the kind of error. -/
def cause : SettingsError → String
  | shape cause => cause.message
  | noBlock settings name => settings ++ " settings have no block named " ++ Text.quoted name
  | tempoOutOfRange => "metronome bpm must be between 10 and 400"
  | beatsOutOfRange => "metronome beats per bar must be between 1 and 16"
  | nothingToSet found => "general intervals take no settings, got " ++ found.compact
  | badTempo text => "invalid BPM value " ++ Text.quoted text

/-- Whether the JSON value was not of the expected shape, as opposed to having
the shape and an unacceptable content. -/
def isShape : SettingsError → Bool
  | shape _ => true
  | _ => false

def message (error : SettingsError) : String :=
  (if error.isShape then "serialization error: " else "validation failed: ") ++ error.cause

end SettingsError

/-- Changes of settings in place, which may be refused. -/
abbrev SettingsChange (σ : Type) : Type → Type :=
  ExceptT SettingsError (StateM σ)

namespace SettingsChange

variable {σ : Type}

/-- Whether a change is refused, and the settings it leaves. -/
def on (change : SettingsChange σ Unit) (settings : σ) : Except SettingsError Unit × σ :=
  change.run.run settings

end SettingsChange

/-- A type of interval settings. -/
class IntervalSettings (σ : Type) where
  /-- The name of the category to which the settings belong. -/
  category : σ → String
  /-- The JSON form, unless the settings are the default. -/
  json? : σ → Option Json
  /-- The content of the block with a name. -/
  block? : σ → String → Option Json
  /-- Replace the content of the block with a name. -/
  replaceBlock : String → Json → SettingsChange σ Unit
  /-- The literal of the settings, without the mark in front. -/
  literal? : σ → Option String

namespace IntervalSettings

variable {σ : Type} [IntervalSettings σ]

/-- Whether the settings are the default of their category. -/
def isDefault (settings : σ) : Bool :=
  (json? settings).isNone

/-- The settings with the content of a block replaced. -/
def setBlock (settings : σ) (name : String) (content : Json) : Except SettingsError σ :=
  let done := (replaceBlock name content).on settings
  done.1.map fun _ => done.2

/-- Whether two settings belong to the same category and have the same JSON
form. -/
def same (first second : σ) : Bool :=
  category first == category second && Json.sameOption (json? first) (json? second)

end IntervalSettings
end PracticePlan
