import PracticePlan.Settings.Basic

namespace PracticePlan

/-!
# The metronome

A metronome clicks at a tempo, in bars of some beats, with or without an accent
on the first.  Without a tempo it is off.  Its JSON form is a record in which
every field may be missing, and a missing field has its default.  The tempo is
written only when there is one.

Reading a metronome does not bound its numbers.  `check` does, and settings
are only ever changed to a metronome that passed it.
-/

/-- How a metronome is set. -/
structure Metronome where
  tempo : Option UInt32
  beatsPerBar : UInt8
  accentsFirst : Bool
deriving DecidableEq, Repr

namespace Metronome

/-- Off, four beats to the bar, the first accented. -/
def standard : Metronome :=
  ⟨none, 4, true⟩

def atTempo (tempo : UInt32) : Metronome :=
  { standard with tempo := some tempo }

def TempoInRange (tempo : UInt32) : Prop :=
  10 ≤ tempo ∧ tempo ≤ 400

instance (tempo : UInt32) : Decidable (TempoInRange tempo) :=
  inferInstanceAs (Decidable (_ ∧ _))

/-- Whether a bar can have this many beats. -/
def BeatsInRange (beats : UInt8) : Prop :=
  1 ≤ beats ∧ beats ≤ 16

instance (beats : UInt8) : Decidable (BeatsInRange beats) :=
  inferInstanceAs (Decidable (_ ∧ _))

/-- The metronome itself, when its numbers are in range. -/
def check (metronome : Metronome) : Except SettingsError Metronome :=
  if !metronome.tempo.all fun tempo => decide (TempoInRange tempo) then .error .tempoOutOfRange
  else if BeatsInRange metronome.beatsPerBar then .ok metronome
  else .error .beatsOutOfRange

/-- Read one field.  Unknown fields are ignored. -/
def withField (metronome : Metronome) (key : String) (value : Json) : Json.Shaped Metronome :=
  match key with
  | "bpm" => (value.asOptional Json.asUInt32).map fun tempo => { metronome with tempo }
  | "beatsPerBar" => value.asUInt8.map fun beatsPerBar => { metronome with beatsPerBar }
  | "accentFirstBeat" => value.asBoolean.map fun accentsFirst => { metronome with accentsFirst }
  | _ => .ok metronome

def ofJson (value : Json) : Json.Shaped Metronome :=
  value.asRecord "struct MetronomeSettings" ["bpm", "beatsPerBar", "accentFirstBeat"] standard
    withField

/-- Read a metronome whose numbers are in range. -/
def ofJsonChecked (value : Json) : Except SettingsError Metronome :=
  ((ofJson value).mapError .shape).bind check

def toJson (metronome : Metronome) : Json :=
  .object ([("accentFirstBeat", .boolean metronome.accentsFirst),
      ("beatsPerBar", .integer metronome.beatsPerBar.toNat)] ++
    match metronome.tempo with
    | some tempo => [("bpm", .integer tempo.toNat)]
    | none => [])

end Metronome
end PracticePlan
