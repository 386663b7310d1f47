import PracticePlan.Proofs.Catalog.Items
import PracticePlan.Proofs.Settings.Change

namespace PracticePlan

/-!
# Guitar settings that change

Guitar settings are made from the default, a tempo, a JSON form or a literal, and
then their metronome is replaced any number of times, alone or with all blocks
among arguments.  Nothing is replaced before the new metronome has passed its
check (`CatalogSettings.on_replaceBlock_guitar`).  So the numbers stay in range
after every request, and a request that is refused changes nothing beyond the
blocks in front of the refused one (`CatalogSettings.inRange_after`).
-/

namespace Metronome

theorem isInRange_of_ofJsonChecked {content : Json} {metronome : Metronome}
    (read : ofJsonChecked content = .ok metronome) : metronome.IsInRange := by
  rcases Except.bind_eq_ok_iff.mp read with ⟨unchecked, -, checked⟩
  rcases check_eq_ok_iff.mp checked with ⟨rfl, tempo, beats⟩
  exact ⟨tempo, beats⟩

end Metronome

namespace CatalogSettings

/-! ## One block -/

/-- The metronome that a block of guitar settings stands for. -/
def replacement (name : String) (content : Json) : Except SettingsError Metronome :=
  if name = metronomeBlock then Metronome.ofJsonChecked content
  else .error (.noBlock "guitar" name)

/-- The metronome is replaced by the one that was read, or kept as it is. -/
theorem on_replaceBlock_guitar (held : Metronome) (name : String) (content : Json) :
    (replaceBlock name content).on (guitar held) = match replacement name content with
      | .ok metronome => (.ok (), guitar metronome)
      | .error cause => (.error cause, guitar held) := by
  unfold replacement replaceBlock
  by_cases known : name = metronomeBlock
  · simp only [if_pos known]
    cases read : Metronome.ofJsonChecked content with
    | error cause => rfl
    | ok metronome => rfl
  · simp only [if_neg known]
    rfl

theorem on_replaceBlock_plain (category name : String) (content : Json) :
    (replaceBlock name content).on (plain category) =
      (.error (.noBlock category name), plain category) :=
  rfl

theorem isInRange_of_replacement {name : String} {content : Json} {metronome : Metronome}
    (read : replacement name content = .ok metronome) : metronome.IsInRange := by
  unfold replacement at read
  split at read
  · exact Metronome.isInRange_of_ofJsonChecked read
  · cases read

/-- A replacement leaves a metronome in range, or it is refused and leaves the
settings as they were. -/
theorem on_replaceBlock_cases (settings : CatalogSettings) (name : String) (content : Json) :
    (∃ metronome : Metronome, metronome.IsInRange ∧
      (replaceBlock name content).on settings = (.ok (), guitar metronome)) ∨
    ∃ cause, (replaceBlock name content).on settings = (.error cause, settings) := by
  cases settings with
  | plain category => exact .inr ⟨_, on_replaceBlock_plain category name content⟩
  | guitar held =>
      rw [on_replaceBlock_guitar]
      cases read : replacement name content with
      | error cause => exact .inr ⟨cause, rfl⟩
      | ok metronome => exact .inl ⟨metronome, isInRange_of_replacement read, rfl⟩

theorem eq_of_refused {settings changed : CatalogSettings} {name : String} {content : Json}
    {cause : SettingsError}
    (refused : (replaceBlock name content).on settings = (.error cause, changed)) :
    changed = settings := by
  rcases on_replaceBlock_cases settings name content with ⟨metronome, -, replaced⟩ | ⟨other, kept⟩
  · cases replaced.symm.trans refused
  · exact (Prod.mk.inj (kept.symm.trans refused)).2.symm

theorem exists_metronome_of_setBlock {settings changed : CatalogSettings} {name : String}
    {content : Json} (set : IntervalSettings.setBlock settings name content = .ok changed) :
    ∃ metronome : Metronome, metronome.IsInRange ∧ changed = guitar metronome := by
  change ((replaceBlock name content).on settings).1.map
    (fun _ => ((replaceBlock name content).on settings).2) = .ok changed at set
  rcases on_replaceBlock_cases settings name content with
    ⟨metronome, inRange, replaced⟩ | ⟨cause, kept⟩
  · rw [replaced] at set
    exact ⟨metronome, inRange, (Except.ok.inj set).symm⟩
  · rw [kept] at set
    cases set

/-! ## Any requests -/

/-- Whether settings are those of a guitar, with a metronome in range. -/
def IsGuitarInRange (settings : CatalogSettings) : Prop :=
  ∃ metronome : Metronome, settings = guitar metronome ∧ metronome.IsInRange

theorem keeps_replaceBlock (name : String) (content : Json) :
    SettingsChange.Keeps IsGuitarInRange (replaceBlock name content) := by
  intro settings holds
  rcases on_replaceBlock_cases settings name content with
    ⟨metronome, inRange, replaced⟩ | ⟨cause, kept⟩
  · rw [replaced]
    exact ⟨metronome, rfl, inRange⟩
  · rw [kept]
    exact holds

/-- Guitar settings as they are made. -/
inductive IsMade : CatalogSettings → Prop
  | default : IsMade Catalog.guitar.defaultSettings
  | tempo {tempo : UInt32} {settings : CatalogSettings} (made : ofTempo tempo = .ok settings) :
      IsMade settings
  | form {form : Json} {settings : CatalogSettings}
      (read : Catalog.guitar.settingsOfJson form = .ok settings) : IsMade settings
  | literal {text : String} {settings : CatalogSettings}
      (read : Catalog.guitar.settingsOfLiteral? text = some (.ok settings)) : IsMade settings

theorem isGuitarInRange_of_isMade {settings : CatalogSettings} (made : IsMade settings) :
    IsGuitarInRange settings := by
  cases made with
  | default => exact ⟨.standard, rfl, Metronome.isInRange_standard⟩
  | tempo made =>
      rcases ofTempo_eq_ok made with ⟨inRange, rfl⟩
      exact ⟨_, rfl, Metronome.isInRange_atTempo inRange⟩
  | form read =>
      rcases exists_metronome_of_guitarOfJson read with ⟨metronome, checked, rfl⟩
      exact ⟨metronome, rfl, Metronome.check_eq_ok_iff_isInRange.mp checked⟩
  | literal read =>
      rcases exists_tempo_of_ofLiteral? read with ⟨tempo, inRange, rfl⟩
      exact ⟨_, rfl, Metronome.isInRange_atTempo inRange⟩

/-- A request to change settings: one block, or the blocks of a schema among
arguments. -/
inductive Request where
  | block (name : String) (content : Json)
  | blocks (schema : Schema) (arguments : Arguments)

def Request.change : Request → SettingsChange CatalogSettings Unit
  | block name content => replaceBlock name content
  | blocks schema arguments => arguments.writeBlocks schema

/-- The settings after requests, each of which may be refused. -/
def after (settings : CatalogSettings) (requests : List Request) : CatalogSettings :=
  requests.foldl (fun held request => (request.change.on held).2) settings

theorem keeps_change (request : Request) :
    SettingsChange.Keeps IsGuitarInRange request.change := by
  cases request with
  | block name content => exact keeps_replaceBlock name content
  | blocks schema arguments => exact Arguments.keeps_writeBlocks keeps_replaceBlock arguments schema

theorem isGuitarInRange_after {settings : CatalogSettings} (inRange : IsGuitarInRange settings)
    (requests : List Request) : IsGuitarInRange (after settings requests) := by
  induction requests generalizing settings with
  | nil => exact inRange
  | cons request rest inductionHypothesis =>
      exact inductionHypothesis (keeps_change request settings inRange)

/-- After any requests guitar settings are in range.  A block that is refused
leaves them as they were.  Blocks among arguments are refused at one of them, and
leave what those in front of it have made.  As these are requests too, the
settings are in range in between as well. -/
theorem inRange_after {start : CatalogSettings} (made : IsMade start) (requests : List Request) :
    (∃ metronome, after start requests = guitar metronome ∧
      (∀ tempo ∈ metronome.tempo, 10 ≤ tempo ∧ tempo ≤ 400) ∧
      1 ≤ metronome.beatsPerBar ∧ metronome.beatsPerBar ≤ 16) ∧
    (∀ name content cause left,
      (replaceBlock name content).on (after start requests) = (.error cause, left) →
        left = after start requests) ∧
    ∀ (arguments : Arguments) schema cause left,
      (arguments.writeBlocks schema).on (after start requests) = (.error cause, left) →
        ∃ front spec back content, schema = front ++ spec :: back ∧ spec.isBlock = true ∧
          arguments.block? spec.name = some content ∧
          (arguments.writeBlocks front).on (after start requests) = (.ok (), left) ∧
          (replaceBlock spec.name content).on left = (.error cause, left) := by
  refine ⟨?_, fun name content cause left refused => eq_of_refused refused, ?_⟩
  · rcases isGuitarInRange_after (isGuitarInRange_of_isMade made) requests with
      ⟨metronome, same, inRange⟩
    exact ⟨metronome, same, inRange.tempo, inRange.beats⟩
  · intro arguments schema cause left refused
    rcases Arguments.exists_refused_of_writeBlocks refused with
      ⟨front, spec, back, held, content, split, block, given, written, stopped⟩
    have unchanged : left = held := eq_of_refused stopped
    exact ⟨front, spec, back, content, split, block, given, unchanged ▸ written,
      unchanged ▸ stopped⟩

/-- A tempo out of range, and a waltz. -/
def practice : List Request :=
  [.block "metronome" (.object [("bpm", .integer 500)]),
    .block "metronome" (.object [("beatsPerBar", .integer 3), ("bpm", .integer 90)])]

/-- A metronome and a block that guitars do not have. -/
def capoSchema : Schema :=
  [.block "metronome" [], .block "capo" []]

def capoArguments : Arguments :=
  ⟨[("metronome", .block (.object [("bpm", .integer 72)])), ("capo", .block (.integer 2))], []⟩

/-- The capo is refused, and the metronome in front of it stays. -/
theorem inRange_practice : IsMade guitarDefault ∧
    after guitarDefault practice = guitar ⟨some 90, 3, true⟩ ∧
    (capoArguments.writeBlocks capoSchema).on (after guitarDefault practice) =
      (.error (.noBlock "guitar" "capo"), guitar (.atTempo 72)) ∧
    ∃ front spec back content, capoSchema = front ++ spec :: back ∧ spec.isBlock = true ∧
      capoArguments.block? spec.name = some content ∧
      (capoArguments.writeBlocks front).on (after guitarDefault practice) =
        (.ok (), guitar (.atTempo 72)) ∧
      (replaceBlock spec.name content).on (guitar (.atTempo 72)) =
        (.error (.noBlock "guitar" "capo"), guitar (.atTempo 72)) := by
  have made : IsMade guitarDefault := .default
  have refused : (capoArguments.writeBlocks capoSchema).on (after guitarDefault practice) =
      (.error (.noBlock "guitar" "capo"), guitar (.atTempo 72)) := rfl
  exact ⟨made, rfl, refused, (inRange_after made practice).2.2 _ _ _ _ refused⟩

end CatalogSettings
end PracticePlan
