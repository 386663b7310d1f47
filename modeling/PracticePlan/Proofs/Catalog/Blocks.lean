import PracticePlan.Proofs.Arguments.Places
import PracticePlan.Proofs.Catalog.Changes

namespace PracticePlan

/-!
# Blocks of guitar settings

Arguments take the blocks of their schema from settings, and can be written back
into other settings.  The metronome is the only block that guitar settings have.
It has a JSON form that is read back whether or not there is a tempo, and every
other block is null, which counts as no block when arguments are written back.
So the metronome is carried over when the schema has a block for it, and nothing
else happens (`CatalogSettings.applyBlocks_ofTexts`).
-/

namespace Arguments

variable {σ : Type} [IntervalSettings σ]

/-- A block has the content that the settings have under its name. -/
theorem get?_ofTexts_of_isBlock {schema : Schema} (distinct : (schema.map ArgSpec.name).Nodup)
    (texts : List String) (settings : Option σ) {spec : ArgSpec} (member : spec ∈ schema)
    (block : spec.isBlock = true) :
    (ofTexts schema texts settings).get? spec.name =
      some (.block (blockContent settings spec.name)) := by
  rcases exists_division distinct texts with ⟨shareOf, -, values⟩
  apply get?_ofTexts_of_mem distinct
  rw [values]
  refine List.mem_map.mpr ⟨spec, member, ?_⟩
  rw [ArgSpec.valueTaking_of_block block]

end Arguments

namespace CatalogSettings

theorem ofJsonChecked_toJson {metronome : Metronome} (inRange : metronome.IsInRange) :
    Metronome.ofJsonChecked metronome.toJson = .ok metronome := by
  rw [Metronome.ofJsonChecked, Metronome.ofJson_toJson]
  exact Metronome.check_eq_ok_iff_isInRange.mpr inRange

/-- A metronome in range takes the place of any other. -/
theorem on_replaceBlock_toJson {metronome : Metronome} (inRange : metronome.IsInRange)
    (held : Metronome) :
    (replaceBlock metronomeBlock metronome.toJson).on (guitar held) =
      (.ok (), guitar metronome) := by
  rw [on_replaceBlock_guitar, replacement, if_pos rfl, ofJsonChecked_toJson inRange]

/-- Whether a schema has a block for the metronome. -/
def HasMetronome (schema : Schema) : Prop :=
  ∃ spec ∈ schema, spec.isBlock = true ∧ spec.name = metronomeBlock

instance (schema : Schema) : Decidable (HasMetronome schema) :=
  inferInstanceAs (Decidable (∃ spec ∈ schema, spec.isBlock = true ∧ spec.name = metronomeBlock))

theorem hasMetronome_cons (spec : ArgSpec) (schema : List ArgSpec) :
    HasMetronome (spec :: schema) ↔
      spec.isBlock = true ∧ spec.name = metronomeBlock ∨ HasMetronome schema :=
  List.exists_mem_cons_iff _ spec schema

theorem blockContent_guitar (metronome : Metronome) (name : String) :
    Arguments.blockContent (some (guitar metronome)) name =
      if name = metronomeBlock then metronome.toJson else .null := by
  change (if name = metronomeBlock then some metronome.toJson else none).getD .null = _
  split
  · rfl
  · rfl

/-- The block that arguments have under a name when they come from guitar settings. -/
theorem block?_ofTexts {schema : Schema} (distinct : (schema.map ArgSpec.name).Nodup)
    (texts : List String) (metronome : Metronome) {spec : ArgSpec} (member : spec ∈ schema)
    (block : spec.isBlock = true) :
    (Arguments.ofTexts schema texts (some (guitar metronome))).block? spec.name =
      if spec.name = metronomeBlock then some metronome.toJson else none := by
  rw [Arguments.block?, Arguments.get?_ofTexts_of_isBlock distinct texts _ member block,
    blockContent_guitar]
  by_cases named : spec.name = metronomeBlock
  · rw [if_pos named, if_pos named]
    rfl
  · rw [if_neg named, if_neg named]

/-- Writing back carries the metronome over, wherever its block stands. -/
theorem on_writeBlocks {arguments : Arguments} {source : Metronome} (inRange : source.IsInRange)
    {schema : Schema} (bound : ∀ spec ∈ schema, spec.isBlock = true →
      arguments.block? spec.name = if spec.name = metronomeBlock then some source.toJson else none)
    (target : Metronome) :
    (arguments.writeBlocks schema).on (guitar target) =
      (.ok (), guitar (if HasMetronome schema then source else target)) := by
  induction schema generalizing target with
  | nil => rfl
  | cons spec rest inductionHypothesis =>
      rw [List.forall_mem_cons] at bound
      have behind := inductionHypothesis bound.2
      rw [if_congr (hasMetronome_cons spec rest) rfl rfl]
      cases block : spec.isBlock with
      | false =>
          rw [Arguments.writeBlocks_cons_of_slot block, behind]
          simp
      | true =>
          have content := bound.1 block
          rw [Arguments.writeBlocks_cons_of_block block, SettingsChange.on_then]
          by_cases named : spec.name = metronomeBlock
          · rw [if_pos named] at content
            have written : (arguments.writeBlock spec).on (guitar target) =
                (.ok (), guitar source) := by
              rw [Arguments.writeBlock_of_some content, named]
              exact on_replaceBlock_toJson inRange target
            rw [written, if_pos (.inl ⟨rfl, named⟩)]
            dsimp only
            rw [behind, ite_self]
          · rw [if_neg named] at content
            rw [Arguments.writeBlock_of_none content, SettingsChange.on_pure]
            dsimp only
            rw [behind]
            simp [named]

/-- Blocks taken from guitar settings in range can be written back into any guitar
settings.  The target has the metronome of the source then when the schema has a
block for it, and is unchanged otherwise.  Written back into the source, the blocks
change nothing.  Each block of the source can also be read back alone. -/
theorem applyBlocks_ofTexts {owner : String} {schema : Schema}
    (checked : Schema.check owner schema = .ok ()) (texts : List String) {source : Metronome}
    (inRange : source.IsInRange) (target : Metronome) :
    (Arguments.ofTexts schema texts (some (guitar source))).applyBlocks schema (guitar target) =
        (guitar (if HasMetronome schema then source else target), .ok ()) ∧
      (Arguments.ofTexts schema texts (some (guitar source))).applyBlocks schema (guitar source) =
        (guitar source, .ok ()) ∧
      ∀ name content, IntervalSettings.block? (guitar source) name = some content →
        IntervalSettings.setBlock (guitar target) name content = .ok (guitar source) := by
  have written (held : Metronome) :=
    on_writeBlocks inRange (fun spec member block => block?_ofTexts
      (Schema.isUsable_of_check checked).distinct texts source member block) held
  refine ⟨?_, ?_, ?_⟩
  · rw [Arguments.applyBlocks, written]
  · rw [Arguments.applyBlocks, written, ite_self]
  · intro name content told
    change (if name = metronomeBlock then some source.toJson else none) = some content at told
    split at told
    · next named =>
        have replaced : (IntervalSettings.replaceBlock name content).on (guitar target) =
            (.ok (), guitar source) := by
          rw [named, ← Option.some.inj told]
          exact on_replaceBlock_toJson inRange target
        rw [IntervalSettings.setBlock, replaced]
        rfl
    · cases told

/-- Chords with a metronome between two other blocks. -/
def vampSchema : Schema :=
  [.block "capo" [], .choice "key" ["C", "G"], .block "metronome" [], .block "tuning" [],
    (ArgSpec.text "chords").variadic]

/-- A waltz without a tempo takes the place of a tempo. -/
theorem applyBlocks_vamp : Schema.check "Vamp" vampSchema = .ok () ∧
    Metronome.IsInRange ⟨none, 3, false⟩ ∧
    (Arguments.ofTexts vampSchema ["C", "I", "IV"] (some (guitar ⟨none, 3, false⟩))).applyBlocks
      vampSchema (guitar (.atTempo 90)) = (guitar ⟨none, 3, false⟩, .ok ()) := by
  have checked : Schema.check "Vamp" vampSchema = .ok () := rfl
  have inRange : Metronome.IsInRange ⟨none, 3, false⟩ :=
    Metronome.check_eq_ok_iff_isInRange.mp rfl
  exact ⟨checked, inRange,
    (applyBlocks_ofTexts checked ["C", "I", "IV"] inRange (.atTempo 90)).1⟩

end CatalogSettings
end PracticePlan
