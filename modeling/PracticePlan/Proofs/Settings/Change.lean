import PracticePlan.Arguments.Positional

namespace PracticePlan

/-!
# Changes of settings

A change is followed from the settings in front of it to whether it is refused
and to the settings it leaves.  Changes in a row are followed one after the
other until one is refused, so a property of settings that each of them keeps is
kept by the row, wherever it stops (`SettingsChange.keeps_forM`).

Writing back the blocks among arguments is such a row.  When it is refused, it
has stopped at one block, in front of which all blocks were written
(`Arguments.exists_refused_of_writeBlocks`).
-/

namespace SettingsChange

variable {σ α : Type} {property : σ → Prop}

theorem on_pure (settings : σ) : (pure () : SettingsChange σ Unit).on settings = (.ok (), settings) :=
  rfl

theorem on_then (first second : SettingsChange σ Unit) (settings : σ) :
    (first >>= fun _ => second).on settings = match first.on settings with
      | (.ok (), changed) => second.on changed
      | (.error cause, changed) => (.error cause, changed) := by
  simp only [on, ExceptT.run_bind, StateT.run_bind]
  simp only [bind]
  rcases first.run.run settings with ⟨error | done, changed⟩
  · rfl
  · rfl

theorem on_forM_cons (changeOf : α → SettingsChange σ Unit) (item : α) (rest : List α) (settings : σ) :
    ((item :: rest).forM changeOf).on settings = match (changeOf item).on settings with
      | (.ok (), changed) => (rest.forM changeOf).on changed
      | (.error cause, changed) => (.error cause, changed) :=
  on_then (changeOf item) (rest.forM changeOf) settings

/-- A row of changes is refused at one of them, behind others that are not. -/
theorem exists_refused_of_forM {changeOf : α → SettingsChange σ Unit} {items : List α}
    {settings changed : σ} {cause : SettingsError}
    (refused : (items.forM changeOf).on settings = (.error cause, changed)) :
    ∃ front item back held, items = front ++ item :: back ∧
      (front.forM changeOf).on settings = (.ok (), held) ∧
      (changeOf item).on held = (.error cause, changed) := by
  induction items generalizing settings with
  | nil => cases refused
  | cons first rest inductionHypothesis =>
      rw [on_forM_cons] at refused
      rcases outcome : (changeOf first).on settings with ⟨error | done, next⟩
      · rw [outcome] at refused
        exact ⟨[], first, rest, settings, rfl, rfl, outcome.trans refused⟩
      · rw [outcome] at refused
        rcases inductionHypothesis refused with ⟨front, item, back, held, rfl, passed, stopped⟩
        refine ⟨first :: front, item, back, held, rfl, ?_, stopped⟩
        rw [on_forM_cons, outcome]
        exact passed

/-! ## What changes keep -/

/-- Whether a property of settings is kept by a change, be it refused or not. -/
def Keeps (property : σ → Prop) (change : SettingsChange σ Unit) : Prop :=
  ∀ settings, property settings → property (change.on settings).2

theorem keeps_pure : Keeps property (pure ()) :=
  fun _ holds => holds

theorem keeps_then {first second : SettingsChange σ Unit} (keepsFirst : Keeps property first)
    (keepsSecond : Keeps property second) : Keeps property (first >>= fun _ => second) := by
  intro settings holds
  have kept := keepsFirst settings holds
  rw [on_then]
  rcases outcome : first.on settings with ⟨error | done, changed⟩
  · rw [outcome] at kept
    exact kept
  · rw [outcome] at kept
    exact keepsSecond changed kept

theorem keeps_forM {changeOf : α → SettingsChange σ Unit} {items : List α}
    (each : ∀ item ∈ items, Keeps property (changeOf item)) :
    Keeps property (items.forM changeOf) := by
  induction items with
  | nil => exact keeps_pure
  | cons first rest inductionHypothesis =>
      rw [List.forall_mem_cons] at each
      exact keeps_then each.1 (inductionHypothesis each.2)

end SettingsChange

namespace Arguments

variable {σ : Type} [IntervalSettings σ]

theorem writeBlock_of_none {arguments : Arguments} {spec : ArgSpec}
    (missing : arguments.block? spec.name = none) :
    arguments.writeBlock spec = (pure () : SettingsChange σ Unit) := by
  rw [writeBlock, missing]

theorem writeBlock_of_some {arguments : Arguments} {spec : ArgSpec} {content : Json}
    (given : arguments.block? spec.name = some content) :
    (arguments.writeBlock spec : SettingsChange σ Unit) =
      IntervalSettings.replaceBlock spec.name content := by
  rw [writeBlock, given]

theorem writeBlocks_cons_of_block {spec : ArgSpec} (block : spec.isBlock = true)
    (arguments : Arguments) (schema : List ArgSpec) :
    (arguments.writeBlocks (spec :: schema) : SettingsChange σ Unit) =
      arguments.writeBlock spec >>= fun _ => arguments.writeBlocks schema := by
  rw [writeBlocks, List.filter_cons_of_pos block]
  rfl

theorem writeBlocks_cons_of_slot {spec : ArgSpec} (slot : spec.isBlock = false)
    (arguments : Arguments) (schema : List ArgSpec) :
    (arguments.writeBlocks (spec :: schema) : SettingsChange σ Unit) =
      arguments.writeBlocks schema := by
  rw [writeBlocks, List.filter_cons_of_neg (by simp [slot]), writeBlocks]

/-- What every replacement of a block keeps is kept when blocks are written back. -/
theorem keeps_writeBlocks {property : σ → Prop}
    (each : ∀ name content,
      SettingsChange.Keeps property (IntervalSettings.replaceBlock name content))
    (arguments : Arguments) (schema : Schema) :
    SettingsChange.Keeps property (arguments.writeBlocks schema) := by
  apply SettingsChange.keeps_forM
  intro spec _
  cases given : arguments.block? spec.name with
  | none =>
      rw [writeBlock_of_none given]
      exact SettingsChange.keeps_pure
  | some content =>
      rw [writeBlock_of_some given]
      exact each spec.name content

/-- Where blocks are refused, those in front of one were written, and this one was
refused. -/
theorem exists_refused_of_writeBlocks {arguments : Arguments} {schema : Schema}
    {settings changed : σ} {cause : SettingsError}
    (refused : (arguments.writeBlocks schema).on settings = (.error cause, changed)) :
    ∃ front spec back held content, schema = front ++ spec :: back ∧ spec.isBlock = true ∧
      arguments.block? spec.name = some content ∧
      (arguments.writeBlocks front).on settings = (.ok (), held) ∧
      (IntervalSettings.replaceBlock spec.name content).on held = (.error cause, changed) := by
  rcases SettingsChange.exists_refused_of_forM refused with
    ⟨written, spec, others, held, blocks, passed, stopped⟩
  rcases List.filter_eq_append_iff.mp blocks with ⟨early, late, rfl, rfl, behind⟩
  rcases List.filter_eq_cons_iff.mp behind with ⟨between, back, rfl, slots, block, -⟩
  have same : (early ++ between).filter ArgSpec.isBlock = early.filter ArgSpec.isBlock := by
    rw [List.filter_append, List.filter_eq_nil_iff.mpr slots, List.append_nil]
  have earlier : (arguments.writeBlocks (early ++ between)).on settings = (.ok (), held) := by
    rw [writeBlocks, same]
    exact passed
  cases given : arguments.block? spec.name with
  | none =>
      rw [writeBlock_of_none given] at stopped
      cases stopped
  | some content =>
      rw [writeBlock_of_some given] at stopped
      exact ⟨early ++ between, spec, back, held, content, (List.append_assoc early between _).symm,
        block, given, earlier, stopped⟩

end Arguments
end PracticePlan
