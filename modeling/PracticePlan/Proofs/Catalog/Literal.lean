import PracticePlan.Proofs.Catalog.Changes

namespace PracticePlan
namespace CatalogSettings

/-!
# Literals of guitar settings

The literal of guitar settings says their tempo and nothing else.  Whatever the
settings have gone through, it is read as the standard metronome at this tempo,
so it stands for the settings only when their beats and their accent are the
standard ones (`readsBack_iff_standard`).
-/

/-- The literal of a metronome in range is read as its tempo alone. -/
theorem exists_tempo_of_literal? {metronome : Metronome} (inRange : metronome.IsInRange)
    {literal : String} (told : literal? (guitar metronome) = some literal) :
    ∃ tempo, metronome.tempo = some tempo ∧
      ofLiteral? literal = some (.ok (guitar (.atTempo tempo))) := by
  rcases Option.map_eq_some_iff.mp told with ⟨tempo, on, rfl⟩
  exact ⟨tempo, on, ofLiteral?_tempoChars (inRange.tempo tempo on)⟩

theorem atTempo_eq_iff {metronome : Metronome} {tempo : UInt32} (on : metronome.tempo = some tempo) :
    Metronome.atTempo tempo = metronome ↔
      metronome.beatsPerBar = Metronome.standard.beatsPerBar ∧
        metronome.accentsFirst = Metronome.standard.accentsFirst := by
  constructor
  · rintro rfl
    exact ⟨rfl, rfl⟩
  · rintro ⟨beats, accent⟩
    cases metronome
    cases on
    cases beats
    cases accent
    rfl

/-- The literal of guitar settings that were made and changed in any way is always
read, and what is read are the same settings exactly when their beats and their
accent are those of the standard metronome. -/
theorem readsBack_iff_standard {start : CatalogSettings} (made : IsMade start)
    (requests : List Request) {literal : String}
    (told : IntervalSettings.literal? (after start requests) = some literal) :
    ∃ metronome tempo, after start requests = guitar metronome ∧ metronome.tempo = some tempo ∧
      Catalog.guitar.settingsOfLiteral? literal = some (.ok (guitar (.atTempo tempo))) ∧
      (Catalog.guitar.settingsOfLiteral? literal = some (.ok (after start requests)) ↔
        metronome.beatsPerBar = Metronome.standard.beatsPerBar ∧
          metronome.accentsFirst = Metronome.standard.accentsFirst) := by
  rcases isGuitarInRange_after (isGuitarInRange_of_isMade made) requests with
    ⟨metronome, same, inRange⟩
  rw [same] at told ⊢
  rcases exists_tempo_of_literal? inRange told with ⟨tempo, on, read⟩
  refine ⟨metronome, tempo, rfl, on, read, ?_⟩
  rw [← atTempo_eq_iff on]
  constructor
  · intro back
    exact guitar.inj (Except.ok.inj (Option.some.inj (read.symm.trans back)))
  · intro standard
    rw [← standard]
    exact read

/-- A tempo whose bars are changed and changed back. -/
theorem readsBack_march : IsMade (guitar (.atTempo 120)) ∧
    IntervalSettings.literal? (after (guitar (.atTempo 120))
      [.block "metronome" (.object [("beatsPerBar", .integer 2), ("bpm", .integer 120)]),
        .block "metronome" (.object [("bpm", .integer 132)])]) = some "BPM:132" ∧
    Catalog.guitar.settingsOfLiteral? "BPM:132" = some (.ok (after (guitar (.atTempo 120))
      [.block "metronome" (.object [("beatsPerBar", .integer 2), ("bpm", .integer 120)]),
        .block "metronome" (.object [("bpm", .integer 132)])])) := by
  have made : IsMade (guitar (.atTempo 120)) := .tempo (ofTempo_of_inRange (by decide))
  have told : IntervalSettings.literal? (after (guitar (.atTempo 120))
      [.block "metronome" (.object [("beatsPerBar", .integer 2), ("bpm", .integer 120)]),
        .block "metronome" (.object [("bpm", .integer 132)])]) = some "BPM:132" := rfl
  rcases readsBack_iff_standard made _ told with ⟨metronome, tempo, same, -, -, back⟩
  refine ⟨made, told, back.mpr ?_⟩
  cases guitar.inj same
  exact ⟨rfl, rfl⟩

/-- A waltz at a tempo has a literal, which is read without its three beats. -/
theorem beats_lost : ∃ settings literal, IsMade settings ∧
    IntervalSettings.literal? settings = some literal ∧
    Catalog.guitar.settingsOfLiteral? literal ≠ some (.ok settings) := by
  have form : Catalog.guitar.settingsOfJson (.object [("metronome",
      .object [("beatsPerBar", .integer 3), ("bpm", .integer 90)])]) =
        .ok (guitar ⟨some 90, 3, true⟩) := rfl
  have read : Catalog.guitar.settingsOfLiteral? "BPM:90" = some (.ok (guitar (.atTempo 90))) := rfl
  refine ⟨guitar ⟨some 90, 3, true⟩, "BPM:90", .form form, rfl, ?_⟩
  rw [read]
  intro same
  cases same

end CatalogSettings
end PracticePlan
