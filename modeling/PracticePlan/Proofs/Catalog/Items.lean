import PracticePlan.Proofs.Catalog.Lines
import PracticePlan.Proofs.Item.RoundTrip
import PracticePlan.Proofs.Outcome

namespace PracticePlan

/-!
# Settings of the catalog in items

A metronome in range is read back from its JSON form, whether or not it has a
tempo.  Every way in which a category of the catalog gives settings to an
interval ends in the check of the range, or gives the default, so whatever the
categories of the catalog give they also read back
(`readsSettings_of_isGiven`).
-/

open Notation

namespace Json

/-- An object is read as a record field by field. -/
theorem asRecord_object {α : Type} (wanted : String) (declared : List String) (defaults : α)
    (withField : α → String → Json → Shaped α) (members : List (String × Json)) :
    asRecord wanted declared defaults withField (.object members) =
      Item.readFields withField defaults members := by
  have kept : ∀ outcome : Shaped α, (outcome.bind fun record =>
      (checkLength declared (.object members)).map fun _ => record) = outcome := by
    intro outcome
    cases outcome with
    | error cause => rfl
    | ok record => rfl
  exact kept _

theorem asUInt8_toNat (value : UInt8) : asUInt8 (.integer value.toNat) = .ok value := by
  have bounded : (0 : Int) ≤ value.toNat ∧ (value.toNat : Int) < (0x100 : Nat) :=
    ⟨Int.natCast_nonneg _, Int.ofNat_lt.mpr value.toNat_lt⟩
  rw [asUInt8, asNatural, if_pos bounded]
  exact congrArg Except.ok UInt8.ofNat_toNat

end Json

namespace Metronome

theorem check_eq_ok_iff {metronome checked : Metronome} :
    metronome.check = .ok checked ↔
      metronome = checked ∧ (∀ tempo ∈ metronome.tempo, TempoInRange tempo) ∧
        BeatsInRange metronome.beatsPerBar := by
  have tempos : (metronome.tempo.all fun tempo => decide (TempoInRange tempo)) = true ↔
      ∀ tempo ∈ metronome.tempo, TempoInRange tempo := by
    cases metronome.tempo with
    | none => simp
    | some tempo => simp
  unfold check
  constructor
  · intro passed
    split at passed
    · cases passed
    · next bounded =>
        split at passed
        · next beats =>
            refine ⟨Except.ok.inj passed, tempos.mp ?_, beats⟩
            simpa using bounded
        · cases passed
  · rintro ⟨rfl, bounded, beats⟩
    rw [tempos.mpr bounded, if_neg (by decide), if_pos beats]

/-- Whether the numbers of a metronome are in range. -/
structure IsInRange (metronome : Metronome) : Prop where
  tempo : ∀ tempo ∈ metronome.tempo, TempoInRange tempo
  beats : BeatsInRange metronome.beatsPerBar

theorem check_eq_ok_iff_isInRange {metronome : Metronome} :
    metronome.check = .ok metronome ↔ metronome.IsInRange := by
  rw [check_eq_ok_iff]
  constructor
  · rintro ⟨-, tempo, beats⟩
    exact ⟨tempo, beats⟩
  · rintro ⟨tempo, beats⟩
    exact ⟨rfl, tempo, beats⟩

theorem isInRange_standard : standard.IsInRange :=
  check_eq_ok_iff_isInRange.mp rfl

theorem isInRange_atTempo {tempo : UInt32} (inRange : TempoInRange tempo) :
    (atTempo tempo).IsInRange :=
  ⟨fun _ here => Option.some.inj here ▸ inRange, isInRange_standard.beats⟩

/-- A metronome is read from its JSON form, in range or not. -/
theorem ofJson_toJson (metronome : Metronome) : ofJson metronome.toJson = .ok metronome := by
  rcases metronome with ⟨tempo, beats, accent⟩
  have readBeats : withField ⟨none, 4, accent⟩ "beatsPerBar" (.integer beats.toNat) =
      .ok ⟨none, beats, accent⟩ := by
    rw [withField, Json.asUInt8_toNat]
    rfl
  have leading : Item.readFields withField standard
      [("accentFirstBeat", .boolean accent), ("beatsPerBar", .integer beats.toNat)] =
      .ok ⟨none, beats, accent⟩ := by
    have first : Item.readFields withField standard [("accentFirstBeat", .boolean accent)] =
        .ok ⟨none, 4, accent⟩ := rfl
    apply (Item.readFields_append withField first _).trans
    rw [Item.readFields, List.foldlM_cons, readBeats]
    rfl
  rw [ofJson, toJson, Json.asRecord_object]
  apply (Item.readFields_append withField leading _).trans
  cases tempo with
  | none => rfl
  | some tempo =>
      have readTempo : withField ⟨none, beats, accent⟩ "bpm" (.integer tempo.toNat) =
          .ok ⟨some tempo, beats, accent⟩ := by
        have known : Json.asOptional Json.asUInt32 (.integer tempo.toNat) = .ok (some tempo) := by
          change (Json.asUInt32 (.integer tempo.toNat)).map some = _
          rw [Item.asUInt32_toNat]
          rfl
        rw [withField, known]
        rfl
      dsimp only
      rw [Item.readFields, List.foldlM_cons, readTempo]
      rfl

end Metronome

namespace CatalogSettings

/-- Guitar settings in range are read back from their JSON form. -/
theorem guitarOfJson_metronome {metronome : Metronome}
    (inRange : metronome.check = .ok metronome) :
    guitarOfJson (.object [(metronomeBlock, metronome.toJson)]) = .ok (guitar metronome) := by
  have read : withField .standard metronomeBlock metronome.toJson = .ok metronome := by
    rw [withField, if_pos rfl, Metronome.ofJson_toJson]
  have fields : Item.readFields withField .standard [(metronomeBlock, metronome.toJson)] =
      .ok metronome := by
    rw [Item.readFields, List.foldlM_cons, read]
    rfl
  rw [guitarOfJson, Json.asRecord_object, fields]
  simp only [Except.mapError_ok, Except.bind, inRange, Except.map]

/-- Guitar settings come from a metronome that passed its check. -/
theorem exists_metronome_of_guitarOfJson {form : Json} {settings : CatalogSettings}
    (read : guitarOfJson form = .ok settings) :
    ∃ metronome : Metronome, metronome.check = .ok metronome ∧ settings = guitar metronome := by
  rcases Except.map_eq_ok_iff.mp read with ⟨metronome, outcome, rfl⟩
  rcases Except.bind_eq_ok_iff.mp outcome with ⟨unchecked, -, checked⟩
  rcases Metronome.check_eq_ok_iff.mp checked with ⟨rfl, -, -⟩
  exact ⟨unchecked, checked, rfl⟩

/-- The JSON form of a metronome has sorted members and can be printed. -/
theorem survives_toJson (metronome : Metronome) :
    (Json.object [(metronomeBlock, metronome.toJson)]).ordered =
        .object [(metronomeBlock, metronome.toJson)] ∧
      Json.Legible 3 (.object [(metronomeBlock, metronome.toJson)]) := by
  have fits : ∀ count : Nat, count < 0x100000000 →
      -0x8000000000000000 ≤ (count : Int) ∧ (count : Int) < 0x10000000000000000 := by
    intro count bounded
    omega
  rcases metronome with ⟨tempo, beats, accent⟩
  have beatsFit := fits beats.toNat (Nat.lt_trans beats.toNat_lt (by decide))
  cases tempo with
  | none => exact ⟨rfl, by decide, ⟨by decide, trivial, beatsFit, trivial⟩, trivial⟩
  | some tempo =>
      have tempoFit := fits tempo.toNat tempo.toNat_lt
      exact ⟨rfl, by decide, ⟨by decide, trivial, beatsFit, tempoFit, trivial⟩, trivial⟩

theorem readsSettings_guitar {metronome : Metronome}
    (inRange : metronome.check = .ok metronome) :
    Item.ReadsSettings Catalog.guitar (guitar metronome) := by
  by_cases standard : metronome = .standard
  · rw [standard]
    exact ⟨nofun, rfl⟩
  · have told : IntervalSettings.json? (guitar metronome) =
        some (.object [(metronomeBlock, metronome.toJson)]) := if_neg standard
    have read : Catalog.guitar.settingsOfJson (.object [(metronomeBlock, metronome.toJson)]) =
        .ok (guitar metronome) := by
      rw [show Catalog.guitar.settingsOfJson = guitarOfJson from rfl]
      exact guitarOfJson_metronome inRange
    constructor
    · intro form same
      rcases Option.some.inj (told.symm.trans same) with rfl
      exact survives_toJson metronome
    · rw [told]
      exact ⟨guitar metronome, read, same_self (guitar metronome)⟩

/-- Whatever a category of the catalog gives to an interval it reads back. -/
theorem readsSettings_of_isGiven {name : String}
    {category : Category CatalogSettings CatalogFeature} {settings : CatalogSettings}
    (found : Catalog.registry.category? name = some category)
    (given : Line.IsReadSettings category settings ∨ Item.IsHeldSettings category settings) :
    Item.ReadsSettings category settings := by
  rcases Catalog.category?_cases found with ⟨-, rfl⟩ | ⟨-, rfl⟩
  · rcases given with (rfl | ⟨literal, known⟩) | (rfl | ⟨form, known⟩)
    · exact readsSettings_guitar rfl
    · rcases exists_tempo_of_ofLiteral? known with ⟨tempo, inRange, rfl⟩
      apply readsSettings_guitar
      exact Metronome.check_eq_ok_iff_isInRange.mpr (Metronome.isInRange_atTempo inRange)
    · exact readsSettings_guitar rfl
    · rcases exists_metronome_of_guitarOfJson known with ⟨metronome, inRange, rfl⟩
      exact readsSettings_guitar inRange
  · rcases given with (rfl | ⟨literal, known⟩) | (rfl | ⟨form, known⟩)
    · exact ⟨nofun, rfl⟩
    · cases known
    · exact ⟨nofun, rfl⟩
    · rw [eq_of_generalOfJson known]
      exact ⟨nofun, rfl⟩

end CatalogSettings
end PracticePlan
