import PracticePlan.Catalog.Basic
import PracticePlan.Proofs.Line.Reading
import PracticePlan.Proofs.Line.RoundTrip
import PracticePlan.Proofs.Text.Numeral

namespace PracticePlan
namespace CatalogSettings

open Notation.Line

/-!
# Settings of the catalog in lines

The literal of a tempo in range is read back as that tempo, and nothing else is
ever read from a literal.  The settings that a line can give to an interval are
therefore the default of its category and, for a guitar, the standard metronome
at some tempo, and all of these are kept when they are written again.

Sameness of settings compares their JSON forms.  Among the settings that
intervals of the catalog have, it is equality (`eq_of_same`).
-/

/-! ## Sameness -/

theorem eq_of_same_toJson {first second : Metronome}
    (same : Json.same first.toJson second.toJson = true) : first = second := by
  rcases first with ⟨firstTempo, firstBeats, firstAccent⟩
  rcases second with ⟨secondTempo, secondBeats, secondAccent⟩
  simp only [Metronome.toJson, Json.same, List.cons_append, List.nil_append, Json.sameMembers,
    beq_self_eq_true, Bool.true_and, Bool.and_eq_true, beq_iff_eq, Int.natCast_inj,
    UInt8.toNat_inj] at same
  rcases same with ⟨rfl, rfl, tempo⟩
  cases firstTempo with
  | none =>
      cases secondTempo with
      | none => rfl
      | some second => cases tempo
  | some first =>
      cases secondTempo with
      | none => cases tempo
      | some second =>
          simp only [Json.sameMembers, Json.same, beq_self_eq_true, Bool.true_and, Bool.and_true,
            beq_iff_eq, Int.natCast_inj, UInt32.toNat_inj] at tempo
          rw [tempo]

theorem same_toJson_self (metronome : Metronome) :
    Json.same metronome.toJson metronome.toJson = true := by
  rcases metronome with ⟨tempo, beats, accent⟩
  cases tempo with
  | none => simp [Metronome.toJson, Json.same, Json.sameMembers]
  | some tempo => simp [Metronome.toJson, Json.same, Json.sameMembers]

theorem same_self (settings : CatalogSettings) :
    IntervalSettings.same settings settings = true := by
  have forms : Json.sameOption (json? settings) (json? settings) = true := by
    cases settings with
    | plain name => rfl
    | guitar metronome =>
        rw [json?]
        split
        · rfl
        · simp only [Json.sameOption, Json.same, Json.sameMembers, beq_self_eq_true,
            same_toJson_self, Bool.and_self]
  exact Bool.and_eq_true_iff.mpr ⟨beq_self_eq_true settings.category, forms⟩

/-- Settings that intervals of a category of the catalog have. -/
def IsOf (category : String) : CatalogSettings → Prop
  | guitar _ => category = guitarCategory
  | plain name => category = generalCategory ∧ name = generalCategory

/-- Settings of one category that are the same are equal. -/
theorem eq_of_same {category : String} {first second : CatalogSettings}
    (firstOf : IsOf category first) (secondOf : IsOf category second)
    (same : IntervalSettings.same first second = true) : first = second := by
  have other : guitarCategory ≠ generalCategory := by decide
  cases first with
  | plain firstName =>
      cases second with
      | plain secondName => rw [firstOf.2, secondOf.2]
      | guitar second => exact absurd (secondOf.symm.trans firstOf.1) other
  | guitar first =>
      cases second with
      | plain secondName => exact absurd (Eq.trans (Eq.symm firstOf) secondOf.1) other
      | guitar second =>
          have forms : Json.sameOption (json? (guitar first)) (json? (guitar second)) = true :=
            (Bool.and_eq_true_iff.mp same).2
          by_cases firstStandard : first = .standard
          · by_cases secondStandard : second = .standard
            · rw [firstStandard, secondStandard]
            · rw [json?, json?, if_pos firstStandard, if_neg secondStandard] at forms
              cases forms
          · by_cases secondStandard : second = .standard
            · rw [json?, json?, if_neg firstStandard, if_pos secondStandard] at forms
              cases forms
            · rw [json?, json?, if_neg firstStandard, if_neg secondStandard] at forms
              simp only [Json.sameOption, Json.same, Json.sameMembers, beq_self_eq_true,
                Bool.true_and, Bool.and_true] at forms
              rw [eq_of_same_toJson forms]

/-! ## JSON -/

theorem isOf_of_guitarOfJson {form : Json} {settings : CatalogSettings}
    (read : guitarOfJson form = .ok settings) : IsOf guitarCategory settings := by
  unfold guitarOfJson at read
  cases outcome : (((form.asRecord "struct GuitarSettings" [metronomeBlock] .standard
      withField).mapError SettingsError.shape).bind Metronome.check) with
  | error cause =>
      rw [outcome] at read
      cases read
  | ok metronome =>
      rw [outcome] at read
      exact Except.ok.inj read ▸ rfl

theorem eq_of_generalOfJson {form : Json} {settings : CatalogSettings}
    (read : generalOfJson form = .ok settings) : settings = generalDefault := by
  unfold generalOfJson at read
  split at read
  · exact (Except.ok.inj read).symm
  · exact (Except.ok.inj read).symm
  · cases read

/-! ## Literals -/

/-- The characters of a tempo literal. -/
def tempoChars (tempo : UInt32) : List Char :=
  ['B', 'P', 'M', ':'] ++ Text.digitsOf tempo.toNat

theorem ofTempo_of_inRange {tempo : UInt32} (inRange : Metronome.TempoInRange tempo) :
    ofTempo tempo = .ok (guitar (.atTempo tempo)) := by
  have beats : Metronome.BeatsInRange 4 := by decide
  have checked : (Metronome.atTempo tempo).check = .ok (.atTempo tempo) := by
    simp only [Metronome.check, Metronome.atTempo, Metronome.standard, Option.all_some,
      decide_eq_true inRange, Bool.not_true, Bool.false_eq_true, if_false]
    exact if_pos beats
  rw [ofTempo, checked]
  rfl

theorem ofTempo_eq_ok {tempo : UInt32} {settings : CatalogSettings}
    (read : ofTempo tempo = .ok settings) :
    Metronome.TempoInRange tempo ∧ settings = guitar (.atTempo tempo) := by
  by_cases inRange : Metronome.TempoInRange tempo
  · rw [ofTempo_of_inRange inRange] at read
    exact ⟨inRange, (Except.ok.inj read).symm⟩
  · have refused : (Metronome.atTempo tempo).check = .error .tempoOutOfRange := by
      simp only [Metronome.check, Metronome.atTempo, Option.all_some, decide_eq_false inRange,
        Bool.not_false, if_true]
    rw [ofTempo, refused] at read
    cases read

/-- A tempo in range is read back from its literal. -/
theorem ofLiteral?_tempoChars {tempo : UInt32} (inRange : Metronome.TempoInRange tempo) :
    ofLiteral? (String.ofList (tempoChars tempo)) = some (.ok (guitar (.atTempo tempo))) := by
  have cut : Text.cut? ':' (tempoChars tempo) = some (['B', 'P', 'M'], Text.digitsOf tempo.toNat) :=
    Text.cut?_append ':' ['B', 'P', 'M'] _ (by decide)
  have key : isTempoKey ['B', 'P', 'M'] = true := by decide
  have value : Text.signedNumeralBelow? 0x100000000 (Text.trim (Text.digitsOf tempo.toNat)) =
      some tempo.toNat := by
    rw [Text.trim_of_tight (Text.tight_digitsOf _), Text.signedNumeralBelow?_digitsOf]
    exact if_pos tempo.toNat_lt
  rw [ofLiteral?, String.toList_ofList, cut, Option.bind_some, if_pos key]
  dsimp only
  rw [value]
  dsimp only
  rw [UInt32.ofNat_toNat, ofTempo_of_inRange inRange]

/-- What a literal is read as is a tempo in range. -/
theorem exists_tempo_of_ofLiteral? {literal : String} {settings : CatalogSettings}
    (read : ofLiteral? literal = some (.ok settings)) :
    ∃ tempo, Metronome.TempoInRange tempo ∧ settings = guitar (.atTempo tempo) := by
  rcases Option.bind_eq_some_iff.mp read with ⟨parts, -, known⟩
  split at known
  · have outcome := Option.some.inj known
    split at outcome
    · exact ⟨_, ofTempo_eq_ok outcome⟩
    · cases outcome
  · cases known

/-! ## Settings of a line -/

/-- The literal of a tempo can stand in a line. -/
theorem isLiteralBody_tempoChars (tempo : UInt32) :
    Notation.isLiteralBody (tempoChars tempo) = true ∧ IsField ('@' :: tempoChars tempo) := by
  have front : ∀ c ∈ ['@', 'B', 'P', 'M', ':'], c ≠ ',' ∧ Text.isBlank c = false := by
    simp only [List.mem_cons, List.not_mem_nil, or_false, forall_eq_or_imp, forall_eq]
    decide
  have each : ∀ c ∈ ['@', 'B', 'P', 'M', ':'] ++ Text.digitsOf tempo.toNat,
      c ≠ ',' ∧ Text.isBlank c = false := by
    intro c member
    rcases List.mem_append.mp member with early | digit
    · exact front c early
    · have shown := Text.isDigit_of_mem_digitsOf digit
      exact ⟨fun same => absurd shown (by rw [same]; decide), Text.isBlank_of_isDigit shown⟩
  have newline : '\n' ∉ '@' :: tempoChars tempo := fun member =>
    absurd (each '\n' member).2 (by decide)
  have shape : Notation.isLiteralBody (tempoChars tempo) =
      !(Text.digitsOf tempo.toNat).contains '\n' := rfl
  refine ⟨?_, fun member => (each ',' member).1 rfl, newline,
    Text.tight_of_solid fun c member => (each c member).2⟩
  rw [shape, Bool.not_eq_true']
  refine Bool.eq_false_iff.mpr fun inside => newline ?_
  exact List.mem_append_right ['@', 'B', 'P', 'M', ':'] (List.contains_iff_mem.mp inside)

/-- The standard metronome is kept by a line at every tempo in range, and when
it is off. -/
theorem keepsSettings_guitar {tempo? : Option UInt32}
    (inRange : ∀ tempo ∈ tempo?, Metronome.TempoInRange tempo) :
    KeepsSettings Catalog.guitar (guitar { Metronome.standard with tempo := tempo? }) := by
  cases tempo? with
  | none => rfl
  | some tempo =>
      have shape := isLiteralBody_tempoChars tempo
      rw [← @String.toList_ofList (tempoChars tempo)] at shape
      exact ⟨shape.1, shape.2, _, ofLiteral?_tempoChars (inRange tempo rfl), same_self _⟩

end CatalogSettings
end PracticePlan
