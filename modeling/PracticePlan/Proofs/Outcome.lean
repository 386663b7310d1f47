/-!
# Steps that succeed and fail

Checks, readers and builders of plans are chains of steps each of which may fail
with a cause.  A chain succeeds when every one of its steps does, and fails with
the cause of its first step that does not.  These statements take such a chain
apart.
-/

namespace Except

variable {ε δ α β : Type}

theorem bind_eq_ok_iff {outcome : Except ε α} {next : α → Except ε β} {result : β} :
    outcome.bind next = .ok result ↔ ∃ value, outcome = .ok value ∧ next value = .ok result := by
  cases outcome with
  | error cause =>
      constructor
      · intro impossible
        cases impossible
      · rintro ⟨value, impossible, -⟩
        cases impossible
  | ok value =>
      constructor
      · intro success
        exact ⟨value, rfl, success⟩
      · rintro ⟨other, same, success⟩
        rw [← Except.ok.inj same] at success
        exact success

theorem map_eq_ok_iff {outcome : Except ε α} {change : α → β} {result : β} :
    outcome.map change = .ok result ↔ ∃ value, outcome = .ok value ∧ change value = result := by
  cases outcome with
  | error cause => simp [Except.map]
  | ok value => simp [Except.map]

theorem mapError_ok (explain : ε → δ) (value : α) :
    (Except.ok value).mapError explain = .ok value :=
  rfl

theorem mapError_error (explain : ε → δ) (cause : ε) :
    (Except.error cause : Except ε α).mapError explain = .error (explain cause) :=
  rfl

theorem mapError_eq_ok_iff {outcome : Except ε α} {explain : ε → δ} {result : α} :
    outcome.mapError explain = .ok result ↔ outcome = .ok result := by
  cases outcome with
  | error cause => simp [mapError_error]
  | ok value => simp [mapError_ok]

theorem bind_eq_error_iff {outcome : Except ε α} {next : α → Except ε β} {cause : ε} :
    outcome.bind next = .error cause ↔
      outcome = .error cause ∨ ∃ value, outcome = .ok value ∧ next value = .error cause := by
  cases outcome with
  | error other => simp [Except.bind]
  | ok value => simp [Except.bind]

/-- A step without a value is followed by the next one. -/
theorem then_eq_ok_iff {outcome : Except ε Unit} {next : Unit → Except ε β} {result : β} :
    outcome.bind next = .ok result ↔ outcome = .ok () ∧ next () = .ok result := by
  cases outcome with
  | error cause => simp [Except.bind]
  | ok value => simp [Except.bind]

theorem then_eq_error_iff {outcome : Except ε Unit} {next : Unit → Except ε β} {cause : ε} :
    outcome.bind next = .error cause ↔
      outcome = .error cause ∨ outcome = .ok () ∧ next () = .error cause := by
  cases outcome with
  | error other => simp [Except.bind]
  | ok value => simp [Except.bind]

theorem map_eq_error_iff {outcome : Except ε α} {change : α → β} {cause : ε} :
    outcome.map change = .error cause ↔ outcome = .error cause := by
  cases outcome with
  | error other => simp [Except.map]
  | ok value => simp [Except.map]

theorem mapError_eq_error_iff {outcome : Except ε α} {explain : ε → δ} {cause : δ} :
    outcome.mapError explain = .error cause ↔ ∃ reason, outcome = .error reason ∧
      explain reason = cause := by
  cases outcome with
  | error reason => simp [mapError_error]
  | ok value => simp [mapError_ok]

/-- What every step of a run preserves holds at its end. -/
theorem foldlM_preserves (holds : β → Prop) {step : β → α → Except ε β} {items : List α}
    {start finish : β}
    (each : ∀ item ∈ items, ∀ before after, holds before → step before item = .ok after →
      holds after)
    (begins : holds start) (run : items.foldlM step start = .ok finish) : holds finish := by
  induction items generalizing start with
  | nil => exact Except.ok.inj run ▸ begins
  | cons item rest inductionHypothesis =>
      rw [List.forall_mem_cons] at each
      rw [List.foldlM_cons] at run
      rcases bind_eq_ok_iff.mp run with ⟨next, first, others⟩
      exact inductionHypothesis each.2 (each.1 start next begins first) others

theorem toOption_eq_some_iff {outcome : Except ε α} {result : α} :
    outcome.toOption = some result ↔ outcome = .ok result := by
  cases outcome with
  | error cause => simp [Except.toOption]
  | ok value => simp [Except.toOption]

end Except
