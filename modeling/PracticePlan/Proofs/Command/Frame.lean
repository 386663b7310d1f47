import PracticePlan.Command.Run
import PracticePlan.Proofs.Archive.Map
import PracticePlan.Proofs.Outcome

namespace PracticePlan
namespace Run

/-!
# What runs leave alone

A run is followed from what has been printed and the state of the world to what
it comes to.  Steps in a row are followed one after the other, as long as none
of them fails (`follow_bind`).

Two things are read off such a run.  What it leaves alone is what each of its
steps leaves alone, whether or not it fails.  What it yields when it succeeds
tells of every step what that step has yielded.
-/

variable {ω κ α β ε : Type}

/-- What steps come to, with what is printed then and the world they leave. -/
def follow (steps : Run (StateM ω) α) (printed : Printed) (world : ω) :
    (Except CommandError α × Printed) × ω :=
  (steps.run.run printed).run world

/-- Steps leave what is read off the world as it was. -/
def Keeps (contents : ω → κ) (steps : Run (StateM ω) α) : Prop :=
  ∀ printed world, contents (follow steps printed world).2 = contents world

/-- Steps succeed with a value and leave a world. -/
def Yields (steps : Run (StateM ω) α) (world : ω) (value : α) (after : ω) : Prop :=
  ∃ printed later, follow steps printed world = ((.ok value, later), after)

/-! ## Single steps -/

theorem follow_bind (steps : Run (StateM ω) α) (next : α → Run (StateM ω) β)
    (printed : Printed) (world : ω) :
    follow (steps >>= next) printed world = match follow steps printed world with
      | ((.ok value, later), after) => follow (next value) later after
      | ((.error error, later), after) => ((.error error, later), after) := by
  simp only [follow, ExceptT.run_bind, StateT.run_bind]
  simp only [bind]
  rcases (steps.run.run printed).run world with ⟨⟨error | value, later⟩, after⟩
  · rfl
  · rfl

theorem follow_accept (wrap : ε → CommandError) (result : Except ε α) (printed : Printed)
    (world : ω) :
    follow (accept wrap result) printed world = ((result.mapError wrap, printed), world) := by
  cases result with
  | error cause => rfl
  | ok value => rfl

theorem follow_attempt (wrap : ε → CommandError) (step : ExceptT ε (StateM ω) α)
    (printed : Printed) (world : ω) :
    follow (attempt wrap step) printed world =
      (((step.run.run world).1.mapError wrap, printed), (step.run.run world).2) := by
  simp only [follow, attempt, ExceptT.run_mk, StateT.run_bind, StateT.run_monadLift]
  simp only [bind, monadLift]
  rcases step.run.run world with ⟨error | value, after⟩
  · rfl
  · rfl

/-- The outcome of a run tells by its code whether the run has succeeded. -/
theorem run_outcome (steps : Run (StateM ω) Unit) (world : ω) :
    (outcome steps).run world = match follow steps ⟨"", ""⟩ world with
      | ((.ok (), printed), after) => (⟨0, printed⟩, after)
      | ((.error error, printed), after) =>
          (⟨1, { printed with errors := printed.errors ++ error.report }⟩, after) := by
  simp only [outcome, StateT.run_bind, follow]
  simp only [bind]
  rcases (steps.run.run ⟨"", ""⟩).run world with ⟨⟨error | done, printed⟩, after⟩
  · rfl
  · rfl

/-! ## What is left alone -/

section Keeps

variable {contents : ω → κ}

theorem keeps_pure (value : α) : Keeps contents (pure value) :=
  fun _ _ => rfl

theorem keeps_throw (error : CommandError) :
    Keeps contents (throw error : Run (StateM ω) α) :=
  fun _ _ => rfl

theorem keeps_bind {steps : Run (StateM ω) α} {next : α → Run (StateM ω) β}
    (first : Keeps contents steps) (second : ∀ value, Keeps contents (next value)) :
    Keeps contents (steps >>= next) := by
  intro printed world
  have kept := first printed world
  rw [follow_bind]
  generalize follow steps printed world = outcome at kept ⊢
  rcases outcome with ⟨⟨error | value, later⟩, after⟩
  · exact kept
  · exact (second value later after).trans kept

theorem keeps_print (text : String) : Keeps contents (print text) :=
  fun _ _ => rfl

theorem keeps_note (text : String) : Keeps contents (note text) :=
  fun _ _ => rfl

theorem keeps_warn (warnings : List Notation.Warning) : Keeps contents (warn warnings) := by
  induction warnings with
  | nil => exact keeps_pure ()
  | cons first rest inductionHypothesis =>
      exact keeps_bind (keeps_note _) fun _ => inductionHypothesis

theorem keeps_accept (wrap : ε → CommandError) (result : Except ε α) :
    Keeps contents (accept wrap result) := by
  intro printed world
  rw [follow_accept]

theorem keeps_attempt (wrap : ε → CommandError) {step : ExceptT ε (StateM ω) α}
    (spared : Spares contents step.run) : Keeps contents (attempt wrap step) := by
  intro printed world
  rw [follow_attempt]
  exact spared world

end Keeps

/-! ## What is yielded -/

theorem exists_of_yields_bind {steps : Run (StateM ω) α} {next : α → Run (StateM ω) β}
    {world after : ω} {result : β} (yielded : Yields (steps >>= next) world result after) :
    ∃ value between,
      Yields steps world value between ∧ Yields (next value) between result after := by
  rcases yielded with ⟨printed, later, known⟩
  rw [follow_bind] at known
  cases outcome : follow steps printed world with
  | mk rest between =>
      rcases rest with ⟨error | value, middle⟩
      · rw [outcome] at known
        cases known
      · rw [outcome] at known
        exact ⟨value, between, ⟨printed, middle, outcome⟩, ⟨middle, later, known⟩⟩

theorem eq_of_yields_pure {value result : α} {world after : ω}
    (yielded : Yields (pure value) world result after) : result = value := by
  rcases yielded with ⟨printed, later, known⟩
  cases known
  rfl

theorem eq_ok_of_yields_accept {wrap : ε → CommandError} {result : Except ε α} {value : α}
    {world after : ω} (yielded : Yields (accept wrap result) world value after) :
    result = .ok value := by
  rcases yielded with ⟨printed, later, known⟩
  rw [follow_accept] at known
  exact Except.mapError_eq_ok_iff.mp (congrArg (fun outcome => outcome.1.1) known)

theorem eq_ok_of_yields_attempt {wrap : ε → CommandError} {step : ExceptT ε (StateM ω) α}
    {value : α} {world after : ω} (yielded : Yields (attempt wrap step) world value after) :
    (step.run.run world).1 = .ok value := by
  rcases yielded with ⟨printed, later, known⟩
  rw [follow_attempt] at known
  exact Except.mapError_eq_ok_iff.mp (congrArg (fun outcome => outcome.1.1) known)

/-! ## Commands -/

section Commands

variable {contents : ω → κ} {σ φ : Type}

/-- Reading files leaves what is read off the world as it was. -/
def ReadingSpares [Files (StateM ω)] (contents : ω → κ) : Prop :=
  ∀ path, Spares contents (Files.read path : ExceptT FileFault (StateM ω) String).run

/-- Writing a file leaves what is read off the world as it was. -/
def WritingSpares [Files (StateM ω)] (contents : ω → κ) (path : String) : Prop :=
  ∀ text, Spares contents (Files.write path text : ExceptT FileFault (StateM ω) Unit).run

theorem keeps_readPlan [Files (StateM ω)] (reading : ReadingSpares contents)
    (registry : Registry σ φ) (config : Config) (path : String) :
    Keeps contents (readPlan registry config path) := by
  apply keeps_bind
  · exact keeps_bind (keeps_attempt _ (reading path)) fun text => keeps_pure _
  · rintro ⟨text, source⟩
    refine keeps_bind (keeps_accept _ _) fun codec => ?_
    refine keeps_bind (keeps_accept _ _) fun report => ?_
    exact keeps_bind (keeps_warn _) fun _ => keeps_pure _

theorem keeps_writtenIn [IntervalSettings σ] (registry : Registry σ φ) (config : Config)
    (target : Notation.Format) (plan : Plan σ) :
    Keeps contents (writtenIn registry config target plan) :=
  keeps_bind (keeps_accept _ _) fun _ => keeps_accept _ _

theorem keeps_convert [Files (StateM ω)] [IntervalSettings σ] (reading : ReadingSpares contents)
    (registry : Registry σ φ) (config : Config) (input : String)
    (target : Option Notation.Format) {output : Option String}
    (writing : ∀ path ∈ output, WritingSpares contents path) :
    Keeps contents (convert registry config input target output) := by
  apply keeps_bind (keeps_readPlan reading registry config input)
  rintro ⟨plan, source⟩
  refine keeps_bind (keeps_writtenIn registry config _ plan) fun written => ?_
  cases output with
  | none => exact keeps_print written
  | some path => exact keeps_attempt _ (writing path rfl written)

theorem keeps_outline [Files (StateM ω)] [IntervalSettings σ] (reading : ReadingSpares contents)
    (registry : Registry σ φ) (config : Config) (input : String) :
    Keeps contents (outline registry config input) :=
  keeps_bind (keeps_readPlan reading registry config input) fun _ => keeps_print _

theorem keeps_features [Feature φ] (registry : Registry σ φ) (category : Option String) :
    Keeps contents (features registry category : Run (StateM ω) Unit) := by
  unfold features
  split
  · exact keeps_print _
  · exact keeps_throw _

theorem keeps_last [IntervalSettings σ] {store : Store (StateM ω)} {registry : Registry σ φ}
    (restoring : Spares contents (Archive.restore store registry).run) (config : Config) :
    Keeps contents (last (pure store) registry config) := by
  rw [last, pure_bind]
  apply keeps_bind (keeps_attempt _ restoring)
  intro restored
  cases restored with
  | none => exact keeps_note _
  | some report =>
      refine keeps_bind (keeps_warn _) fun _ => ?_
      refine keeps_bind (keeps_writtenIn registry config _ report.plan) fun written => ?_
      dsimp only
      split
      · exact keeps_bind (keeps_note _) fun _ => keeps_print _
      · exact keeps_print _

end Commands

end Run
end PracticePlan
