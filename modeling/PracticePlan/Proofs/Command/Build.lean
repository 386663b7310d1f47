import PracticePlan.Proofs.Catalog.Documents
import PracticePlan.Proofs.Command.Frame

namespace PracticePlan
namespace Run

open Notation

/-!
# What a build commits

Building reads a plan, makes its timeline and prints it, and only then opens
the store.  Everything before that leaves the store alone, and it succeeds only
with a plan that has a timeline.  All that is left to do then is one
replacement of a text, which is made or not made.

A build therefore changes what the archive holds exactly when it succeeds, and
then to the plan that is in its input (`build_of_isMap`).
-/

variable {ω κ σ φ : Type} [Files (StateM ω)]

/-! ## The plan in a file -/

/-- The text of a file as the world has it. -/
def textIn? (path : String) (world : ω) : Option String :=
  ((Files.read path : ExceptT FileFault (StateM ω) String).run.run world).1.toOption

/-- The plan in a file, in the notation of the file and called after the file when
it has no name. -/
def planIn? (registry : Registry σ φ) (config : Config) (path : String) (world : ω) :
    Option (Plan σ) :=
  (textIn? path world).bind fun text =>
    (Codec.ofFormat registry config.defaultCategory
        ((Format.ofPath? path).getD (.detect text))).toOption.bind fun codec =>
      (codec.readPlan registry text).toOption.map fun report => named report.plan path

section Plans

variable {registry : Registry σ φ} {config : Config} {path : String} {world : ω}

theorem rows_named (plan : Plan σ) (path : String) : (named plan path).rows = plan.rows := by
  unfold named
  split
  · rfl
  · rfl

/-- The rows of the plan in a file are given by a notation. -/
theorem isGiven_of_planIn? {plan : Plan σ}
    (known : planIn? registry config path world = some plan) :
    ∀ row ∈ plan.rows, IsGiven registry row := by
  rcases Option.bind_eq_some_iff.mp known with ⟨text, -, known⟩
  rcases Option.bind_eq_some_iff.mp known with ⟨codec, opened, known⟩
  rcases Option.map_eq_some_iff.mp known with ⟨report, read, rfl⟩
  intro row member
  rw [rows_named] at member
  exact isGiven_of_mem_readPlan (Except.toOption_eq_some_iff.mp opened)
    (Except.toOption_eq_some_iff.mp read) member

/-- What is read is the plan in the file, before it is called after the file. -/
theorem planIn?_of_yields_readPlan {plan : Plan σ} {source : Format} {after : ω}
    (yielded : Yields (readPlan registry config path) world (plan, source) after) :
    planIn? registry config path world = some (named plan path) := by
  rcases exists_of_yields_bind yielded with ⟨⟨text, format⟩, between, input, yielded⟩
  dsimp only at yielded
  rcases exists_of_yields_bind input with ⟨found, _, read, detected⟩
  rcases eq_of_yields_pure detected with ⟨rfl, rfl⟩
  rcases exists_of_yields_bind yielded with ⟨codec, _, chosen, yielded⟩
  rcases exists_of_yields_bind yielded with ⟨report, _, parsed, yielded⟩
  rcases exists_of_yields_bind yielded with ⟨_, _, -, yielded⟩
  rcases eq_of_yields_pure yielded with ⟨rfl, rfl⟩
  rw [planIn?, textIn?, eq_ok_of_yields_attempt read]
  dsimp only [Except.toOption, Option.bind]
  rw [eq_ok_of_yields_accept chosen]
  dsimp only [Except.toOption]
  rw [eq_ok_of_yields_accept parsed]
  rfl

end Plans

/-! ## Building -/

variable [IntervalSettings σ] [Feature φ]

/-- The plan to be committed, once its timeline has been printed. -/
def prepared (registry : Registry σ φ) (config : Config) (input : String) :
    Run (StateM ω) (Plan σ) := do
  let (read, _) ← readPlan registry config input
  let plan := named read input
  let timeline ← accept .build
    (Timeline.ofPlan registry (.ofMinutes config.maxTotalMinutes) plan)
  print (Printout.timeline timeline)
  return plan

/-- A build commits the plan that it has prepared. -/
theorem build_eq_bind (openStore : Run (StateM ω) (Store (StateM ω))) (registry : Registry σ φ)
    (config : Config) (input : String) (commits : Bool) :
    build openStore registry config input commits =
      prepared registry config input >>= fun plan =>
        if commits then openStore >>= fun store => attempt .archive (Archive.commit store plan)
        else pure () := by
  simp only [build, prepared, bind_assoc, pure_bind]

theorem keeps_prepared {contents : ω → κ} (reading : ReadingSpares contents)
    (registry : Registry σ φ) (config : Config) (input : String) :
    Keeps contents (prepared registry config input) := by
  refine keeps_bind (keeps_readPlan reading registry config input) fun read => ?_
  refine keeps_bind (keeps_accept _ _) fun timeline => ?_
  exact keeps_bind (keeps_print _) fun _ => keeps_pure _

/-- What is prepared is the plan in the input, and it has a timeline. -/
theorem planIn?_of_yields_prepared {registry : Registry σ φ} {config : Config} {input : String}
    {world after : ω} {plan : Plan σ}
    (yielded : Yields (prepared registry config input) world plan after) :
    planIn? registry config input world = some plan ∧
      ∃ timeline, Timeline.ofPlan registry (.ofMinutes config.maxTotalMinutes) plan =
        .ok timeline := by
  rcases exists_of_yields_bind yielded with ⟨⟨read, source⟩, between, given, yielded⟩
  dsimp only at yielded
  rcases exists_of_yields_bind yielded with ⟨timeline, _, accepted, yielded⟩
  rcases exists_of_yields_bind yielded with ⟨_, _, -, yielded⟩
  rcases eq_of_yields_pure yielded with rfl
  exact ⟨planIn?_of_yields_readPlan given, timeline, eq_ok_of_yields_accept accepted⟩

theorem keeps_build_without_commit {contents : ω → κ} (reading : ReadingSpares contents)
    (openStore : Run (StateM ω) (Store (StateM ω))) (registry : Registry σ φ) (config : Config)
    (input : String) : Keeps contents (build openStore registry config input false) := by
  rw [build_eq_bind]
  exact keeps_bind (keeps_prepared reading registry config input) fun _ => keeps_pure ()

/-- A build that commits replaces what the archive holds by the plan in its
input, which has a timeline, or fails and changes nothing. -/
theorem build_of_isMap {store : Store (StateM ω)} {contents : ω → String → Option String}
    (map : store.IsMap contents) (reading : ReadingSpares contents) (registry : Registry σ φ)
    (config : Config) (input : String) (printed : Printed) (world : ω) :
    match follow (build (pure store) registry config input true) printed world with
    | ((.ok (), _), after) => ∃ plan timeline,
        planIn? registry config input world = some plan ∧
        Timeline.ofPlan registry (.ofMinutes config.maxTotalMinutes) plan = .ok timeline ∧
        contents after =
          Function.update (contents world) Archive.key (some (Item.writePlan plan))
    | ((.error _, _), after) => contents after = contents world := by
  have kept := keeps_prepared reading registry config input printed world
  rw [build_eq_bind, follow_bind]
  cases outcome : follow (prepared registry config input) printed world with
  | mk rest between =>
      rw [outcome] at kept
      rcases rest with ⟨error | plan, later⟩
      · exact kept
      · rcases planIn?_of_yields_prepared ⟨printed, later, outcome⟩ with
          ⟨known, timeline, built⟩
        -- Nothing has touched the store so far, so the commit alone decides.
        have committed := Archive.commit_of_isMap map plan between
        dsimp only
        rw [if_pos rfl, pure_bind, follow_attempt]
        generalize (Archive.commit store plan).run.run between = result at committed ⊢
        rcases result with ⟨error | done, after⟩
        · exact committed.trans kept
        · exact ⟨plan, timeline, known, built, kept ▸ committed⟩

end Run
end PracticePlan
