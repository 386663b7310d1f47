import PracticePlan.Proofs.Archive.Desk
import PracticePlan.Proofs.Command.Build

namespace PracticePlan

/-!
# Sessions

In a session one command is run after the other with the catalog, over one
store and with one configuration.  Between two commands the world may change by
itself, for instance when the user edits a plan.

Only the archive writes to the store.  Neither reading a file nor a change from
outside touches what the store holds, and where a command writes a file, that
file is not the store's.

The archive then holds the plan of the last build that has committed and has
succeeded, and nothing before there is one (`restore_after`).  A step changes
the store only when it is such a build, and the run lemma carries from step to
step that the text in the store is the document of that plan.
-/

open Notation

namespace Session

/-! ## What is remembered -/

section Remembering

variable {ω : Type} {store : Store (StateM ω)} {contents : ω → String → Option String}

/-- The archive holds the document of a plan that was read, or nothing. -/
structure Remembers (contents : ω → String → Option String) (world : ω)
    (plan? : Option (Plan CatalogSettings)) : Prop where
  document : contents world Archive.key = plan?.map Item.writePlan
  given : ∀ plan ∈ plan?, ∀ row ∈ plan.rows, IsGiven Catalog.registry row

/-- What is remembered comes back as it was, with nothing to warn of. -/
theorem restore_of_remembers (map : store.IsMap contents) {world : ω}
    {plan? : Option (Plan CatalogSettings)} (remembers : Remembers contents world plan?) :
    ((Archive.restore store Catalog.registry).run.run world).1 =
      .ok (plan?.map fun plan => ⟨plan, []⟩) := by
  rw [Archive.restore_of_isMap map, remembers.document]
  cases plan? with
  | none => rfl
  | some plan =>
      have back := Catalog.readPlan_writePlan_of_isGiven (remembers.given plan rfl)
      rw [Option.map_some, Archive.reread, back]
      rfl

end Remembering

/-! ## What happens -/

/-- What happens in a session: a command is run, or the world changes by itself. -/
inductive Event (ω : Type) where
  | command (command : Command)
  | outside (change : ω → ω)

variable {ω κ : Type} [Files (StateM ω)]

/-- What happens touches the store through the archive only. -/
def Event.Spares (contents : ω → κ) : Event ω → Prop
  | .command (.convert _ _ (some output)) => Run.WritingSpares contents output
  | .command _ => True
  | .outside change => ∀ world, contents (change world) = contents world

section Steps

variable (store : Store (StateM ω)) (config : Config)

/-- The outcome of a command, and the world it leaves. -/
def ran (command : Command) (world : ω) : Outcome × ω :=
  (Run.outcome (Run.command (pure store) Catalog.registry config command)).run world

def step (world : ω) : Event ω → ω
  | .command command => (ran store config command world).2
  | .outside change => change world

/-- The world after all that happens. -/
def after (world : ω) (events : List (Event ω)) : ω :=
  events.foldl (step store config) world

/-- The plan in the input of a build that commits and succeeds. -/
def built? (world : ω) : Event ω → Option (Plan CatalogSettings)
  | .command (.build input true) =>
      if (ran store config (.build input true) world).1.code = 0 then
        Run.planIn? Catalog.registry config input world
      else none
  | _ => none

/-- The plan that was built last of all that happens. -/
def lastBuilt? (world : ω) : List (Event ω) → Option (Plan CatalogSettings)
  | [] => none
  | event :: rest =>
      (lastBuilt? (step store config world event) rest).or (built? store config world event)

end Steps

variable {store : Store (StateM ω)} {contents : ω → String → Option String} {config : Config}

/-- The rows of a plan that is built are given by a notation. -/
theorem given_of_built? {world : ω} {event : Event ω} {plan : Plan CatalogSettings}
    (known : built? store config world event = some plan) :
    ∀ row ∈ plan.rows, IsGiven Catalog.registry row := by
  unfold built? at known
  split at known
  · split at known
    · exact Run.isGiven_of_planIn? known
    · cases known
  · cases known

/-! ## One step -/

/-- Commands other than a build that commits leave the store alone. -/
theorem keeps_command (map : store.IsMap contents) (reading : Run.ReadingSpares contents)
    {command : Command} (other : ∀ input, command ≠ .build input true)
    (spared : (Event.command command : Event ω).Spares contents) :
    Run.Keeps contents (Run.command (pure store) Catalog.registry config command) := by
  cases command with
  | convert input target output =>
      apply Run.keeps_convert reading
      intro path given
      cases given
      exact spared
  | outline input => exact Run.keeps_outline reading Catalog.registry config input
  | build input commits =>
      cases commits with
      | false => exact Run.keeps_build_without_commit reading _ Catalog.registry config input
      | true => exact absurd rfl (other input)
  | features category => exact Run.keeps_features Catalog.registry category
  | last => exact Run.keeps_last (Archive.spares_restore map Catalog.registry) config

theorem world_ran (command : Command) (world : ω) : (ran store config command world).2 =
    (Run.follow (Run.command (pure store) Catalog.registry config command) ⟨"", ""⟩ world).2 := by
  rw [ran, Run.run_outcome]
  rcases Run.follow (Run.command (pure store) Catalog.registry config command) ⟨"", ""⟩ world with
    ⟨⟨error | done, printed⟩, after⟩
  · rfl
  · rfl

/-- A build that commits succeeds with the plan in its input, which then has a
timeline and takes the place of the text in the archive, or it leaves the store alone. -/
theorem ran_build (map : store.IsMap contents) (reading : Run.ReadingSpares contents)
    (config : Config) (input : String) (world : ω) :
    ((ran store config (.build input true) world).1.code = 0 ∧ ∃ plan timeline,
        Run.planIn? Catalog.registry config input world = some plan ∧
        Timeline.ofPlan Catalog.registry (.ofMinutes config.maxTotalMinutes) plan =
          .ok timeline ∧
        contents (ran store config (.build input true) world).2 =
          Function.update (contents world) Archive.key (some (Item.writePlan plan))) ∨
      ((ran store config (.build input true) world).1.code ≠ 0 ∧
        contents (ran store config (.build input true) world).2 = contents world) := by
  have built := Run.build_of_isMap map reading Catalog.registry config input ⟨"", ""⟩ world
  have building : Run.command (pure store) Catalog.registry config (.build input true) =
      Run.build (pure store) Catalog.registry config input true := rfl
  rw [ran, Run.run_outcome, building]
  generalize Run.follow (Run.build (pure store) Catalog.registry config input true) ⟨"", ""⟩
    world = outcome at built ⊢
  rcases outcome with ⟨⟨error | done, printed⟩, after⟩
  · exact .inr ⟨Nat.one_ne_zero, built⟩
  · exact .inl ⟨rfl, built⟩

/-- A step replaces the text in the archive when it is a build that commits and
succeeds, and leaves the store alone otherwise. -/
theorem contents_step (map : store.IsMap contents) (reading : Run.ReadingSpares contents)
    (config : Config) {event : Event ω} (spared : event.Spares contents) (world : ω) :
    contents (step store config world event) = match built? store config world event with
      | some plan => Function.update (contents world) Archive.key (some (Item.writePlan plan))
      | none => contents world := by
  cases event with
  | outside change => exact spared world
  | command command =>
      by_cases commits : ∃ input, command = .build input true
      · rcases commits with ⟨input, rfl⟩
        rcases ran_build map reading config input world with
          ⟨success, plan, timeline, known, -, replaced⟩ | ⟨failure, kept⟩
        · rw [step, built?, if_pos success, known]
          exact replaced
        · rw [step, built?, if_neg failure]
          exact kept
      · have other : ∀ input, command ≠ .build input true :=
          fun input same => commits ⟨input, same⟩
        have nothing : built? store config world (.command command) = none := by
          unfold built?
          split
          · next same => exact absurd (Event.command.inj same) (other _)
          · rfl
        rw [step, nothing, world_ran]
        exact keeps_command map reading other spared _ world

/-! ## A session -/

/-- A plan that is built takes the place of what is remembered. -/
theorem remembers_step (map : store.IsMap contents) (reading : Run.ReadingSpares contents)
    (config : Config) {event : Event ω} (spared : event.Spares contents) {world : ω}
    {plan? : Option (Plan CatalogSettings)} (remembers : Remembers contents world plan?) :
    Remembers contents (step store config world event)
      ((built? store config world event).or plan?) := by
  have changed := contents_step map reading config spared world
  cases outcome : built? store config world event with
  | none =>
      rw [outcome] at changed
      exact ⟨(congrFun changed Archive.key).trans remembers.document, remembers.given⟩
  | some plan =>
      rw [outcome] at changed
      refine ⟨?_, ?_⟩
      · rw [changed]
        exact Function.update_self _ _ _
      · intro other same
        cases same
        exact given_of_built? outcome

/-- What was built last takes the place of what was remembered at first. -/
theorem remembers_after (map : store.IsMap contents) (reading : Run.ReadingSpares contents)
    (config : Config) {events : List (Event ω)}
    (spared : ∀ event ∈ events, event.Spares contents) {world : ω}
    {plan? : Option (Plan CatalogSettings)} (remembers : Remembers contents world plan?) :
    Remembers contents (after store config world events)
      ((lastBuilt? store config world events).or plan?) := by
  -- What is remembered changes with every step, so it is general in the induction.
  induction events generalizing world plan? with
  | nil => exact remembers
  | cons event rest inductionHypothesis =>
      rw [List.forall_mem_cons] at spared
      have stepped := remembers_step map reading config spared.1 remembers
      rw [lastBuilt?, Option.or_assoc]
      exact inductionHypothesis spared.2 stepped

/-- In a session over a store that was empty, the archive gives back the plan of
the last build that has committed and succeeded, and nothing before there is
one.  Such a build has made the whole timeline of the plan in its input.  No
other step changes what the store holds. -/
theorem restore_after (map : store.IsMap contents) (reading : Run.ReadingSpares contents)
    (config : Config) :
    (∀ start events, contents start Archive.key = none →
      (∀ event ∈ events, Event.Spares contents event) →
      ((Archive.restore store Catalog.registry).run.run (after store config start events)).1 =
        .ok ((lastBuilt? store config start events).map fun plan => ⟨plan, []⟩)) ∧
    (∀ world event, event.Spares contents →
      contents (step store config world event) = match built? store config world event with
        | some plan => Function.update (contents world) Archive.key (some (Item.writePlan plan))
        | none => contents world) ∧
    ∀ world input, (ran store config (.build input true) world).1.code = 0 →
      ∃ plan timeline, built? store config world (.command (.build input true)) = some plan ∧
        Run.planIn? Catalog.registry config input world = some plan ∧
        Timeline.ofPlan Catalog.registry (.ofMinutes config.maxTotalMinutes) plan =
          .ok timeline := by
  refine ⟨?_, ?_, ?_⟩
  · intro start events empty spared
    have nothing : Remembers contents start none := ⟨empty, fun plan member => nomatch member⟩
    have remembers := remembers_after map reading config spared nothing
    rw [Option.or_none] at remembers
    exact restore_of_remembers map remembers
  · exact fun world event spared => contents_step map reading config spared world
  · intro world input success
    rcases ran_build map reading config input world with
      ⟨-, plan, timeline, known, made, -⟩ | ⟨failure, -⟩
    · exact ⟨plan, timeline, (if_pos success).trans known, known, made⟩
    · exact absurd success failure

/-- A desk with a plan that fits into three hours and one that does not. -/
def evenings : Desk :=
  ⟨⟨"desk", .folder [("desk", .folder
    [("sunday.txt", .file "# Warm up\n1:00, Slow, Metronome, @BPM:90\n"),
      ("late.txt", .file "9:00:00, , Metronome\n")])]⟩, []⟩

/-- A build that succeeds, one that fails, one that does not commit, and a
conversion to a file. -/
def rehearsal : List (Event Desk) :=
  [.command (.build "sunday.txt" true), .command (.build "late.txt" true),
    .command (.build "sunday.txt" false),
    .command (.convert "late.txt" none (some "sunday.txt")), .command .last]

set_option maxRecDepth 4000 in
theorem restore_rehearsal : Desk.store.IsMap Desk.contents ∧
    Run.ReadingSpares Desk.contents ∧ Desk.contents evenings Archive.key = none ∧
    (∀ event ∈ rehearsal, event.Spares Desk.contents) ∧
    ((Archive.restore Desk.store Catalog.registry).run.run
        (after Desk.store .standard evenings rehearsal)).1 =
      .ok (some ⟨⟨"sunday", [.group ⟨1, "Warm up"⟩,
        .interval ⟨"1:00", "Slow", "Guitar", "Metronome", [], .guitar (.atTempo 90)⟩]⟩, []⟩) := by
  have reading : Run.ReadingSpares Desk.contents := fun _ => Desk.spares_withFolder _
  have spared : ∀ event ∈ rehearsal, event.Spares Desk.contents := by
    simp only [rehearsal, List.forall_mem_cons]
    exact ⟨trivial, trivial, trivial, fun _ => Desk.spares_withFolder _, trivial,
      fun _ member => nomatch member⟩
  have built : lastBuilt? Desk.store .standard evenings rehearsal =
      some ⟨"sunday", [.group ⟨1, "Warm up"⟩,
        .interval ⟨"1:00", "Slow", "Guitar", "Metronome", [], .guitar (.atTempo 90)⟩]⟩ := rfl
  have session := restore_after Desk.isMap_store reading .standard
  have restored := session.1 evenings rehearsal rfl spared
  rw [built] at restored
  exact ⟨Desk.isMap_store, reading, rfl, spared, restored⟩

end Session
end PracticePlan
