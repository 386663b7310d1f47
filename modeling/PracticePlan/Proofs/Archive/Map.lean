import Mathlib.Logic.Function.Basic
import PracticePlan.Archive.Basic
import PracticePlan.Proofs.Outcome

namespace PracticePlan

/-!
# Stores as maps

A store is a map from keys to texts when it can be told from the world it works
in what it holds.  A key gets the text that is held under it.  Putting a text
changes what is held under its key, or fails and changes nothing.  Nothing is
said of how the texts are kept.  The store in memory is such a map.

Over such a store the archive reads and replaces a single text.
-/

variable {ω κ α : Type}

/-- A step leaves what is read off the world as it was. -/
def Spares (contents : ω → κ) (step : StateM ω α) : Prop :=
  ∀ world, contents (step.run world).2 = contents world

/-- A store is the map that its contents are in every world. -/
structure Store.IsMap (store : Store (StateM ω)) (contents : ω → String → Option String) :
    Prop where
  get : ∀ key world, ((store.get key).run.run world).1 = .ok (contents world key)
  spares : ∀ key, Spares contents (store.get key).run
  put : ∀ key text world, match (store.put key text).run.run world with
    | (.ok (), after) => contents after = Function.update (contents world) key (some text)
    | (.error _, after) => contents after = contents world

/-- The store in memory is the map of its entries. -/
theorem Memory.isMap_store :
    Memory.store.IsMap fun memory key => Named.value? key memory where
  get _ _ := rfl
  spares _ _ := rfl
  put key text memory := by
    change (fun other => Named.value? other (Named.put key text memory)) = _
    funext other
    by_cases same : other = key
    · rw [same, Function.update_self, Named.value?_put_self]
    · rw [Function.update_of_ne same, Named.value?_put_of_ne text memory (Ne.symm same)]

/-- A step that fails in its own way does to the world what it did before. -/
theorem run_adapt {ε δ : Type} (wrap : ε → δ) (step : ExceptT ε (StateM ω) α) (world : ω) :
    (step.adapt wrap).run.run world =
      ((step.run.run world).1.mapError wrap, (step.run.run world).2) :=
  rfl

namespace Archive

variable {σ φ : Type} {store : Store (StateM ω)}
variable {contents : ω → String → Option String}

/-- What the archive makes of the text it finds. -/
def reread (registry : Registry σ φ) :
    Option String → Except ArchiveError (Option (Notation.Report σ))
  | none => .ok none
  | some text => ((Notation.Item.readPlan registry text).mapError .reading).map some

/-- Restoring gets the text under the key of the archive and reads it. -/
theorem run_restore (store : Store (StateM ω)) (registry : Registry σ φ) (world : ω) :
    (restore store registry).run.run world =
      ((((store.get key).run.run world).1.mapError .store).bind (reread registry),
        ((store.get key).run.run world).2) := by
  simp only [restore, ExceptT.run_bind, StateT.run_bind]
  simp only [bind, run_adapt]
  rcases (store.get key).run.run world with ⟨error | _ | text, after⟩
  · rfl
  · rfl
  · simp only [Except.mapError_ok, Except.bind, reread]
    cases Notation.Item.readPlan registry text with
    | error cause => rfl
    | ok report => rfl

theorem restore_of_isMap (map : store.IsMap contents) (registry : Registry σ φ) (world : ω) :
    ((restore store registry).run.run world).1 = reread registry (contents world key) := by
  rw [run_restore, map.get]
  rfl

theorem spares_restore (map : store.IsMap contents) (registry : Registry σ φ) :
    Spares contents (restore store registry).run := by
  intro world
  rw [run_restore]
  exact map.spares key world

/-- Committing replaces the text under the key of the archive, or changes nothing. -/
theorem commit_of_isMap [IntervalSettings σ] (map : store.IsMap contents) (plan : Plan σ)
    (world : ω) :
    match (commit store plan).run.run world with
    | (.ok (), after) => contents after =
        Function.update (contents world) key (some (Notation.Item.writePlan plan))
    | (.error _, after) => contents after = contents world := by
  have outcome := map.put key (Notation.Item.writePlan plan) world
  rw [commit, run_adapt]
  generalize (store.put key (Notation.Item.writePlan plan)).run.run world = result at outcome ⊢
  rcases result with ⟨error | done, after⟩
  · exact outcome
  · exact outcome

end Archive
end PracticePlan
