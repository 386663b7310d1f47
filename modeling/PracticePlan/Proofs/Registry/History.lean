import PracticePlan.Proofs.Outcome
import PracticePlan.Proofs.Registry.Entries
import PracticePlan.Registry.Basic

namespace PracticePlan

/-!
# Histories of registrations

A registry comes about by attempts to register categories.  An attempt succeeds
when the category is sound, whatever has been registered before, and otherwise
leaves the registry as it is.  A category comes about by adding feature types,
of which the last one with a name stays.

After any history the registry is determined by the attempts that succeeded
(`Records`).  Its names are distinct, each finds the last category accepted under
it, and a feature type that is found without its category leads back to the
category it was found in.
-/

variable {σ φ : Type}

/-! ## Categories that can be registered -/

/-- Every type of the category belongs to it and has a schema that passes its check. -/
def Category.IsSound (category : Category σ φ) : Prop :=
  ∀ type ∈ category.types, type.category = category.name ∧
    Schema.check (type.owner category.name) type.schema = .ok ()

theorem FeatureType.checkIn_eq_ok_iff {category : String} {type : FeatureType σ φ} :
    type.checkIn category = .ok () ↔ type.category = category ∧
      Schema.check (type.owner category) type.schema = .ok () := by
  unfold checkIn
  split
  · next own => rw [Except.mapError_eq_ok_iff, and_iff_right own]
  · next foreign =>
      constructor
      · intro impossible
        cases impossible
      · exact fun both => absurd both.1 foreign

theorem Category.check_eq_ok_iff_isSound {category : Category σ φ} :
    category.check = .ok () ↔ category.IsSound := by
  unfold check IsSound
  induction category.types with
  | nil => simp [pure, Except.pure]
  | cons type rest inductionHypothesis =>
      rw [List.forall_mem_cons, ← inductionHypothesis, ← FeatureType.checkIn_eq_ok_iff]
      exact Except.then_eq_ok_iff

instance (category : Category σ φ) : Decidable category.IsSound :=
  match passed : category.check with
  | .ok () => isTrue (Category.check_eq_ok_iff_isSound.mp passed)
  | .error _ => isFalse fun sound => by
      rw [Category.check_eq_ok_iff_isSound.mpr sound] at passed
      cases passed

/-! ## Drafts -/

/-- How a category is made: it starts without types, and types are added one
after the other. -/
structure Draft (σ φ : Type) where
  bare : Category σ φ
  bare_types : bare.types = []
  added : List (FeatureType σ φ)

namespace Draft

def name (draft : Draft σ φ) : String :=
  draft.bare.name

def category (draft : Draft σ φ) : Category σ φ :=
  draft.added.foldl Category.withType draft.bare

end Draft

theorem Category.name_foldl_withType (category : Category σ φ) (added : List (FeatureType σ φ)) :
    (added.foldl withType category).name = category.name := by
  induction added generalizing category with
  | nil => rfl
  | cons type rest inductionHypothesis => exact inductionHypothesis (category.withType type)

theorem Category.types_foldl_withType (category : Category σ φ)
    (added : List (FeatureType σ φ)) :
    (added.foldl withType category).types =
      Named.replaceAll FeatureType.name added category.types := by
  induction added generalizing category with
  | nil => rfl
  | cons type rest inductionHypothesis => exact inductionHypothesis (category.withType type)

namespace Draft

theorem name_category (draft : Draft σ φ) : draft.category.name = draft.name :=
  Category.name_foldl_withType draft.bare draft.added

theorem types_category (draft : Draft σ φ) :
    draft.category.types = Named.replaceAll FeatureType.name draft.added [] := by
  rw [category, Category.types_foldl_withType, draft.bare_types]

theorem nodup_names_types (draft : Draft σ φ) :
    (draft.category.types.map FeatureType.name).Nodup := by
  rw [types_category]
  exact Named.nodup_names_replaceAll draft.added

/-- A name finds the last type that was added under it. -/
theorem type?_category (draft : Draft σ φ) (name : String) :
    draft.category.type? name = Named.last? FeatureType.name name draft.added := by
  rw [Category.type?, types_category, Named.find?_replaceAll]

end Draft

namespace Registry

/-! ## Attempts -/

/-- A registry after an attempt to register a category. -/
def attempt (registry : Registry σ φ) (category : Category σ φ) : Registry σ φ :=
  match registry.register category with
  | .ok changed => changed
  | .error _ => registry

/-- The registry that a history of attempts leaves. -/
def after (history : List (Draft σ φ)) : Registry σ φ :=
  history.foldl (fun registry draft => registry.attempt draft.category) empty

/-- The attempts of a history that succeed. -/
def accepted (history : List (Draft σ φ)) : List (Draft σ φ) :=
  history.filter fun draft => draft.category.IsSound

theorem register_eq_ok_iff {registry changed : Registry σ φ} {category : Category σ φ} :
    registry.register category = .ok changed ↔ category.IsSound ∧
      changed = ⟨Named.replace Category.name category registry.categories⟩ := by
  rw [register, Except.map_eq_ok_iff, ← Category.check_eq_ok_iff_isSound]
  constructor
  · rintro ⟨_, passed, rfl⟩
    exact ⟨passed, rfl⟩
  · rintro ⟨passed, rfl⟩
    exact ⟨(), passed, rfl⟩

theorem attempt_of_isSound (registry : Registry σ φ) {category : Category σ φ}
    (sound : category.IsSound) :
    registry.attempt category = ⟨Named.replace Category.name category registry.categories⟩ := by
  rw [attempt, register_eq_ok_iff.mpr ⟨sound, rfl⟩]

theorem attempt_of_not_isSound (registry : Registry σ φ) {category : Category σ φ}
    (unsound : ¬ category.IsSound) : registry.attempt category = registry := by
  unfold attempt
  split
  · next registered => exact absurd (register_eq_ok_iff.mp registered).1 unsound
  · rfl

/-! ## Histories -/

/-- What is refused leaves no trace. -/
theorem after_accepted (history : List (Draft σ φ)) : after (accepted history) = after history := by
  rw [after, accepted, List.foldl_filter, after]
  congr 1
  funext registry draft
  by_cases sound : draft.category.IsSound
  · rw [if_pos (decide_eq_true sound)]
  · rw [if_neg (by simpa using sound), attempt_of_not_isSound registry sound]

/-- Accepted categories are put into the registry one after the other. -/
theorem categories_after (history : List (Draft σ φ)) :
    (after history).categories =
      Named.replaceAll Category.name ((accepted history).map Draft.category) [] := by
  have sounds : ∀ draft ∈ accepted history, draft.category.IsSound := fun draft member =>
    of_decide_eq_true (List.mem_filter.mp member).2
  rw [← after_accepted]
  generalize accepted history = drafts at sounds
  suffices put : ∀ registry : Registry σ φ,
      (drafts.foldl (fun known draft => known.attempt draft.category) registry).categories =
        Named.replaceAll Category.name (drafts.map Draft.category) registry.categories from
    put empty
  induction drafts with
  | nil => exact fun _ => rfl
  | cons draft rest inductionHypothesis =>
      intro registry
      rw [List.forall_mem_cons] at sounds
      rw [List.foldl_cons, inductionHypothesis sounds.2, attempt_of_isSound registry sounds.1]
      rfl

/-- A category and the type with a name that it has, when no category listed
before it has one with that name. -/
def IsEarliest (registry : Registry σ φ) (name : String) (category : Category σ φ)
    (type : FeatureType σ φ) : Prop :=
  ∃ before behind, registry.categories = before ++ category :: behind ∧
    category.type? name = some type ∧ ∀ earlier ∈ before, earlier.type? name = none

/-- What a registry is when the drafts `accepted` were registered in turn. -/
structure Records (accepted : List (Draft σ φ)) (registry : Registry σ φ) : Prop where
  distinct : (registry.categories.map Category.name).Nodup
  /-- Every name stands where it was accepted first. -/
  listed : registry.categories.map Category.name = (accepted.map Draft.name).eraseDups
  /-- A name finds the last category accepted under it, as a whole. -/
  category : ∀ name, registry.category? name =
    (Named.last? Draft.name name accepted).map Draft.category
  distinctTypes : ∀ category ∈ registry.categories, (category.types.map FeatureType.name).Nodup
  /-- In it a name finds the last type added under it. -/
  type : ∀ category name, registry.type? category name =
    (Named.last? Draft.name category accepted).bind fun draft =>
      Named.last? FeatureType.name name draft.added
  sound : ∀ category ∈ registry.categories, category.IsSound
  found : ∀ name type, registry.findType? name = some type ↔
    ∃ category, registry.IsEarliest name category type
  /-- A type that is found leads back to the category it was found in. -/
  resolved : ∀ name category type, registry.IsEarliest name category type →
    registry.category? type.category = some category ∧
      registry.type? type.category name = some type

theorem findType?_eq_some_iff {registry : Registry σ φ} {name : String} {type : FeatureType σ φ} :
    registry.findType? name = some type ↔ ∃ category, registry.IsEarliest name category type := by
  unfold findType? IsEarliest
  rw [List.findSome?_eq_some_iff]
  constructor
  · rintro ⟨before, category, behind, split⟩
    exact ⟨category, before, behind, split⟩
  · rintro ⟨category, before, behind, split⟩
    exact ⟨before, category, behind, split⟩

/-- In a registry of sound categories with distinct names the category of a type
is the one that the type was found in. -/
theorem category?_of_isEarliest {registry : Registry σ φ}
    (distinct : (registry.categories.map Category.name).Nodup)
    (sound : ∀ category ∈ registry.categories, category.IsSound) {name : String}
    {category : Category σ φ} {type : FeatureType σ φ}
    (earliest : registry.IsEarliest name category type) :
    registry.category? type.category = some category := by
  rcases earliest with ⟨before, behind, split, offered, -⟩
  have member : category ∈ registry.categories := by
    rw [split]
    exact List.mem_append_right before List.mem_cons_self
  have own : type.category = category.name :=
    (sound category member type (List.mem_of_find?_eq_some offered)).1
  rw [own]
  exact Named.find?_of_mem distinct member

theorem last?_category (drafts : List (Draft σ φ)) (name : String) :
    Named.last? Category.name name (drafts.map Draft.category) =
      (Named.last? Draft.name name drafts).map Draft.category := by
  rw [Named.last?, Named.find?, ← List.map_reverse, List.find?_map]
  simp only [Function.comp_def, Draft.name_category]
  rfl

theorem category?_after (history : List (Draft σ φ)) (name : String) :
    (after history).category? name =
      (Named.last? Draft.name name (accepted history)).map Draft.category := by
  rw [category?, categories_after, Named.find?_replaceAll, last?_category]

theorem nodup_names_after (history : List (Draft σ φ)) :
    ((after history).categories.map Category.name).Nodup := by
  rw [categories_after]
  exact Named.nodup_names_replaceAll _

/-- Every category of the registry is one that was accepted. -/
theorem exists_draft_of_mem_after {history : List (Draft σ φ)} {category : Category σ φ}
    (member : category ∈ (after history).categories) :
    ∃ draft, draft ∈ accepted history ∧ draft.category = category := by
  have found : (after history).category? category.name = some category :=
    Named.find?_of_mem (nodup_names_after history) member
  rw [category?_after] at found
  rcases Option.map_eq_some_iff.mp found with ⟨draft, last, same⟩
  exact ⟨draft, Named.mem_of_last? last, same⟩

theorem isSound_of_mem_after {history : List (Draft σ φ)} {category : Category σ φ}
    (member : category ∈ (after history).categories) : category.IsSound := by
  rcases exists_draft_of_mem_after member with ⟨draft, drafted, rfl⟩
  exact of_decide_eq_true (List.mem_filter.mp drafted).2

/-- Whatever is registered, what the registry answers is decided by the attempts
that succeeded, and an attempt succeeds exactly when its category is sound. -/
theorem records_after (history : List (Draft σ φ)) :
    Records (accepted history) (after history) ∧
      after (accepted history) = after history ∧
      ∀ (registry : Registry σ φ) (category : Category σ φ),
        (∃ changed, registry.register category = .ok changed) ↔ category.IsSound := by
  refine ⟨⟨nodup_names_after history, ?listed, category?_after history, ?distinctTypes, ?type,
    fun _ => isSound_of_mem_after, fun _ _ => findType?_eq_some_iff, ?resolved⟩,
    after_accepted history, ?succeeds⟩
  case listed =>
    rw [categories_after, Named.names_replaceAll, List.map_map]
    congr 2
    funext draft
    exact draft.name_category
  case distinctTypes =>
    intro category member
    rcases exists_draft_of_mem_after member with ⟨draft, -, rfl⟩
    exact draft.nodup_names_types
  case type =>
    intro category name
    rw [type?, category?_after, Option.bind_map]
    congr 1
    funext draft
    exact draft.type?_category name
  case resolved =>
    intro name category type earliest
    have registered := category?_of_isEarliest (nodup_names_after history)
      (fun _ => isSound_of_mem_after) earliest
    rcases earliest with ⟨_, _, -, offered, -⟩
    exact ⟨registered, by rw [type?, registered, Option.bind_some, offered]⟩
  case succeeds =>
    intro registry category
    constructor
    · rintro ⟨changed, registered⟩
      exact (register_eq_ok_iff.mp registered).1
    · exact fun sound => ⟨_, register_eq_ok_iff.mpr ⟨sound, rfl⟩⟩

/-- The piano as a category to which no type has been added. -/
def piano (displayName : String) : Category Unit Unit where
  name := "Piano"
  displayName
  types := []
  defaultSettings := ()
  settingsOfJson := fun _ => .ok ()
  settingsOfLiteral? := fun _ => none

def drill (category name : String) : FeatureType Unit Unit :=
  ⟨category, name, name, [], fun _ _ => .ok ()⟩

/-- A first draft, a second one under the same name, and a third one with a
type of another category. -/
def lessons : List (Draft Unit Unit) :=
  [⟨piano "First draft", rfl, [drill "Piano" "Scale"]⟩,
    ⟨piano "Second draft", rfl, [drill "Piano" "Trill", drill "Piano" "Chord"]⟩,
    ⟨piano "Third draft", rfl, [drill "Organ" "Fugue"]⟩]

/-- The second draft takes the place of the first, and the third is refused. -/
theorem records_lessons :
    Records (lessons.take 2) (after lessons) ∧
      (after lessons).categories.map Category.name = ["Piano"] ∧
      ((after lessons).category? "Piano").map Category.displayName = some "Second draft" ∧
      ((after lessons).type? "Piano" "Chord").isSome = true ∧
      ((after lessons).type? "Piano" "Scale").isNone = true ∧
      ((after lessons).type? "Piano" "Fugue").isNone = true := by
  have first : accepted lessons = lessons.take 2 := rfl
  have recorded : Records (lessons.take 2) (after lessons) := first ▸ (records_after lessons).1
  refine ⟨recorded, recorded.listed, ?_, ?_, ?_, ?_⟩
  · rw [recorded.category]
    rfl
  · rw [recorded.type]
    rfl
  · rw [recorded.type]
    rfl
  · rw [recorded.type]
    rfl

end Registry
end PracticePlan
