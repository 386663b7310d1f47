import PracticePlan.Proofs.Outcome
import PracticePlan.Schema.Basic

namespace PracticePlan

/-!
# The check of a schema, argument by argument

The check reads a schema from left to right and keeps two things in mind, the
names so far and the variadic argument among those so far.  What one argument may
be refused for, given these two, is `ArgSpec.faultAfter?`, and one step of the
check consists of that, the schema of a block and the arguments behind
(`Schema.checkFrom_cons`).

A schema passes exactly when it is clear and the schemas of its blocks pass
(`Schema.checkFrom_eq_ok_iff`).
-/

namespace ArgSpec

theorem nameFault?_eq_none_iff {names : List String} {spec : ArgSpec} :
    spec.nameFault? names = none ↔ spec.name ≠ "" ∧ spec.name ∉ names := by
  unfold nameFault?
  by_cases unnamed : spec.name = ""
  · simp [unnamed]
  · by_cases known : spec.name ∈ names
    · simp [unnamed, known]
    · simp [unnamed, known]

/-- What an argument that takes texts has to satisfy by itself. -/
theorem shapeFault?_eq_none_iff {spec : ArgSpec} :
    spec.shapeFault? = none ↔
      (spec.baseType = .choice → spec.labels ≠ []) ∧
        (spec.hint = .multiToggle →
          spec.isToggles = true ∧ ∀ label ∈ spec.labels, '-' ∉ label.toList) := by
  unfold shapeFault?
  by_cases unlabelled : spec.baseType = .choice ∧ spec.labels = []
  · rw [if_pos unlabelled]
    constructor
    · intro impossible
      cases impossible
    · rintro ⟨labelled, -⟩
      exact absurd unlabelled.2 (labelled unlabelled.1)
  · rw [if_neg unlabelled]
    have labelled : spec.baseType = .choice → spec.labels ≠ [] := fun choice none =>
      unlabelled ⟨choice, none⟩
    by_cases toggle : spec.hint = .multiToggle
    · rw [if_pos toggle]
      by_cases shape : spec.isToggles = true
      · rw [if_pos shape, Option.map_eq_none_iff, List.find?_eq_none]
        simp only [List.contains_eq_mem, decide_eq_true_eq]
        exact ⟨fun plain => ⟨labelled, fun _ => ⟨shape, plain⟩⟩, fun both => (both.2 toggle).2⟩
      · rw [if_neg shape]
        constructor
        · intro impossible
          cases impossible
        · exact fun both => absurd (both.2 toggle).1 shape
    · rw [if_neg toggle]
      exact ⟨fun _ => ⟨labelled, fun hint => absurd hint toggle⟩, fun _ => rfl⟩

/-- There is no first fault when neither of two looks finds one. -/
theorem first_eq_none_iff {first second : Option SchemaFault} :
    (first <|> second) = none ↔ first = none ∧ second = none := by
  cases first with
  | some fault => simp
  | none => simp

theorem first_eq_some_iff {first second : Option SchemaFault} {fault : SchemaFault} :
    (first <|> second) = some fault ↔ first = some fault ∨ first = none ∧ second = some fault := by
  cases first with
  | some fault => simp
  | none => simp

theorem slotFault?_eq_none_iff {before : Option String} {spec : ArgSpec} :
    spec.slotFault? before = none ↔ spec.shapeFault? = none ∧ before = none := by
  rw [slotFault?, first_eq_none_iff, Option.map_eq_none_iff]

theorem hint_of_isToggles {spec : ArgSpec} (toggles : spec.isToggles = true) :
    spec.hint = .multiToggle := by
  simp only [isToggles, Bool.and_eq_true, decide_eq_true_eq] at toggles
  exact toggles.1.1

theorem isVariadic_of_isToggles {spec : ArgSpec} (toggles : spec.isToggles = true) :
    spec.isVariadic = true := by
  simp only [isToggles, Bool.and_eq_true] at toggles
  exact toggles.2

theorem isBlock_of_isToggles {spec : ArgSpec} (toggles : spec.isToggles = true) :
    spec.isBlock = false := by
  simp only [isToggles, Bool.and_eq_true, decide_eq_true_eq] at toggles
  rw [isBlock, toggles.1.2]
  rfl

/-- What an argument may be refused for, given the names and the variadic argument
before it.  The schema of a block is not looked at. -/
def faultAfter? (names : List String) (before : Option String) (spec : ArgSpec) :
    Option SchemaFault :=
  spec.nameFault? names <|>
    if spec.isBlock then if spec.isVariadic then some (.variadicBlock spec.name) else none
    else spec.slotFault? before

/-- The variadic argument behind which the next argument stands. -/
def variadicAfter (before : Option String) (spec : ArgSpec) : Option String :=
  if !spec.isBlock && spec.isVariadic then some spec.name else before

/-- What an argument has to satisfy by itself. -/
structure IsSound (spec : ArgSpec) : Prop where
  named : spec.name ≠ ""
  singleBlock : spec.isBlock = true → spec.isVariadic = false
  labelled : spec.baseType = .choice → spec.labels ≠ []
  toggles : spec.isBlock = false → spec.hint = .multiToggle →
    spec.isToggles = true ∧ ∀ label ∈ spec.labels, '-' ∉ label.toList

theorem baseType_of_isBlock {spec : ArgSpec} (block : spec.isBlock = true) :
    spec.baseType = .block :=
  of_decide_eq_true block

theorem faultAfter?_eq_none_iff {names : List String} {before : Option String} {spec : ArgSpec} :
    spec.faultAfter? names before = none ↔
      spec.IsSound ∧ spec.name ∉ names ∧ (spec.isBlock = false → before = none) := by
  rw [faultAfter?, first_eq_none_iff, nameFault?_eq_none_iff]
  cases kind : spec.isBlock with
  | true =>
      have block := baseType_of_isBlock kind
      rw [if_pos rfl]
      constructor
      · rintro ⟨⟨named, fresh⟩, single⟩
        refine ⟨⟨named, ?_, ?_, ?_⟩, fresh, ?_⟩
        · exact fun _ => by simpa using single
        · simp [block]
        · simp [kind]
        · simp
      · rintro ⟨sound, fresh, -⟩
        exact ⟨⟨sound.named, fresh⟩, by simp [sound.singleBlock kind]⟩
  | false =>
      rw [if_neg Bool.false_ne_true, slotFault?_eq_none_iff, shapeFault?_eq_none_iff]
      constructor
      · rintro ⟨⟨named, fresh⟩, ⟨labelled, toggles⟩, first⟩
        refine ⟨⟨named, ?_, labelled, fun _ => toggles⟩, fresh, fun _ => first⟩
        simp [kind]
      · rintro ⟨sound, fresh, first⟩
        exact ⟨⟨sound.named, fresh⟩, ⟨sound.labelled, sound.toggles kind⟩, first rfl⟩

end ArgSpec

namespace Schema

theorem mem_positional_iff {schema : Schema} {spec : ArgSpec} :
    spec ∈ positional schema ↔ spec ∈ schema ∧ spec.isBlock = false := by
  rw [positional, List.mem_filter, Bool.not_eq_true']

theorem mem_positional_of_isToggles {schema : Schema} {spec : ArgSpec} (member : spec ∈ schema)
    (toggles : spec.isToggles = true) : spec ∈ positional schema :=
  mem_positional_iff.mpr ⟨member, ArgSpec.isBlock_of_isToggles toggles⟩

theorem hasVariadic_iff {schema : Schema} :
    hasVariadic schema = true ↔ ∃ spec ∈ positional schema, spec.isVariadic = true :=
  List.any_eq_true

theorem positional_cons_of_block {spec : ArgSpec} (block : spec.isBlock = true) (schema : Schema) :
    positional (spec :: schema) = positional schema :=
  List.filter_cons_of_neg (by simp [block])

theorem positional_cons_of_slot {spec : ArgSpec} (slot : spec.isBlock = false) (schema : Schema) :
    positional (spec :: schema) = spec :: positional schema :=
  List.filter_cons_of_pos (by simp [slot])

theorem positional_eq_nil {schema : Schema} (blocks : ∀ spec ∈ schema, spec.isBlock = true) :
    positional schema = [] := by
  apply List.filter_eq_nil_iff.mpr
  intro spec member
  simp [blocks spec member]

theorem refuse_eq_ok_iff {owner : String} {fault : Option SchemaFault} :
    refuse owner fault = .ok () ↔ fault = none := by
  cases fault with
  | none => simp [refuse]
  | some fault => simp [refuse]

theorem refuse_eq_error_iff {owner : String} {fault : Option SchemaFault} {error : SchemaError} :
    refuse owner fault = .error error ↔ error.owner = owner ∧ fault = some error.fault := by
  rcases error with ⟨reported, cause⟩
  cases fault with
  | none => simp [refuse]
  | some fault => simp [refuse, eq_comm]

/-! ## One step of the check -/

/-- An argument is checked by itself, then its schema if it is a block, and then
the arguments behind it. -/
theorem checkFrom_cons (owner : String) (names : List String) (before : Option String)
    (spec : ArgSpec) (rest : List ArgSpec) :
    checkFrom owner names before (spec :: rest) =
      (refuse owner (spec.faultAfter? names before)).bind fun _ =>
        (if spec.isBlock then checkNested (owner ++ "." ++ spec.name) spec else .ok ()).bind
          fun _ => checkFrom owner (spec.name :: names) (spec.variadicAfter before) rest := by
  rw [checkFrom, ArgSpec.faultAfter?, ArgSpec.variadicAfter]
  cases spec.nameFault? names with
  | some fault => rfl
  | none =>
      cases spec.isBlock with
      | true => cases spec.isVariadic <;> rfl
      | false => cases spec.slotFault? before <;> rfl

theorem checkFrom_cons_eq_ok_iff {owner : String} {names : List String} {before : Option String}
    {spec : ArgSpec} {rest : List ArgSpec} :
    checkFrom owner names before (spec :: rest) = .ok () ↔
      spec.faultAfter? names before = none ∧
        (spec.isBlock = true → checkNested (owner ++ "." ++ spec.name) spec = .ok ()) ∧
          checkFrom owner (spec.name :: names) (spec.variadicAfter before) rest = .ok () := by
  rw [checkFrom_cons, Except.then_eq_ok_iff, Except.then_eq_ok_iff, refuse_eq_ok_iff]
  cases spec.isBlock with
  | true => simp
  | false => simp

/-- The check fails at an argument itself, in the schema of a block, or behind. -/
theorem checkFrom_cons_eq_error_iff {owner : String} {names : List String}
    {before : Option String} {spec : ArgSpec} {rest : List ArgSpec} {error : SchemaError} :
    checkFrom owner names before (spec :: rest) = .error error ↔
      (error.owner = owner ∧ spec.faultAfter? names before = some error.fault) ∨
        spec.faultAfter? names before = none ∧
          ((spec.isBlock = true ∧ checkNested (owner ++ "." ++ spec.name) spec = .error error) ∨
            (spec.isBlock = true → checkNested (owner ++ "." ++ spec.name) spec = .ok ()) ∧
              checkFrom owner (spec.name :: names) (spec.variadicAfter before) rest =
                .error error) := by
  rw [checkFrom_cons, Except.then_eq_error_iff, Except.then_eq_error_iff, refuse_eq_error_iff,
    refuse_eq_ok_iff]
  cases spec.isBlock with
  | true => simp
  | false => simp

/-! ## Schemas that pass -/

/-- Whether nothing but blocks stands behind a variadic argument, be it the given
one or one of the schema. -/
def IsOrderedAfter (before : Option String) (schema : Schema) : Prop :=
  (before ≠ none → positional schema = []) ∧
    (positional schema).Pairwise fun earlier _ => earlier.isVariadic = false

/-- What the check asks of the arguments behind those with the given names and the
given variadic argument, apart from the schemas of blocks. -/
structure IsClearAfter (names : List String) (before : Option String) (schema : Schema) :
    Prop where
  sound : ∀ spec ∈ schema, spec.IsSound
  fresh : ∀ spec ∈ schema, spec.name ∉ names
  distinct : (schema.map ArgSpec.name).Nodup
  ordered : IsOrderedAfter before schema

section Cons

variable {names : List String} {before : Option String} {spec : ArgSpec} {rest : Schema}

theorem isOrderedAfter_cons_iff :
    IsOrderedAfter before (spec :: rest) ↔
      (spec.isBlock = false → before = none) ∧
        IsOrderedAfter (spec.variadicAfter before) rest := by
  unfold IsOrderedAfter ArgSpec.variadicAfter
  cases kind : spec.isBlock with
  | true => simp [positional_cons_of_block kind]
  | false =>
      cases number : spec.isVariadic with
      | true =>
          rw [positional_cons_of_slot kind, List.pairwise_cons]
          constructor
          · rintro ⟨full, here, behind⟩
            refine ⟨fun _ => ?_, fun _ => ?_, behind⟩
            · cases before with
              | none => rfl
              | some variadic => cases full (Option.some_ne_none variadic)
            · apply List.eq_nil_iff_forall_not_mem.mpr
              intro other member
              cases number.symm.trans (here other member)
          · rintro ⟨first, full, behind⟩
            refine ⟨fun variadic => absurd (first rfl) variadic, ?_, behind⟩
            simp [full (Option.some_ne_none spec.name)]
      | false =>
          rw [positional_cons_of_slot kind, List.pairwise_cons]
          cases before with
          | none => simp [number]
          | some variadic => simp

theorem fresh_cons_iff :
    (∀ other ∈ spec :: rest, other.name ∉ names) ∧ ((spec :: rest).map ArgSpec.name).Nodup ↔
      spec.name ∉ names ∧ (∀ other ∈ rest, other.name ∉ spec.name :: names) ∧
        (rest.map ArgSpec.name).Nodup := by
  rw [List.forall_mem_cons, List.map_cons, List.nodup_cons]
  constructor
  · rintro ⟨⟨fresh, freshBehind⟩, different, distinct⟩
    refine ⟨fresh, ?_, distinct⟩
    intro other behind
    rw [List.mem_cons, not_or]
    exact ⟨fun same => different (List.mem_map.mpr ⟨other, behind, same⟩), freshBehind other behind⟩
  · rintro ⟨fresh, freshBehind, distinct⟩
    refine ⟨⟨fresh, ?_⟩, ?_, distinct⟩
    · intro other behind known
      exact freshBehind other behind (List.mem_cons_of_mem spec.name known)
    · intro repeated
      rcases List.mem_map.mp repeated with ⟨other, behind, same⟩
      exact freshBehind other behind (same ▸ List.mem_cons_self)

theorem isClearAfter_cons_iff :
    IsClearAfter names before (spec :: rest) ↔
      (spec.IsSound ∧ spec.name ∉ names ∧ (spec.isBlock = false → before = none)) ∧
        IsClearAfter (spec.name :: names) (spec.variadicAfter before) rest := by
  constructor
  · rintro ⟨sound, fresh, distinct, ordered⟩
    rw [List.forall_mem_cons] at sound
    rcases fresh_cons_iff.mp ⟨fresh, distinct⟩ with ⟨freshHere, freshBehind, distinctBehind⟩
    rcases isOrderedAfter_cons_iff.mp ordered with ⟨first, orderedBehind⟩
    exact ⟨⟨sound.1, freshHere, first⟩, sound.2, freshBehind, distinctBehind, orderedBehind⟩
  · rintro ⟨⟨sound, fresh, first⟩, later⟩
    have names := fresh_cons_iff.mpr ⟨fresh, later.fresh, later.distinct⟩
    exact ⟨List.forall_mem_cons.mpr ⟨sound, later.sound⟩, names.1, names.2,
      isOrderedAfter_cons_iff.mpr ⟨first, later.ordered⟩⟩

end Cons

theorem checkFrom_eq_ok_iff {owner : String} {names : List String} {before : Option String}
    {schema : Schema} :
    checkFrom owner names before schema = .ok () ↔
      IsClearAfter names before schema ∧ ∀ spec ∈ schema, spec.isBlock = true →
        checkNested (owner ++ "." ++ spec.name) spec = .ok () := by
  induction schema generalizing names before with
  | nil =>
      refine iff_of_true rfl ⟨?_, by simp⟩
      constructor <;> simp [positional, IsOrderedAfter]
  | cons spec rest inductionHypothesis =>
      rw [checkFrom_cons_eq_ok_iff, ArgSpec.faultAfter?_eq_none_iff, inductionHypothesis,
        isClearAfter_cons_iff, List.forall_mem_cons]
      constructor
      · rintro ⟨here, nested, clear, nestedBehind⟩
        exact ⟨⟨here, clear⟩, nested, nestedBehind⟩
      · rintro ⟨⟨here, clear⟩, nested, nestedBehind⟩
        exact ⟨here, nested, clear, nestedBehind⟩

end Schema
end PracticePlan
