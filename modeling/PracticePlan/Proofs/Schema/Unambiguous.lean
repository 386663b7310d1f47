import Mathlib.Data.List.Nodup
import PracticePlan.Proofs.Schema.Check

namespace PracticePlan
namespace Schema

/-!
# Unambiguous schemas

A schema is clear when its arguments can be told apart by name, when each text has
one argument to go to, and when toggle labels can be told apart in one text.  It is
unambiguous when it is clear and the schemas of its blocks are unambiguous too, at
every depth.  The check accepts exactly the unambiguous schemas.

A schema that is refused has a fault, or a schema within its blocks has one.  The
owner under which the fault is reported is the owner of the whole schema, followed
by the names of the blocks that lead to the schema with the fault
(`Schema.isUnambiguous_iff_check`).
-/

/-! ## Clear schemas -/

/-- Whether the arguments of a schema can be told apart, whatever is in its
blocks. -/
structure IsClear (schema : Schema) : Prop where
  named : ∀ spec ∈ schema, spec.name ≠ ""
  distinct : (schema.map ArgSpec.name).Nodup
  singleBlocks : ∀ spec ∈ schema, spec.isBlock = true → spec.isVariadic = false
  labelled : ∀ spec ∈ schema, spec.baseType = .choice → spec.labels ≠ []
  toggles : ∀ spec ∈ schema, spec.isBlock = false → spec.hint = .multiToggle →
    spec.baseType = .choice ∧ spec.isVariadic = true ∧
      ∀ label ∈ spec.labels, '-' ∉ label.toList
  oneVariadic : (positional schema).countP ArgSpec.isVariadic ≤ 1
  last : ∀ front spec behind, positional schema = front ++ spec :: behind →
    spec.isVariadic = true → behind = []

/-- Whether a schema is clear, and the schemas of its blocks are unambiguous. -/
inductive IsUnambiguous : Schema → Prop
  | intro {schema : Schema} (clear : IsClear schema)
      (blocks : ∀ spec ∈ schema, spec.isBlock = true →
        ∀ inner, spec.nested = some inner → IsUnambiguous inner) : IsUnambiguous schema

/-- Nothing stands behind a variadic argument exactly when all but the last one
are single. -/
theorem pairwise_single_iff {slots : List ArgSpec} :
    (slots.Pairwise fun earlier _ => earlier.isVariadic = false) ↔
      slots.countP ArgSpec.isVariadic ≤ 1 ∧
        ∀ front spec behind, slots = front ++ spec :: behind →
          spec.isVariadic = true → behind = [] := by
  constructor
  · intro ordered
    constructor
    · induction slots with
      | nil => simp
      | cons spec others inductionHypothesis =>
          rw [List.pairwise_cons] at ordered
          cases number : spec.isVariadic with
          | true =>
              have alone : others = [] := by
                apply List.eq_nil_iff_forall_not_mem.mpr
                intro other member
                cases number.symm.trans (ordered.1 other member)
              simp [alone, number]
          | false => simpa [number] using inductionHypothesis ordered.2
    · rintro front spec behind rfl many
      have later := (List.pairwise_cons.mp (List.pairwise_append.mp ordered).2.1).1
      apply List.eq_nil_iff_forall_not_mem.mpr
      intro other member
      cases many.symm.trans (later other member)
  · rintro ⟨-, last⟩
    induction slots with
    | nil => exact .nil
    | cons spec others inductionHypothesis =>
        rw [List.pairwise_cons]
        constructor
        · intro other member
          cases number : spec.isVariadic with
          | true =>
              rw [last [] spec others rfl number] at member
              cases member
          | false => rfl
        · apply inductionHypothesis
          rintro front final behind rfl
          exact last (spec :: front) final behind rfl

theorem isClear_iff {schema : Schema} : IsClear schema ↔ IsClearAfter [] none schema := by
  constructor
  · intro clear
    refine ⟨fun spec member => ?_, fun _ _ => List.not_mem_nil, clear.distinct, ?_, ?_⟩
    · refine ⟨clear.named spec member, clear.singleBlocks spec member,
        clear.labelled spec member, ?_⟩
      intro slot hint
      rcases clear.toggles spec member slot hint with ⟨choice, many, plain⟩
      exact ⟨by simp [ArgSpec.isToggles, hint, choice, many], plain⟩
    · exact fun impossible => absurd rfl impossible
    · exact pairwise_single_iff.mpr ⟨clear.oneVariadic, clear.last⟩
  · intro clear
    have ordered := pairwise_single_iff.mp clear.ordered.2
    refine ⟨fun spec member => (clear.sound spec member).named, clear.distinct,
      fun spec member => (clear.sound spec member).singleBlock,
      fun spec member => (clear.sound spec member).labelled, ?_, ordered.1, ordered.2⟩
    intro spec member slot hint
    rcases (clear.sound spec member).toggles slot hint with ⟨toggles, plain⟩
    simp only [ArgSpec.isToggles, Bool.and_eq_true, decide_eq_true_eq] at toggles
    exact ⟨toggles.1.2, toggles.2, plain⟩

/-! ## Blocks within blocks -/

theorem sizeOf_nested_lt {schema : Schema} {spec : ArgSpec} (member : spec ∈ schema)
    {inner : Schema} (nested : spec.nested = some inner) : sizeOf inner < sizeOf schema := by
  have inside : sizeOf inner < sizeOf spec := by
    cases spec
    cases nested
    simp
    omega
  exact Nat.lt_trans inside (List.sizeOf_lt_of_mem member)

/-- What holds of a schema as soon as it holds of the schemas of its blocks holds of
all schemas. -/
theorem nestedInduction {motive : Schema → Prop}
    (step : ∀ schema : Schema,
      (∀ spec ∈ schema, ∀ inner, spec.nested = some inner → motive inner) → motive schema)
    (schema : Schema) : motive schema :=
  step schema fun _ _ inner _ => nestedInduction step inner
termination_by sizeOf schema
decreasing_by exact sizeOf_nested_lt ‹_› ‹_›

theorem checkNested_eq_ok_iff {owner : String} {spec : ArgSpec} :
    checkNested owner spec = .ok () ↔
      ∀ inner, spec.nested = some inner → check owner inner = .ok () := by
  rcases spec with ⟨_, _, _, _, _, nested⟩
  cases nested with
  | none => simp [checkNested]
  | some inner => simp [checkNested, check]

theorem checkNested_eq_error_iff {owner : String} {spec : ArgSpec} {error : SchemaError} :
    checkNested owner spec = .error error ↔
      ∃ inner, spec.nested = some inner ∧ check owner inner = .error error := by
  rcases spec with ⟨_, _, _, _, _, nested⟩
  cases nested with
  | none => simp [checkNested]
  | some inner => simp [checkNested, check]

theorem check_eq_ok_iff_of_blocks {owner : String} {schema : Schema} :
    check owner schema = .ok () ↔
      IsClear schema ∧ ∀ spec ∈ schema, spec.isBlock = true → ∀ inner, spec.nested = some inner →
        check (owner ++ "." ++ spec.name) inner = .ok () := by
  rw [check, checkFrom_eq_ok_iff, isClear_iff]
  simp only [checkNested_eq_ok_iff]

theorem check_eq_ok_iff_isUnambiguous (owner : String) (schema : Schema) :
    check owner schema = .ok () ↔ IsUnambiguous schema := by
  induction schema using nestedInduction generalizing owner with
  | step schema inductionHypothesis =>
      rw [check_eq_ok_iff_of_blocks]
      constructor
      · rintro ⟨clear, blocks⟩
        refine .intro clear fun spec member block inner nested => ?_
        exact (inductionHypothesis spec member inner nested _).mp
          (blocks spec member block inner nested)
      · rintro ⟨clear, blocks⟩
        refine ⟨clear, fun spec member block inner nested => ?_⟩
        exact (inductionHypothesis spec member inner nested _).mpr
          (blocks spec member block inner nested)

/-! ## Where a fault lies -/

/-- Whether a schema has a fault among its own arguments. -/
inductive HasFault (schema : Schema) : SchemaFault → Prop
  | unnamed {spec : ArgSpec} (member : spec ∈ schema) (empty : spec.name = "") :
      HasFault schema .unnamed
  | duplicate {name : String} (repeated : 1 < (schema.map ArgSpec.name).count name) :
      HasFault schema (.duplicate name)
  | variadicBlock {spec : ArgSpec} (member : spec ∈ schema) (block : spec.isBlock = true)
      (many : spec.isVariadic = true) : HasFault schema (.variadicBlock spec.name)
  | unlabelled {spec : ArgSpec} (member : spec ∈ schema) (choice : spec.baseType = .choice)
      (empty : spec.labels = []) : HasFault schema (.unlabelled spec.name)
  | notToggles {spec : ArgSpec} (member : spec ∈ schema) (slot : spec.isBlock = false)
      (hint : spec.hint = .multiToggle) (other : spec.isToggles = false) :
      HasFault schema (.notToggles spec.name)
  | hyphenated {spec : ArgSpec} {label : String} (member : spec ∈ schema)
      (slot : spec.isBlock = false) (hint : spec.hint = .multiToggle)
      (known : label ∈ spec.labels) (hyphen : '-' ∈ label.toList) :
      HasFault schema (.hyphenated label)
  | afterVariadic {first spec : ArgSpec} (order : [first, spec].Sublist (positional schema))
      (many : first.isVariadic = true) : HasFault schema (.afterVariadic spec.name first.name)

theorem not_isClear_of_hasFault {schema : Schema} {fault : SchemaFault}
    (faulty : HasFault schema fault) : ¬ IsClear schema := by
  intro clear
  cases faulty with
  | @unnamed spec member empty => exact clear.named spec member empty
  | duplicate repeated =>
      exact Nat.not_le_of_lt repeated (List.nodup_iff_count_le_one.mp clear.distinct _)
  | @variadicBlock spec member block many =>
      cases many.symm.trans (clear.singleBlocks spec member block)
  | @unlabelled spec member choice empty => exact clear.labelled spec member choice empty
  | @notToggles spec member slot hint other =>
      rcases clear.toggles spec member slot hint with ⟨choice, many, -⟩
      simp [ArgSpec.isToggles, hint, choice, many] at other
  | @hyphenated spec label member slot hint known hyphen =>
      exact (clear.toggles spec member slot hint).2.2 label known hyphen
  | afterVariadic order many =>
      have single := (isClear_iff.mp clear).ordered.2.sublist order
      cases many.symm.trans ((List.pairwise_cons.mp single).1 _ (List.mem_singleton_self _))

section Fault

variable {front behind : List ArgSpec} {spec : ArgSpec} {names : List String}
  {before : Option String} {fault : SchemaFault}

theorem hasFault_of_nameFault? (earlier : ∀ name ∈ names, name ∈ front.map ArgSpec.name)
    (found : spec.nameFault? names = some fault) : HasFault (front ++ spec :: behind) fault := by
  unfold ArgSpec.nameFault? at found
  split at found
  · next empty =>
      cases found
      exact .unnamed (List.mem_append_right front List.mem_cons_self) (by simpa using empty)
  · split at found
    · next known =>
        cases found
        have once := List.count_pos_iff.mpr (earlier spec.name known)
        apply HasFault.duplicate
        rw [List.map_append, List.map_cons, List.count_append, List.count_cons_self]
        omega
    · cases found

theorem hasFault_of_shapeFault? {schema : Schema} (member : spec ∈ schema)
    (slot : spec.isBlock = false) (found : spec.shapeFault? = some fault) :
    HasFault schema fault := by
  unfold ArgSpec.shapeFault? at found
  split at found
  · next empty =>
      cases found
      exact .unlabelled member empty.1 empty.2
  · split at found
    · next hint =>
        split at found
        · rcases Option.map_eq_some_iff.mp found with ⟨label, hyphened, rfl⟩
          have hyphen := List.find?_some hyphened
          exact .hyphenated member slot hint (List.mem_of_find?_eq_some hyphened)
            (by simpa using hyphen)
        · next other =>
            cases found
            exact .notToggles member slot hint (by simpa using other)
    · cases found

/-- A fault that is found at an argument lies in the schema, if the names and the
variadic argument that are known are those of arguments before it. -/
theorem hasFault_of_faultAfter? (earlier : ∀ name ∈ names, name ∈ front.map ArgSpec.name)
    (variadic : ∀ name ∈ before, ∃ first ∈ positional front,
      first.isVariadic = true ∧ first.name = name)
    (found : spec.faultAfter? names before = some fault) :
    HasFault (front ++ spec :: behind) fault := by
  have member : spec ∈ front ++ spec :: behind := List.mem_append_right front List.mem_cons_self
  rcases ArgSpec.first_eq_some_iff.mp found with name | ⟨-, shape⟩
  · exact hasFault_of_nameFault? earlier name
  · cases kind : spec.isBlock with
    | true =>
        rw [kind, if_pos rfl] at shape
        split at shape
        · next many =>
            cases shape
            exact .variadicBlock member kind many
        · cases shape
    | false =>
        rw [kind, if_neg Bool.false_ne_true] at shape
        rcases ArgSpec.first_eq_some_iff.mp shape with own | ⟨-, after⟩
        · exact hasFault_of_shapeFault? member kind own
        · rcases Option.map_eq_some_iff.mp after with ⟨name, known, rfl⟩
          rcases variadic name known with ⟨first, passed, many, rfl⟩
          refine .afterVariadic ?_ many
          rw [positional, List.filter_append]
          apply List.Sublist.append (List.singleton_sublist.mpr passed)
          change [spec].Sublist (positional (spec :: behind))
          rw [positional_cons_of_slot kind]
          exact List.singleton_sublist.mpr List.mem_cons_self

end Fault

/-- A check that fails has found a fault among the arguments, or in the schema of a
block. -/
theorem hasFault_of_checkFrom {owner : String} {error : SchemaError} (front : List ArgSpec)
    {rest : List ArgSpec} {names : List String} {before : Option String}
    (earlier : ∀ name ∈ names, name ∈ front.map ArgSpec.name)
    (variadic : ∀ name ∈ before, ∃ first ∈ positional front,
      first.isVariadic = true ∧ first.name = name)
    (failed : checkFrom owner names before rest = .error error) :
    (error.owner = owner ∧ HasFault (front ++ rest) error.fault) ∨
      ∃ spec ∈ rest, spec.isBlock = true ∧
        checkNested (owner ++ "." ++ spec.name) spec = .error error := by
  induction rest generalizing front names before with
  | nil => cases failed
  | cons spec others inductionHypothesis =>
      rcases checkFrom_cons_eq_error_iff.mp failed with
        ⟨same, found⟩ | ⟨-, ⟨block, inside⟩ | ⟨-, later⟩⟩
      · exact Or.inl ⟨same, hasFault_of_faultAfter? earlier variadic found⟩
      · exact Or.inr ⟨spec, List.mem_cons_self, block, inside⟩
      · -- Behind the argument, its name and perhaps itself are known as well.
        have earlierNow : ∀ name ∈ spec.name :: names,
            name ∈ (front ++ [spec]).map ArgSpec.name := by
          intro name known
          rw [List.map_append, List.mem_append]
          rcases List.mem_cons.mp known with rfl | before
          · exact Or.inr (List.mem_singleton_self _)
          · exact Or.inl (earlier name before)
        have variadicNow : ∀ name ∈ spec.variadicAfter before,
            ∃ first ∈ positional (front ++ [spec]),
              first.isVariadic = true ∧ first.name = name := by
          intro name known
          rw [positional, List.filter_append]
          unfold ArgSpec.variadicAfter at known
          split at known
          · next here =>
              rw [Bool.and_eq_true] at here
              refine ⟨spec, ?_, here.2, by simpa using known⟩
              exact List.mem_append_right _ (by simp [here.1])
          · rcases variadic name known with ⟨first, passed, both⟩
            exact ⟨first, List.mem_append_left _ passed, both⟩
        rcases inductionHypothesis _ earlierNow variadicNow later with ⟨same, faulty⟩ | inside
        · rw [List.append_assoc, List.singleton_append] at faulty
          exact Or.inl ⟨same, faulty⟩
        · rcases inside with ⟨other, member, both⟩
          exact Or.inr ⟨other, List.mem_cons_of_mem spec member, both⟩

/-- Whether blocks with the given names lead from a schema to the schema of the
last of them. -/
inductive Leads : Schema → List String → Schema → Prop
  | here (schema : Schema) : Leads schema [] schema
  | inside {schema inner final : Schema} {spec : ArgSpec} {path : List String}
      (member : spec ∈ schema) (block : spec.isBlock = true) (nested : spec.nested = some inner)
      (further : Leads inner path final) : Leads schema (spec.name :: path) final

/-- The owner of the schema to which the blocks with the given names lead. -/
def ownerAt (owner : String) (path : List String) : String :=
  path.foldl (fun outer name => outer ++ "." ++ name) owner

theorem exists_leads_of_check {owner : String} {schema : Schema} {error : SchemaError}
    (failed : check owner schema = .error error) :
    ∃ path final, Leads schema path final ∧ error.owner = ownerAt owner path ∧
      HasFault final error.fault := by
  induction schema using nestedInduction generalizing owner with
  | step schema inductionHypothesis =>
      rcases hasFault_of_checkFrom [] (by simp) (by simp) failed with
        ⟨same, faulty⟩ | ⟨spec, member, block, inside⟩
      · exact ⟨[], schema, .here schema, same, faulty⟩
      · rcases checkNested_eq_error_iff.mp inside with ⟨inner, nested, innerFailed⟩
        rcases inductionHypothesis spec member inner nested innerFailed with
          ⟨path, final, leads, same, faulty⟩
        exact ⟨spec.name :: path, final, .inside member block nested leads, same, faulty⟩

/-- The check accepts exactly the unambiguous schemas.  When it fails, it reports a
fault of a schema that is not clear, under the owner to which the blocks around that
schema lead. -/
theorem isUnambiguous_iff_check (owner : String) (schema : Schema) :
    (check owner schema = .ok () ↔ IsUnambiguous schema) ∧
      ∀ error, check owner schema = .error error →
        ∃ path final, Leads schema path final ∧ error.owner = ownerAt owner path ∧
          HasFault final error.fault ∧ ¬ IsClear final := by
  constructor
  · exact check_eq_ok_iff_isUnambiguous owner schema
  · intro error failed
    rcases exists_leads_of_check failed with ⟨path, final, leads, same, faulty⟩
    exact ⟨path, final, leads, same, faulty, not_isClear_of_hasFault faulty⟩

/-- A pattern of beats within a metronome within a drill, with the given labels for
a beat. -/
def drillSchema (labels : List String) : Schema :=
  [.text "name", .block "metronome" [.number "bpm", .block "accents" [.choice "beat" labels]]]

/-- With labels for a beat the schema is unambiguous.  Without them, the fault is
reported where it lies, two blocks deep. -/
theorem isUnambiguous_drill : IsUnambiguous (drillSchema ["soft", "loud"]) ∧
    check "Drill" (drillSchema []) =
      .error ⟨"Drill.metronome.accents", .unlabelled "beat"⟩ ∧
    ∃ path final, Leads (drillSchema []) path final ∧
      "Drill.metronome.accents" = ownerAt "Drill" path ∧
        HasFault final (.unlabelled "beat") ∧ ¬ IsClear final := by
  have failed : check "Drill" (drillSchema []) =
      .error ⟨"Drill.metronome.accents", .unlabelled "beat"⟩ := by
    decide +kernel
  refine ⟨(isUnambiguous_iff_check "Drill" _).1.mp rfl, failed, ?_⟩
  exact (isUnambiguous_iff_check "Drill" _).2 _ failed

end Schema
end PracticePlan
