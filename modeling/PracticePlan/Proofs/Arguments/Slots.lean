import Mathlib.Data.List.Basic
import PracticePlan.Arguments.Positional
import PracticePlan.Proofs.Schema.Usable

namespace PracticePlan

/-!
# Texts and the arguments that take them

Reading walks through the schema and gives each argument the texts it takes, so
the texts are divided among the arguments and the rest, and every argument gets
a value of its own kind (`Arguments.exists_division`).  When each single argument
is written as one text, the written texts reach the arguments they come from, and
what follows them is the rest (`Arguments.distribute_flatMap`).  This needs a
usable schema, as a variadic argument would take the texts of all arguments
behind it.
-/

namespace ArgSpec

/-- The value of an argument that takes the given texts. -/
def valueTaking (blockOf : String → Json) (spec : ArgSpec) (texts : List String) : ArgValue :=
  if spec.isBlock then .block (blockOf spec.name)
  else if spec.isVariadic then spec.variadicValueOf texts
  else spec.valueOf (texts.headD "")

/-- The texts that an argument leaves to those behind it. -/
def remaining (spec : ArgSpec) (texts : List String) : List String :=
  if spec.isBlock then texts
  else if spec.isVariadic then []
  else texts.tail

/-- The texts that an argument takes. -/
def taken (spec : ArgSpec) (texts : List String) : List String :=
  if spec.isBlock then []
  else if spec.isVariadic then texts
  else texts.take 1

section Kinds

variable {blockOf : String → Json} {spec : ArgSpec}

theorem valueTaking_of_block (block : spec.isBlock = true) (texts : List String) :
    spec.valueTaking blockOf texts = .block (blockOf spec.name) := by
  simp [valueTaking, block]

theorem valueTaking_of_variadic (slot : spec.isBlock = false) (many : spec.isVariadic = true)
    (texts : List String) : spec.valueTaking blockOf texts = spec.variadicValueOf texts := by
  simp [valueTaking, slot, many]

theorem valueTaking_of_single (slot : spec.isBlock = false) (one : spec.isVariadic = false)
    (texts : List String) : spec.valueTaking blockOf texts = spec.valueOf (texts.headD "") := by
  simp [valueTaking, slot, one]

theorem remaining_of_block (block : spec.isBlock = true) (texts : List String) :
    spec.remaining texts = texts := by
  simp [remaining, block]

theorem remaining_of_variadic (slot : spec.isBlock = false) (many : spec.isVariadic = true)
    (texts : List String) : spec.remaining texts = [] := by
  simp [remaining, slot, many]

theorem remaining_of_single (slot : spec.isBlock = false) (one : spec.isVariadic = false)
    (texts : List String) : spec.remaining texts = texts.tail := by
  simp [remaining, slot, one]

theorem taken_append_remaining (spec : ArgSpec) (texts : List String) :
    spec.taken texts ++ spec.remaining texts = texts := by
  unfold taken remaining
  cases spec.isBlock with
  | true => simp
  | false =>
      cases spec.isVariadic with
      | true => simp
      | false => cases texts <;> simp

theorem length_taken_le (one : spec.isVariadic = false) (texts : List String) :
    (spec.taken texts).length ≤ 1 := by
  unfold taken
  cases spec.isBlock with
  | true => simp
  | false =>
      rw [if_neg Bool.false_ne_true, if_neg (by simp [one]), List.length_take]
      exact Nat.min_le_left 1 texts.length

/-- The value depends on no other texts than those that are taken. -/
theorem valueTaking_taken (spec : ArgSpec) (texts : List String) :
    spec.valueTaking blockOf (spec.taken texts) = spec.valueTaking blockOf texts := by
  unfold valueTaking taken
  cases spec.isBlock with
  | true => simp
  | false =>
      cases spec.isVariadic with
      | true => simp
      | false => cases texts <;> simp

end Kinds

end ArgSpec

namespace Arguments

theorem putAll_of_nodup {values : List (String × ArgValue)}
    (distinct : (values.map Prod.fst).Nodup) : putAll values = values := by
  have all (known : List (String × ArgValue)) (apart : ((known ++ values).map Prod.fst).Nodup) :
      values.foldl (fun known named => Named.put named.1 named.2 known) known = known ++ values := by
    clear distinct
    induction values generalizing known with
    | nil => exact (List.append_nil known).symm
    | cons named rest inductionHypothesis =>
        have fresh : named.1 ∉ known.map Prod.fst := by
          rw [List.map_append, List.nodup_append] at apart
          intro repeated
          exact apart.2.2 named.1 repeated named.1 List.mem_cons_self rfl
        have step : known ++ named :: rest = (known ++ [named]) ++ rest :=
          List.append_cons known named rest
        rw [step] at apart ⊢
        rw [List.foldl_cons, Named.put_of_fresh _ fresh]
        exact inductionHypothesis _ apart
  exact all [] distinct

variable {blockOf : String → Json}

/-! ## What reading gives to the arguments -/

/-- One step of reading. -/
theorem distribute_cons (spec : ArgSpec) (schema : List ArgSpec) (texts : List String) :
    distribute blockOf (spec :: schema) texts =
      ((spec.name, spec.valueTaking blockOf texts) ::
          (distribute blockOf schema (spec.remaining texts)).1,
        (distribute blockOf schema (spec.remaining texts)).2) := by
  unfold ArgSpec.valueTaking ArgSpec.remaining
  rw [distribute]
  split
  · rfl
  · split <;> rfl

/-- Whether texts are divided among the arguments of a schema and a rest.  A block
has no share and a single argument has one text at most.  The shares in their
order, with the rest behind them, are all of the texts. -/
structure IsDivision (schema : Schema) (texts : List String) (shareOf : String → List String)
    (rest : List String) : Prop where
  whole : (schema.flatMap fun spec => shareOf spec.name) ++ rest = texts
  block : ∀ spec ∈ schema, spec.isBlock = true → shareOf spec.name = []
  single : ∀ spec ∈ schema, spec.isVariadic = false → (shareOf spec.name).length ≤ 1

/-- The texts are divided, and every argument has the value of its share. -/
theorem exists_division {schema : Schema} (distinct : (schema.map ArgSpec.name).Nodup)
    (texts : List String) :
    ∃ shareOf, IsDivision schema texts shareOf (distribute blockOf schema texts).2 ∧
      (distribute blockOf schema texts).1 =
        schema.map fun spec => (spec.name, spec.valueTaking blockOf (shareOf spec.name)) := by
  induction schema generalizing texts with
  | nil => exact ⟨fun _ => [], ⟨rfl, by simp, by simp⟩, rfl⟩
  | cons spec rest inductionHypothesis =>
      rw [List.map_cons, List.nodup_cons] at distinct
      rcases inductionHypothesis distinct.2 (spec.remaining texts) with ⟨shareOf, division, same⟩
      -- The names behind are different, so the share can be added under the name.
      have here := Function.update_self spec.name (spec.taken texts) shareOf
      have behind : ∀ other ∈ rest,
          Function.update shareOf spec.name (spec.taken texts) other.name = shareOf other.name := by
        intro other member
        apply Function.update_of_ne
        exact fun same => distinct.1 (List.mem_map.mpr ⟨other, member, same⟩)
      refine ⟨Function.update shareOf spec.name (spec.taken texts), ⟨?_, ?_, ?_⟩, ?_⟩
      · rw [List.flatMap_cons, here, List.flatMap_congr behind, List.append_assoc, distribute_cons,
          division.whole]
        exact spec.taken_append_remaining texts
      · intro other member block
        rcases List.mem_cons.mp member with rfl | later
        · rw [here, ArgSpec.taken, if_pos block]
        · rw [behind other later]
          exact division.block other later block
      · intro other member one
        rcases List.mem_cons.mp member with rfl | later
        · rw [here]
          exact ArgSpec.length_taken_le one texts
        · rw [behind other later]
          exact division.single other later one
      · have others : (rest.map fun other => (other.name, other.valueTaking blockOf
            (Function.update shareOf spec.name (spec.taken texts) other.name))) =
              rest.map fun other => (other.name, other.valueTaking blockOf (shareOf other.name)) := by
          apply List.map_congr_left
          intro other later
          rw [behind other later]
        rw [distribute_cons, same, List.map_cons, here, ArgSpec.valueTaking_taken, others]

theorem distribute_nil_rest (schema : Schema) : (distribute blockOf schema []).2 = [] := by
  induction schema with
  | nil => rfl
  | cons spec rest inductionHypothesis =>
      have nothing : spec.remaining [] = [] := by
        unfold ArgSpec.remaining
        split
        · rfl
        · split <;> rfl
      rw [distribute_cons, nothing]
      exact inductionHypothesis

theorem hasVariadic_cons (spec : ArgSpec) (schema : List ArgSpec) :
    Schema.hasVariadic (spec :: schema) =
      (!spec.isBlock && spec.isVariadic || Schema.hasVariadic schema) := by
  unfold Schema.hasVariadic
  cases kind : spec.isBlock with
  | true => simp [Schema.positional_cons_of_block kind]
  | false => simp [Schema.positional_cons_of_slot kind]

/-- A variadic argument leaves nothing over. -/
theorem distribute_rest_of_hasVariadic {schema : Schema}
    (variadic : Schema.hasVariadic schema = true) (texts : List String) :
    (distribute blockOf schema texts).2 = [] := by
  induction schema generalizing texts with
  | nil => cases variadic
  | cons spec rest inductionHypothesis =>
      rw [hasVariadic_cons, Bool.or_eq_true, Bool.and_eq_true, Bool.not_eq_true'] at variadic
      rw [distribute_cons]
      rcases variadic with ⟨slot, here⟩ | behind
      · rw [ArgSpec.remaining_of_variadic slot here]
        exact distribute_nil_rest rest
      · exact inductionHypothesis behind _

/-! ## Texts of a usable schema -/

/-- Written texts reach the arguments they come from. -/
theorem distribute_flatMap {schema : Schema}
    (last : schema.Pairwise fun earlier later =>
      earlier.isBlock = false → earlier.isVariadic = true → later.isBlock = true)
    {share : ArgSpec → List String}
    (single : ∀ spec, spec.isVariadic = false → ∃ text, share spec = [text])
    {rest : List String} (full : Schema.hasVariadic schema = true → rest = []) :
    distribute blockOf schema ((Schema.positional schema).flatMap share ++ rest) =
      (schema.map fun spec => (spec.name, spec.valueTaking blockOf (share spec)), rest) := by
  induction schema generalizing rest with
  | nil => rfl
  | cons spec others inductionHypothesis =>
      rw [List.pairwise_cons] at last
      rw [hasVariadic_cons] at full
      cases kind : spec.isBlock with
      | true =>
          rw [kind, Bool.not_true, Bool.false_and, Bool.false_or] at full
          rw [distribute_cons, Schema.positional_cons_of_block kind, ArgSpec.remaining_of_block kind,
            inductionHypothesis last.2 full, List.map_cons, ArgSpec.valueTaking_of_block kind,
            ArgSpec.valueTaking_of_block kind]
      | false =>
          rw [distribute_cons, Schema.positional_cons_of_slot kind, List.flatMap_cons,
            List.append_assoc, List.map_cons]
          cases number : spec.isVariadic with
          | true =>
              -- Only blocks follow, so this argument takes everything.
              have blocks : Schema.positional others = [] :=
                Schema.positional_eq_nil fun other behind => last.1 other behind kind number
              have nothing : rest = [] := by
                apply full
                rw [kind, number]
                rfl
              have behind : distribute blockOf others
                  ((Schema.positional others).flatMap share ++ []) = _ :=
                inductionHypothesis last.2 fun _ => rfl
              rw [blocks, List.flatMap_nil, List.append_nil] at behind
              rw [blocks, nothing, List.flatMap_nil, List.append_nil, List.append_nil,
                ArgSpec.remaining_of_variadic kind number, behind]
          | false =>
              rcases single spec number with ⟨text, same⟩
              rw [kind, number, Bool.and_false, Bool.false_or] at full
              rw [same, List.singleton_append, ArgSpec.remaining_of_single kind number,
                List.tail_cons, inductionHypothesis last.2 full,
                ArgSpec.valueTaking_of_single kind number,
                ArgSpec.valueTaking_of_single kind number, List.headD_cons, List.headD_cons]

end Arguments
end PracticePlan
