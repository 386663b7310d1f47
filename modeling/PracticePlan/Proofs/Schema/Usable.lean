import PracticePlan.Proofs.Schema.Check

namespace PracticePlan
namespace Schema

/-!
# Usable schemas

What matters of the check to the arguments of a schema is that the schema is usable.
Its names are distinct, nothing but blocks follows a variadic argument, and the
labels of a toggle set have no hyphen (`Schema.isUsable_of_check`).
-/

/-- What the check ensures of the arguments after those with the given names and
the given variadic argument. -/
structure IsUsableAfter (names : List String) (before : Option String) (schema : Schema) :
    Prop where
  fresh : ∀ spec ∈ schema, spec.name ∉ names
  distinct : (schema.map ArgSpec.name).Nodup
  onlyBlocks : before ≠ none → ∀ spec ∈ schema, spec.isBlock = true
  last : schema.Pairwise fun earlier later =>
    earlier.isBlock = false → earlier.isVariadic = true → later.isBlock = true
  unhyphenated : ∀ spec ∈ schema, spec.isToggles = true →
    ∀ label ∈ spec.labels, '-' ∉ label.toList

abbrev IsUsable (schema : Schema) : Prop :=
  IsUsableAfter [] none schema

theorem IsClearAfter.isUsableAfter {names : List String} {before : Option String}
    {schema : Schema} (clear : IsClearAfter names before schema) :
    IsUsableAfter names before schema := by
  constructor
  · exact clear.fresh
  · exact clear.distinct
  · intro variadic spec member
    simpa using List.filter_eq_nil_iff.mp (clear.ordered.1 variadic) spec member
  · apply (List.pairwise_filter.mp clear.ordered.2).imp
    intro earlier later ordered slot many
    cases kind : later.isBlock with
    | true => rfl
    | false => cases many.symm.trans (ordered (by simp [slot]) (by simp [kind]))
  · intro spec member toggles
    have shape := (clear.sound spec member).toggles (ArgSpec.isBlock_of_isToggles toggles)
    exact (shape (ArgSpec.hint_of_isToggles toggles)).2

/-- A schema that passes the check is usable. -/
theorem isUsable_of_check {owner : String} {schema : Schema}
    (success : check owner schema = .ok ()) : IsUsable schema :=
  (checkFrom_eq_ok_iff.mp success).1.isUsableAfter

theorem positional_positional (schema : Schema) :
    positional (positional schema) = positional schema := by
  simp [positional]

end Schema
end PracticePlan
