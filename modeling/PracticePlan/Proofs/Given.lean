import PracticePlan.Notation.Convert
import PracticePlan.Proofs.Item.Stated
import PracticePlan.Proofs.Line.Reading

namespace PracticePlan
namespace Notation

/-!
# Rows that were read

Both readers accept more than they can make sense of.  They skip malformed
lines and items, and they replace settings that a category refuses.  What is
left after that is a plan without any such doubt: its groups have levels, and
each of its intervals has a registered category that gave the interval its
settings.
-/

variable {σ φ : Type}

/-- A row as one of the two notations gives it. -/
def IsGiven (registry : Registry σ φ) : Row σ → Prop
  | .group row => row.level ≠ 0
  | .interval row => ∃ category, registry.category? row.categoryName = some category ∧
      (Line.IsReadSettings category row.settings ∨ Item.IsHeldSettings category row.settings)

variable {registry : Registry σ φ}

theorem isGiven_of_isHeld {row : Row σ} (held : Item.IsHeld registry row) :
    IsGiven registry row := by
  cases row with
  | group row => exact held
  | interval row =>
      rcases held with ⟨category, found, given⟩
      exact ⟨category, found, .inr given⟩

theorem isGiven_of_isRead {row : Row σ} (read : Line.IsRead registry row) :
    IsGiven registry row := by
  cases row with
  | group row => exact read.1
  | interval row =>
      rcases Line.IsReadInterval.settings read with ⟨category, found, given⟩
      exact ⟨category, found, .inl given⟩

/-- The category of a codec for lines is registered under its name. -/
theorem registered_of_ofFormat {standard : String} {source : Format} {category : Category σ φ}
    (opened : Codec.ofFormat registry standard source = .ok (.lines category)) :
    registry.category? category.name = some category := by
  cases source with
  | json => cases Except.ok.inj opened
  | text =>
      cases found : registry.category? standard with
      | none =>
          rw [Codec.ofFormat, found] at opened
          cases opened
      | some known =>
          rw [Codec.ofFormat, found] at opened
          cases Except.ok.inj opened
          rw [Registry.name_of_category? found]
          exact found

/-- All rows that a codec reads are given by its notation. -/
theorem isGiven_of_mem_readPlan {standard : String} {source : Format} {reader : Codec σ φ}
    (opened : Codec.ofFormat registry standard source = .ok reader) {text : String}
    {report : Report σ} (read : reader.readPlan registry text = .ok report) {row : Row σ}
    (member : row ∈ report.plan.rows) : IsGiven registry row := by
  cases reader with
  | items => exact isGiven_of_isHeld (Item.isStatedRow_of_mem_readPlan read member).isHeld
  | lines category =>
      have registered := registered_of_ofFormat opened
      rw [← Except.ok.inj read] at member
      exact isGiven_of_isRead (Line.isRead_of_mem_readPlan registered member)

end Notation
end PracticePlan
