import PracticePlan.Notation.Item

namespace PracticePlan
namespace Notation
namespace Item

/-!
# What items can say

JSON restricts the texts of a row in no way.  All that is known of a row that
was read from an item is that a group has a level, and that the category of an
interval is registered and has given its settings: they are its default, or it
has read them from a JSON value.
-/

variable {σ φ : Type}

/-- Settings that a category gives to an interval in an item. -/
def IsHeldSettings (category : Category σ φ) (settings : σ) : Prop :=
  settings = category.defaultSettings ∨
    ∃ form, category.settingsOfJson form = .ok settings

/-- A row as an item gives it. -/
def IsHeld (registry : Registry σ φ) : Row σ → Prop
  | .group row => row.level ≠ 0
  | .interval row => ∃ category, registry.category? row.categoryName = some category ∧
      IsHeldSettings category row.settings

variable {registry : Registry σ φ}

/-- The settings of an interval are the default, or its category has read them from
their form in the item. -/
theorem settingsIn_eq_or_read (category : Category σ φ) (settings? : Option Json) :
    (settingsIn category settings?).1 = category.defaultSettings ∨
      ∃ form, settings? = some form ∧
        category.settingsOfJson form = .ok (settingsIn category settings?).1 := by
  unfold settingsIn
  split
  · exact .inl rfl
  · exact .inl rfl
  · next form _ =>
      cases outcome : category.settingsOfJson form with
      | ok settings => exact .inr ⟨form, rfl, outcome⟩
      | error cause => exact .inl rfl

theorem exists_shape_of_read {item : Json} {row : Row σ}
    (given : (Item.read registry item).row? = some row) :
    ∃ shaped, ofJson item = .ok shaped ∧ (shaped.contribution registry).row? = some row := by
  rw [Item.read] at given
  cases shaped : ofJson item with
  | error cause =>
      rw [shaped] at given
      cases given
  | ok fields =>
      rw [shaped] at given
      exact ⟨fields, rfl, given⟩

/-- The row of an interval item has a registered category, which gives it the
settings. -/
theorem exists_category_of_contribution {fields : IntervalItem} {row : Row σ}
    (given : ((interval fields).contribution registry).row? = some row) :
    ∃ category, registry.category? fields.categoryName = some category ∧
      row = .interval ⟨fields.duration, fields.task, fields.categoryName, fields.featureType,
        fields.arguments, (settingsIn category fields.settings?).1⟩ := by
  rw [contribution] at given
  cases found : registry.category? fields.categoryName with
  | none =>
      rw [found] at given
      cases given
  | some category =>
      rw [found] at given
      refine ⟨category, rfl, ?_⟩
      rw [← Option.some.inj given, Registry.name_of_category? found]

/-- The row of an item is a group with a level, or an interval whose category is
registered and has given it the settings. -/
theorem read_cases {item : Json} {row : Row σ}
    (given : (Item.read registry item).row? = some row) :
    (∃ group : GroupRow, row = .group group ∧ group.level ≠ 0) ∨
      ∃ (interval : IntervalRow σ) (category : Category σ φ) (fields : IntervalItem),
        row = .interval interval ∧ registry.category? interval.categoryName = some category ∧
          ofJson item = .ok (.interval fields) ∧
          (interval.settings = category.defaultSettings ∨
            ∃ form, fields.settings? = some form ∧
              category.settingsOfJson form = .ok interval.settings) := by
  rcases exists_shape_of_read given with ⟨shaped, shape, contributed⟩
  cases shaped with
  | group level name =>
      rcases Contribution.row?_ofGroup contributed with ⟨positive, rfl⟩
      exact .inl ⟨_, rfl, positive⟩
  | interval fields =>
      rcases exists_category_of_contribution contributed with ⟨category, found, rfl⟩
      have origin := settingsIn_eq_or_read category fields.settings?
      exact .inr ⟨_, category, fields, rfl, found, shape, origin⟩

theorem isHeld_of_read {item : Json} {row : Row σ}
    (given : (Item.read registry item).row? = some row) : IsHeld registry row := by
  rcases read_cases given with ⟨_, rfl, positive⟩ | ⟨_, category, _, rfl, found, -, origin⟩
  · exact positive
  · exact ⟨category, found, origin.imp_right fun ⟨form, _, read⟩ => ⟨form, read⟩⟩

end Item
end Notation
end PracticePlan
