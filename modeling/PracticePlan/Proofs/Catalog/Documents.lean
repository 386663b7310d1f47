import PracticePlan.Proofs.Catalog.Items

namespace PracticePlan
namespace Catalog

open Notation CatalogSettings

/-!
# Documents of the catalog

A plan that was read comes back from its JSON document as the same plan.
Sameness compares settings by their JSON forms, and settings of the catalog
that intervals are given are equal when their forms are.  A plan of the catalog
therefore comes back from its document as it was (`readPlan_writePlan_of_isGiven`),
whichever notation it was read from and whatever it is called.
-/

/-- A row that was read can be read back from JSON. -/
theorem isReadable_of_isGiven {row : Row CatalogSettings} (given : IsGiven registry row) :
    Item.IsReadable registry row := by
  cases row with
  | group row => exact given
  | interval row =>
      rcases given with ⟨category, found, settings⟩
      exact ⟨category, found, readsSettings_of_isGiven found settings⟩

/-- The item of a row that was read contributes that row and nothing else. -/
theorem read_ofRow {row : Row CatalogSettings} (given : IsGiven registry row) :
    Item.read registry (Item.ofRow row).toJson.ordered = .ofRow row := by
  rcases Item.read_toJson (isReadable_of_isGiven given) with ⟨silent, back, known, same⟩
  have origin := isGiven_of_isHeld (Item.isHeld_of_read known)
  rw [eq_of_same_of_isGiven origin given same] at known
  cases outcome : Item.read registry (Item.ofRow row).toJson.ordered with
  | mk row? note? =>
      rw [outcome] at silent known
      dsimp only at silent known
      rw [silent, known]
      rfl

/-- A plan whose rows were read comes back from its document as it was, with
nothing to warn of. -/
theorem readPlan_writePlan_of_isGiven {plan : Plan CatalogSettings}
    (given : ∀ row ∈ plan.rows, IsGiven registry row) :
    Item.readPlan registry (Item.writePlan plan) = .ok ⟨plan, []⟩ := by
  have legible : ∀ row ∈ plan.rows, Json.Legible 2 (Item.ofRow row).toJson :=
    fun row member => (isReadable_of_isGiven (given row member)).legible
  have kept : Item.reread registry plan = ⟨⟨plan.name, plan.rows.map id⟩, []⟩ :=
    Item.reread_eq_of_forall_read id fun row member => read_ofRow (given row member)
  rw [Item.readPlan_eq_reread legible, kept, List.map_id]

end Catalog
end PracticePlan
