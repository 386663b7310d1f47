import PracticePlan.Proofs.Line.Written

namespace PracticePlan
namespace Notation

/-!
# Names that resolve back

A field names a type in up to four ways, and the writer knows only two: the
type alone, when its category is the default, and the category in front of a
slash otherwise.  The second way always leads back, provided that the name of
the category fits in front of a slash (`resolve_fieldOf_of_foreign`).  The
first way leads back only when the type alone resolves to the default category,
which the writer does not check.
-/

variable {σ φ : Type} {registry : Registry σ φ} {standard : Category σ φ}

/-- A category name that fits in front of a slash. -/
structure IsQualifier (name : String) : Prop where
  nonempty : name ≠ ""
  slash : '/' ∉ name.toList
  field : Line.IsField name.toList

theorem resolve_empty : resolve registry standard "" = (standard, "") :=
  rfl

theorem fieldOf_of_own {categoryName : String} (own : categoryName = standard.name)
    (featureType : String) : fieldOf standard categoryName featureType = featureType := by
  rw [fieldOf, own, beq_self_eq_true, Bool.or_true, if_pos rfl]

theorem fieldOf_of_foreign {categoryName : String} (foreign : categoryName ≠ standard.name)
    (qualifier : IsQualifier categoryName) (featureType : String) :
    fieldOf standard categoryName featureType = categoryName ++ "/" ++ featureType := by
  have named : categoryName.isEmpty = false :=
    Bool.eq_false_iff.mpr fun empty => qualifier.nonempty (String.isEmpty_iff.mp empty)
  rw [fieldOf, named, beq_eq_false_iff_ne.mpr foreign]
  rfl

theorem toList_qualified (categoryName featureType : String) :
    (categoryName ++ "/" ++ featureType).toList =
      categoryName.toList ++ '/' :: featureType.toList := by
  rw [String.toList_append, String.toList_append, List.append_assoc]
  rfl

/-- The category that a field stands for is registered. -/
theorem category?_resolve (registered : registry.category? standard.name = some standard)
    (field : String) :
    registry.category? (resolve registry standard field).1.name =
      some (resolve registry standard field).1 := by
  unfold resolve
  split
  · exact registered
  · split
    · next found explicit =>
        rcases Option.bind_eq_some_iff.mp explicit with ⟨parts, -, known⟩
        rcases Option.map_eq_some_iff.mp known with ⟨category, here, rfl⟩
        exact (Registry.name_of_category? here).symm ▸ here
    · split
      · exact registered
      · split
        · next category elsewhere =>
            rcases Option.bind_eq_some_iff.mp elsewhere with ⟨type, -, here⟩
            exact (Registry.name_of_category? here).symm ▸ here
        · exact registered

/-- A field with a registered category in front of its slash stands for it. -/
theorem resolve_of_explicit {field : String} {found : Category σ φ × String}
    (explicit : explicit? registry field = some found) :
    resolve registry standard field = found := by
  have named : field.isEmpty = false := by
    apply Bool.eq_false_iff.mpr
    intro empty
    rw [String.isEmpty_iff.mp empty] at explicit
    cases explicit
  simp only [resolve, named, explicit, Bool.false_eq_true, if_false]

theorem resolve_qualified {category : Category σ φ} {categoryName featureType : String}
    (qualifier : IsQualifier categoryName) (tight : Text.Tight featureType.toList)
    (found : registry.category? categoryName = some category) :
    resolve registry standard (categoryName ++ "/" ++ featureType) = (category, featureType) := by
  apply resolve_of_explicit
  rw [explicit?, qualified?, toList_qualified, Text.cut?_append _ _ _ qualifier.slash,
    Option.map_some, Option.bind_some, Text.trim_of_tight qualifier.field.tight,
    Text.trim_of_tight tight, String.ofList_toList, String.ofList_toList, found]
  rfl

theorem resolve_fieldOf_of_foreign {category : Category σ φ} {categoryName featureType : String}
    (foreign : categoryName ≠ standard.name) (qualifier : IsQualifier categoryName)
    (tight : Text.Tight featureType.toList)
    (found : registry.category? categoryName = some category) :
    resolve registry standard (fieldOf standard categoryName featureType) =
      (category, featureType) := by
  rw [fieldOf_of_foreign foreign qualifier]
  exact resolve_qualified qualifier tight found

theorem isField_qualified {categoryName featureType : String} (qualifier : IsQualifier categoryName)
    (isField : Line.IsField featureType.toList) :
    Line.IsField (categoryName ++ "/" ++ featureType).toList := by
  rw [toList_qualified]
  obtain ⟨first, others, whole⟩ := List.exists_cons_of_ne_nil
    (fun nothing => qualifier.nonempty (String.toList_eq_nil_iff.mp nothing))
  have noSlash : ∀ c, c ≠ '/' → c ∉ categoryName.toList → c ∉ featureType.toList →
      c ∉ categoryName.toList ++ '/' :: featureType.toList := by
    intro c different before behind member
    rcases List.mem_append.mp member with early | late
    · exact before early
    · rcases List.mem_cons.mp late with same | later
      · exact different same
      · exact behind later
  refine ⟨noSlash ',' (by decide) qualifier.field.comma isField.comma,
    noSlash '\n' (by decide) qualifier.field.newline isField.newline, ?_, ?_⟩
  · intro c here
    apply qualifier.field.tight.start c
    rw [whole] at here ⊢
    exact here
  · intro c here
    rw [List.reverse_append, List.reverse_cons, List.append_assoc, List.head?_append] at here
    cases last : featureType.toList.reverse.head? with
    | none =>
        rw [last] at here
        exact Option.some.inj here ▸ by decide
    | some shown =>
        rw [last] at here
        exact Option.some.inj here ▸ isField.tight.finish shown last

end Notation
end PracticePlan
