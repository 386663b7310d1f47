import PracticePlan.Proofs.Line.Written

namespace PracticePlan
namespace Notation
namespace Line

/-!
# The fields of an interval

The writer leaves the second field out when it is empty and nothing follows it,
and puts a literal behind the fields.  Neither changes what the reader makes of
the task, the second field and the arguments, nor the category in which it looks
a literal up.

A last field that has the shape of a literal, and whose key the category knows,
is taken off by the reader.  The writer looks for this with the same rule, so
fields that it passes stay as they are.
-/

variable {σ φ : Type}

/-- The last field of an interval is what the reader takes for a literal. -/
structure EndsInLiteral (registry : Registry σ φ) (standard : Category σ φ) (row : IntervalRow σ)
    (literal : String) : Prop where
  last : (plainFields standard row).getLast? = some ("@" ++ literal)
  shape : isLiteralBody literal.toList = true
  known : ((resolve registry standard
    (typeField (plainFields standard row))).1.settingsOfLiteral? literal).isSome = true

/-! ## Tasks, types and arguments -/

section Fields

variable {standard : Category σ φ} {row : IntervalRow σ}

/-- The fields of an interval, with the second one left out when nothing
follows the task. -/
theorem plainFields_cases (standard : Category σ φ) (row : IntervalRow σ) :
    (fieldOf standard row.categoryName row.featureType = "" ∧ row.arguments = [] ∧
        plainFields standard row = [row.task]) ∨
      plainFields standard row =
        row.task :: fieldOf standard row.categoryName row.featureType :: row.arguments := by
  unfold plainFields
  dsimp only
  split
  · next hidden =>
      rw [Bool.and_eq_true, String.isEmpty_iff, List.isEmpty_iff] at hidden
      exact .inl ⟨hidden.1, hidden.2, rfl⟩
  · exact .inr rfl

/-- Leaving the second field out changes none of the parts. -/
theorem parts_plainFields (standard : Category σ φ) (row : IntervalRow σ) :
    (plainFields standard row).headD "" = row.task ∧
      (plainFields standard row).tail.headD "" =
        fieldOf standard row.categoryName row.featureType ∧
      (plainFields standard row).drop 2 = row.arguments := by
  rcases plainFields_cases standard row with ⟨field, arguments, fields⟩ | fields
  · rw [fields, field, arguments]
    exact ⟨rfl, rfl, rfl⟩
  · rw [fields]
    exact ⟨rfl, rfl, rfl⟩

/-- A literal behind the fields is looked up where the second field says. -/
theorem typeField_plainFields_append (standard : Category σ φ) (row : IntervalRow σ)
    (last : String) :
    typeField (plainFields standard row ++ [last]) =
      fieldOf standard row.categoryName row.featureType := by
  rcases plainFields_cases standard row with ⟨field, -, fields⟩ | fields
  · rw [fields, field]
    rfl
  · rw [fields]
    cases row.arguments with
    | nil => rfl
    | cons first others => rfl

theorem mem_plainFields {field : String} (member : field ∈ plainFields standard row) :
    field = row.task ∨ field = fieldOf standard row.categoryName row.featureType ∨
      field ∈ row.arguments := by
  rcases plainFields_cases standard row with ⟨-, -, fields⟩ | fields
  · rw [fields] at member
    exact .inl (List.mem_singleton.mp member)
  · rw [fields] at member
    rcases List.mem_cons.mp member with task | later
    · exact .inl task
    · exact .inr (List.mem_cons.mp later)

theorem exists_getLast?_plainFields (standard : Category σ φ) (row : IntervalRow σ) :
    ∃ last, (plainFields standard row).getLast? = some last := by
  rcases plainFields_cases standard row with ⟨-, -, fields⟩ | fields
  · exact ⟨row.task, by rw [fields]; rfl⟩
  · rw [fields, List.getLast?_cons_cons]
    exact ⟨_, List.getLast?_cons⟩

end Fields

/-! ## Literals -/

section Literals

variable {registry : Registry σ φ} {standard : Category σ φ}

theorem literalBody?_eq_some {last : List Char} {literal : String}
    (found : literalBody? last = some literal) :
    last = '@' :: literal.toList ∧ isLiteralBody literal.toList = true := by
  unfold literalBody? at found
  split at found
  · next body =>
      split at found
      · next shape =>
          rcases Option.some.inj found with rfl
          rw [String.toList_ofList]
          exact ⟨rfl, shape⟩
      · cases found
  · cases found

theorem literalBody?_cons {literal : String} (shape : isLiteralBody literal.toList = true) :
    literalBody? ('@' :: literal.toList) = some literal := by
  rw [literalBody?, if_pos shape, String.ofList_toList]

theorem toList_marked (literal : String) : ("@" ++ literal).toList = '@' :: literal.toList := by
  rw [String.toList_append]
  rfl

/-- At most the last field is taken off. -/
theorem values_takeLiteral (registry : Registry σ φ) (standard : Category σ φ)
    (fields : List String) :
    (takeLiteral registry standard fields).values = fields ∨
      (takeLiteral registry standard fields).values = fields.dropLast := by
  unfold takeLiteral
  split
  · exact .inl rfl
  · exact .inr rfl
  · exact .inr rfl

/-- A literal behind fields is taken off when the category of the fields reads it. -/
theorem takeLiteral_append (fields : List String) {literal : String} {read : σ}
    (shape : isLiteralBody literal.toList = true)
    (known : (resolve registry standard
      (typeField (fields ++ ["@" ++ literal]))).1.settingsOfLiteral? literal = some (.ok read)) :
    takeLiteral registry standard (fields ++ ["@" ++ literal]) = ⟨fields, some read, none⟩ := by
  have taken : lastLiteral? registry standard (fields ++ ["@" ++ literal])
      ("@" ++ literal).toList = some (literal, .ok read) := by
    rw [lastLiteral?, toList_marked, literalBody?_cons shape, Option.bind_some, known]
    rfl
  rw [takeLiteral, List.getLast?_concat, Option.bind_some, taken]
  dsimp only
  rw [List.dropLast_concat]

/-- Fields stay as they are when the last one is no literal to the writer. -/
theorem takeLiteral_of_not_mistaken {fields : List String}
    (areFields : ∀ field ∈ fields, IsField field.toList)
    (plain : mistaken? registry standard fields = none) :
    takeLiteral registry standard fields = ⟨fields, none, none⟩ := by
  unfold mistaken? at plain
  unfold takeLiteral
  cases last : fields.getLast? with
  | none => rfl
  | some field =>
      rw [last, Option.bind_some, Option.map_eq_none_iff,
        Text.trim_of_tight (areFields field (List.mem_of_getLast? last)).tight] at plain
      rw [Option.bind_some, plain]

theorem endsInLiteral_of_mistaken {row : IntervalRow σ} {literal : String}
    (areFields : ∀ field ∈ plainFields standard row, IsField field.toList)
    (mistaken : mistaken? registry standard (plainFields standard row) = some literal) :
    EndsInLiteral registry standard row literal := by
  unfold mistaken? at mistaken
  rcases exists_getLast?_plainFields standard row with ⟨last, here⟩
  rw [here, Option.bind_some,
    Text.trim_of_tight (areFields last (List.mem_of_getLast? here)).tight,
    Option.map_eq_some_iff] at mistaken
  rcases mistaken with ⟨⟨body, outcome⟩, found, same⟩
  obtain rfl : body = literal := same
  rw [lastLiteral?, Option.bind_eq_some_iff] at found
  rcases found with ⟨text, shape, found⟩
  rw [Option.map_eq_some_iff] at found
  rcases found with ⟨answer, known, same⟩
  rcases Prod.mk.inj same with ⟨rfl, rfl⟩
  rcases literalBody?_eq_some shape with ⟨marked, isBody⟩
  refine ⟨?_, isBody, ?_⟩
  · rw [here, ← String.ofList_toList (s := last), marked, ← toList_marked, String.ofList_toList]
  · rw [known]
    rfl

end Literals

/-! ## The whole interval -/

section Interval

variable {registry : Registry σ φ} {standard : Category σ φ} {row : IntervalRow σ}

/-- An interval whose second field leads back to its category contributes
itself, with the settings that the category gives. -/
theorem ofFields_of_taken {fields : List String} {taken : Fields σ} {category : Category σ φ}
    (taking : takeLiteral registry standard fields = taken)
    (values : taken.values = plainFields standard row)
    (resolved : resolve registry standard (fieldOf standard row.categoryName row.featureType) =
      (category, row.featureType))
    (named : category.name = row.categoryName) (written : row.duration.toList ≠ []) :
    ofFields registry standard row.duration.toList fields =
      ⟨some (.interval { row with settings := taken.settings?.getD category.defaultSettings }),
        taken.note?⟩ := by
  rcases parts_plainFields standard row with ⟨task, second, arguments⟩
  have shown : row.duration.toList.isEmpty = false := List.isEmpty_eq_false_iff.mpr written
  simp only [ofFields, intervalOf, taking, values, task, second, arguments, resolved, named, shown,
    Bool.false_eq_true, if_false, String.ofList_toList]

variable [IntervalSettings σ]

/-- Without commas in the fields, only the literal decides about writing. -/
theorem fieldsOf_of_areFields (registry : Registry σ φ)
    (areFields : ∀ field ∈ plainFields standard row, IsField field.toList) :
    fieldsOf registry standard row =
      match IntervalSettings.literal? row.settings with
      | some literal => .ok (plainFields standard row ++ ["@" ++ literal])
      | none => match mistaken? registry standard (plainFields standard row) with
          | some literal => .error (.literal literal)
          | none => .ok (plainFields standard row) := by
  have noComma :
      ((plainFields standard row).find? fun field => field.toList.contains ',') = none := by
    rw [List.find?_eq_none]
    intro field member contained
    exact (areFields field member).comma (List.contains_iff_mem.mp contained)
  unfold fieldsOf
  dsimp only
  split
  · next field found =>
      rw [noComma] at found
      cases found
  · rfl

end Interval

end Line
end Notation
end PracticePlan
