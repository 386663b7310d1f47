import PracticePlan.Proofs.Line.Fields
import PracticePlan.Proofs.Line.Naming
import PracticePlan.Proofs.Line.Reread

namespace PracticePlan
namespace Notation
namespace Line

/-!
# What lines can say

Whatever text is read, the rows that come out have texts of a certain form.  A
name, a task, a feature type and an argument have no blanks around them and no
newline in them, and a duration is one token.  The category of an interval is
registered, and its settings are the default of the category or were read by it
from a literal (`isRead_of_mem_readPlan`).

A row that is not of this form cannot be what any text is read as, so no way of
writing it would bring it back.
-/

variable {σ φ : Type}

/-- Settings that a category gives to an interval in a line. -/
def IsReadSettings (category : Category σ φ) (settings : σ) : Prop :=
  settings = category.defaultSettings ∨
    ∃ literal, category.settingsOfLiteral? literal = some (.ok settings)

/-- An interval as a line gives it. -/
structure IsReadInterval (registry : Registry σ φ) (row : IntervalRow σ) : Prop where
  duration : IsDuration row.duration.toList
  task : IsField row.task.toList
  featureType : IsField row.featureType.toList
  arguments : ∀ argument ∈ row.arguments, IsField argument.toList
  settings : ∃ category, registry.category? row.categoryName = some category ∧
    IsReadSettings category row.settings

/-- A row as a line gives it. -/
def IsRead (registry : Registry σ φ) : Row σ → Prop
  | .group row => row.level ≠ 0 ∧ IsGroupName row.name.toList
  | .interval row => IsReadInterval registry row

variable {registry : Registry σ φ} {standard : Category σ φ}

/-! ## Names -/

theorem isField_trim {field part : List Char} (isField : IsField field)
    (inside : ∀ c ∈ part, c ∈ field) : IsField (Text.trim part) :=
  ⟨fun member => isField.comma (inside _ (Text.mem_of_mem_trim member)),
    fun member => isField.newline (inside _ (Text.mem_of_mem_trim member)), Text.tight_trim part⟩

/-- The type that a field stands for is a field again. -/
theorem isField_resolve {field : String} (isField : IsField field.toList) :
    IsField (resolve registry standard field).2.toList := by
  unfold resolve
  split
  · rw [String.toList_empty]
    exact isField_nil
  · split
    · next found explicit =>
        rcases Option.bind_eq_some_iff.mp explicit with ⟨parts, qualified, known⟩
        rcases Option.map_eq_some_iff.mp known with ⟨category, -, rfl⟩
        rcases Option.map_eq_some_iff.mp qualified with ⟨⟨before, after⟩, cut, rfl⟩
        rw [String.toList_ofList]
        apply isField_trim isField
        intro c member
        rw [(Text.eq_append_of_cut? cut).1]
        exact List.mem_append_right before (List.mem_cons_of_mem _ member)
    · split
      · exact isField
      · split
        · exact isField
        · exact isField

/-! ## Intervals -/

theorem mem_of_mem_takeLiteral {fields : List String} {field : String}
    (member : field ∈ (takeLiteral registry standard fields).values) : field ∈ fields := by
  rcases values_takeLiteral registry standard fields with same | dropped
  · exact same ▸ member
  · exact (List.dropLast_sublist fields).subset (dropped ▸ member)

/-- Taking the last field off does not change which field names the type. -/
theorem headD_tail_dropLast (fields : List String) :
    fields.dropLast.tail.headD "" = typeField fields := by
  rcases fields with _ | ⟨first, _ | ⟨second, _ | ⟨third, others⟩⟩⟩
  · rfl
  · rfl
  · rfl
  · rfl

/-- The settings of an interval are given by the category of the interval. -/
theorem isReadSettings_intervalOf (duration : List Char) (fields : List String) :
    IsReadSettings
      (resolve registry standard
        ((takeLiteral registry standard fields).values.tail.headD "")).1
      (intervalOf registry standard duration (takeLiteral registry standard fields)).settings := by
  rw [intervalOf]
  dsimp only
  cases taken : fields.getLast?.bind fun last =>
      lastLiteral? registry standard fields last.toList with
  | none =>
      simp only [takeLiteral, taken]
      exact .inl rfl
  | some answer =>
      rcases answer with ⟨body, outcome⟩
      cases outcome with
      | error cause =>
          simp only [takeLiteral, taken]
          exact .inl rfl
      | ok settings =>
          rcases Option.bind_eq_some_iff.mp taken with ⟨last, -, found⟩
          rcases Option.bind_eq_some_iff.mp found with ⟨literal, -, answered⟩
          rcases Option.map_eq_some_iff.mp answered with ⟨outcome, known, same⟩
          rcases Prod.mk.inj same with ⟨rfl, rfl⟩
          simp only [takeLiteral, taken, headD_tail_dropLast]
          exact .inr ⟨literal, known⟩

theorem isField_headD {fields : List String} (areFields : ∀ field ∈ fields, IsField field.toList) :
    IsField (fields.headD "").toList := by
  cases fields with
  | nil => exact isField_nil
  | cons first others => exact areFields first List.mem_cons_self

/-- An interval made of a token and fields is one as a line gives it. -/
theorem isReadInterval_intervalOf (registered : registry.category? standard.name = some standard)
    {duration : List Char} (isDuration : duration = [] ∨ IsDuration duration)
    {fields : List String} (areFields : ∀ field ∈ fields, IsField field.toList) :
    IsReadInterval registry
      (intervalOf registry standard duration (takeLiteral registry standard fields)) := by
  have values : ∀ field ∈ (takeLiteral registry standard fields).values, IsField field.toList :=
    fun field member => areFields field (mem_of_mem_takeLiteral member)
  have behind : ∀ field ∈ (takeLiteral registry standard fields).values.tail,
      IsField field.toList := fun field member => values field (List.mem_of_mem_tail member)
  refine ⟨?_, isField_headD values, isField_resolve (isField_headD behind),
    fun argument member => values argument (List.mem_of_mem_drop member),
    ⟨_, category?_resolve registered _, isReadSettings_intervalOf duration fields⟩⟩
  rw [intervalOf]
  dsimp only
  split
  · decide
  · next shown =>
      rw [String.toList_ofList]
      exact isDuration.resolve_left fun nothing => shown (by rw [nothing]; rfl)

theorem head?_trim {part : List Char} (tight : Text.StartsTight part) {c : Char}
    (here : (Text.trim part).head? = some c) : part.head? = some c := by
  rcases Text.exists_eq_trimEnd_append part with ⟨blanks, whole, -⟩
  rw [Text.trim, Text.trimStart_of_startsTight tight] at here
  rw [whole, List.head?_append, here]
  rfl

/-- Cutting a line gives a text without a comma and fields. -/
theorem cutFields_spec {line : List Char} (newline : '\n' ∉ line) :
    ∃ rest, line = (cutFields line).1 ++ rest ∧ ',' ∉ (cutFields line).1 ∧
      ∀ field ∈ (cutFields line).2, IsField field.toList := by
  unfold cutFields
  cases cut : Text.cut? ',' line with
  | none =>
      exact ⟨[], (List.append_nil line).symm, (Text.cut?_eq_none_iff _ _).mp cut,
        fun _ member => absurd member List.not_mem_nil⟩
  | some parts =>
      rcases parts with ⟨before, after⟩
      rcases Text.eq_append_of_cut? cut with ⟨whole, absent⟩
      refine ⟨_, whole, absent, fun field member => ?_⟩
      rcases List.mem_map.mp member with ⟨piece, known, rfl⟩
      rw [String.toList_ofList]
      refine ⟨fun inside => Text.not_mem_of_mem_pieces known (Text.mem_of_mem_trim inside),
        fun inside => newline ?_, Text.tight_trim piece⟩
      rw [whole]
      exact List.mem_append_right before (List.mem_cons_of_mem _
        (Text.mem_of_mem_pieces known (Text.mem_of_mem_trim inside)))

/-- A line that is no group gives an interval of the right form, or no row. -/
theorem isRead_readInterval (registered : registry.category? standard.name = some standard)
    {line : List Char} (newline : '\n' ∉ line) (tight : Text.StartsTight line)
    (noGroup : line.head? ≠ some '#') {row : Row σ}
    (read : (readInterval registry standard line).row? = some row) : IsRead registry row := by
  rcases cutFields_spec newline with ⟨rest, whole, comma, areFields⟩
  unfold readInterval at read
  dsimp only at read
  split at read
  · cases read
  · next solid =>
      rcases Option.some.inj read with rfl
      have starts : ∀ c, (cutFields line).1.head? = some c → line.head? = some c := by
        intro c here
        rw [whole, List.head?_append, here]
        rfl
      have part : Text.StartsTight (cutFields line).1 := fun c here => tight c (starts c here)
      refine isReadInterval_intervalOf registered ?_ areFields
      by_cases nothing : Text.trim (cutFields line).1 = []
      · exact .inl nothing
      · refine .inr ⟨nothing, fun sign => noGroup (starts '#' (head?_trim part sign)),
          fun inside => comma (Text.mem_of_mem_trim inside), fun c member => ?_⟩
        exact Bool.eq_false_iff.mpr fun blank => solid (List.any_eq_true.mpr ⟨c, member, blank⟩)

/-! ## Plans -/

theorem isRead_read (registered : registry.category? standard.name = some standard)
    {line : List Char} (newline : '\n' ∉ line) {row : Row σ}
    (read : (read registry standard line).row? = some row) : IsRead registry row := by
  have kept : '\n' ∉ Text.trim line := fun member => newline (Text.mem_of_mem_trim member)
  have tight := (Text.tight_trim line).start
  unfold Line.read at read
  dsimp only at read
  split at read
  · cases read
  · rcases Contribution.row?_ofGroup read with ⟨level, rfl⟩
    refine ⟨level, ?_⟩
    rw [String.toList_ofList]
    exact ⟨fun member => kept ((List.dropWhile_sublist _).subset
      (Text.mem_of_mem_trim member)), Text.tight_trim _⟩
  · next other =>
      refine isRead_readInterval registered kept tight (fun sign => ?_) read
      rcases List.head?_eq_some_iff.mp sign with ⟨rest, starts⟩
      exact other rest starts

/-- Every row of a plan that was read from lines has the right form. -/
theorem isRead_of_mem_readPlan (registered : registry.category? standard.name = some standard)
    {text : String} {row : Row σ} (member : row ∈ (readPlan registry standard text).plan.rows) :
    IsRead registry row := by
  rw [rows_readPlan, List.mem_filterMap] at member
  rcases member with ⟨contribution, known, given⟩
  rcases List.mem_map.mp known with ⟨line, inside, rfl⟩
  exact isRead_read registered (Text.not_mem_of_mem_lines inside) given

end Line
end Notation
end PracticePlan
