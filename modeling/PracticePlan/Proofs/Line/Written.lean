import PracticePlan.Notation.Line
import PracticePlan.Proofs.Text.Cutting

namespace PracticePlan
namespace Notation
namespace Line

/-!
# Reading a written line

Two notions say which texts can stand in a line: a *field* stands between
commas, and a *duration* stands in front of the first one.  Both are about the
characters alone and know nothing of the reader or the writer.

A line that was joined from a duration and fields is cut into just these again,
although joining leaves out a single empty field and drops blanks at the end.
Hence what such a line contributes depends on its fields and on nothing else
(`read_joinFields`), and likewise for the line of a group (`read_groupChars`).
-/

/-- A text that can stand between two commas. -/
structure IsField (text : List Char) : Prop where
  comma : ',' ∉ text
  newline : '\n' ∉ text
  tight : Text.Tight text

/-- A text that can stand in front of the first comma. -/
structure IsDuration (text : List Char) : Prop where
  nonempty : text ≠ []
  noGroup : text.head? ≠ some '#'
  comma : ',' ∉ text
  solid : ∀ c ∈ text, Text.isBlank c = false

/-- A name that can stand behind number signs. -/
structure IsGroupName (text : List Char) : Prop where
  newline : '\n' ∉ text
  tight : Text.Tight text

theorem any_isBlank_eq_false_iff {text : List Char} :
    text.any Text.isBlank = false ↔ ∀ c ∈ text, Text.isBlank c = false := by
  simp only [List.any_eq_false, Bool.not_eq_true]

instance (text : List Char) : Decidable (IsField text) :=
  decidable_of_iff (',' ∉ text ∧ '\n' ∉ text ∧ Text.Tight text)
    ⟨fun ⟨comma, newline, tight⟩ => ⟨comma, newline, tight⟩,
      fun ⟨comma, newline, tight⟩ => ⟨comma, newline, tight⟩⟩

instance (text : List Char) : Decidable (IsDuration text) :=
  decidable_of_iff (text ≠ [] ∧ text.head? ≠ some '#' ∧ ',' ∉ text ∧
      text.any Text.isBlank = false)
    ⟨fun ⟨nonempty, noGroup, comma, solid⟩ =>
        ⟨nonempty, noGroup, comma, any_isBlank_eq_false_iff.mp solid⟩,
      fun ⟨nonempty, noGroup, comma, solid⟩ =>
        ⟨nonempty, noGroup, comma, any_isBlank_eq_false_iff.mpr solid⟩⟩

instance (text : List Char) : Decidable (IsGroupName text) :=
  decidable_of_iff ('\n' ∉ text ∧ Text.Tight text)
    ⟨fun ⟨newline, tight⟩ => ⟨newline, tight⟩, fun ⟨newline, tight⟩ => ⟨newline, tight⟩⟩

theorem isField_nil : IsField [] := by
  decide

/-- The writer accepts every duration. -/
theorem IsDuration.isToken {text : List Char} (duration : IsDuration text) :
    isToken text = true := by
  rw [Line.isToken, Bool.and_eq_true, decide_eq_true_eq, List.all_eq_true]
  refine ⟨duration.noGroup, fun c member => ?_⟩
  have other : c ≠ ',' := fun same => duration.comma (same ▸ member)
  rw [duration.solid c member, decide_eq_true other]
  rfl

namespace IsDuration

variable {text : List Char}

theorem tight (duration : IsDuration text) : Text.Tight text :=
  Text.tight_of_solid duration.solid

theorem newline (duration : IsDuration text) : '\n' ∉ text := fun member =>
  absurd (duration.solid '\n' member) (by decide)

end IsDuration

/-! ## Joining and cutting -/

/-- Fields behind a duration, each with its comma and a blank. -/
theorem joinFields_cons {duration : String} {first : String} {others : List String}
    (shown : first :: others ≠ [""]) :
    joinFields duration (first :: others) =
      duration.toList ++ ',' :: Text.trimEnd
        (' ' :: first.toList ++ others.flatMap fun field => ',' :: ' ' :: field.toList) := by
  have shownComma : Text.isBlank ',' = false := by decide
  rw [joinFields, if_neg shown, List.flatMap_cons, List.cons_append]
  exact Text.trimEnd_append_cons _ shownComma _

theorem joinFields_of_hidden {duration : String} (isDuration : IsDuration duration.toList)
    {fields : List String} (hidden : fields = [] ∨ fields = [""]) :
    joinFields duration fields = duration.toList := by
  have nothing : (if fields = [""] then [] else fields) = [] := by
    rcases hidden with rfl | rfl
    · rfl
    · rfl
  rw [joinFields, nothing, List.flatMap_nil, List.append_nil]
  exact Text.trimEnd_of_startsTight_reverse isDuration.tight.finish

theorem exists_joinFields_eq {duration : String} (isDuration : IsDuration duration.toList)
    (fields : List String) :
    ∃ rest, joinFields duration fields = duration.toList ++ rest := by
  by_cases hidden : fields = [] ∨ fields = [""]
  · exact ⟨[], by rw [joinFields_of_hidden isDuration hidden, List.append_nil]⟩
  · rw [not_or] at hidden
    rcases List.exists_cons_of_ne_nil hidden.1 with ⟨first, others, rfl⟩
    exact ⟨_, joinFields_cons hidden.2⟩

theorem tight_joinFields {duration : String} (isDuration : IsDuration duration.toList)
    (fields : List String) : Text.Tight (joinFields duration fields) := by
  refine ⟨?_, Text.startsTight_reverse_trimEnd _⟩
  rcases exists_joinFields_eq isDuration fields with ⟨rest, starts⟩
  rcases List.exists_cons_of_ne_nil isDuration.nonempty with ⟨first, others, whole⟩
  intro c here
  rw [starts, whole, List.cons_append] at here
  exact Option.some.inj here ▸ isDuration.tight.start first (by rw [whole]; rfl)

theorem not_mem_joinFields {duration : String} (isDuration : IsDuration duration.toList)
    {fields : List String} (areFields : ∀ field ∈ fields, IsField field.toList) :
    '\n' ∉ joinFields duration fields := by
  intro member
  rcases List.mem_append.mp (Text.mem_of_mem_trimEnd member) with early | late
  · exact isDuration.newline early
  · rcases List.mem_flatMap.mp late with ⟨field, shown, inside⟩
    have known : field ∈ fields := by
      split at shown
      · exact absurd shown List.not_mem_nil
      · exact shown
    rcases List.mem_cons.mp inside with impossible | inside
    · exact absurd impossible (by decide)
    · rcases List.mem_cons.mp inside with impossible | inside
      · exact absurd impossible (by decide)
      · exact (areFields field known).newline inside

/-- A blank in front of a field does not show once it is trimmed. -/
theorem trim_blank_cons {field : String} (isField : IsField field.toList) :
    String.ofList (Text.trim (' ' :: field.toList)) = field := by
  rw [Text.trim_cons_of_blank (by decide), Text.trim_of_tight isField.tight, String.ofList_toList]

/-- Cutting a joined line gives the duration and the fields back. -/
theorem cutFields_joinFields {duration : String} (isDuration : IsDuration duration.toList)
    {fields : List String} (areFields : ∀ field ∈ fields, IsField field.toList)
    (some_ : fields ≠ []) (shown : fields ≠ [""]) :
    cutFields (joinFields duration fields) = (duration.toList, fields) := by
  rcases List.exists_cons_of_ne_nil some_ with ⟨first, others, rfl⟩
  have absent : ',' ∉ ' ' :: first.toList := by
    rw [List.mem_cons, not_or]
    exact ⟨by decide, (areFields first List.mem_cons_self).comma⟩
  have absents : ∀ piece ∈ others.map fun field => ' ' :: field.toList, ',' ∉ piece := by
    intro piece member
    rcases List.mem_map.mp member with ⟨field, known, rfl⟩
    rw [List.mem_cons, not_or]
    exact ⟨by decide, (areFields field (List.mem_cons_of_mem first known)).comma⟩
  have cut := Text.pieces_append_flatMap absent absents
  rw [List.flatMap_map] at cut
  rw [joinFields_cons shown, cutFields, Text.cut?_append _ _ _ isDuration.comma]
  -- The blank behind every comma is trimmed off again, and so are the blanks that
  -- joining has dropped at the end.
  have trimmed := @Text.map_trim_pieces_trimEnd ',' (by decide)
    (' ' :: first.toList ++ others.flatMap fun field => ',' :: ' ' :: field.toList)
  rw [cut] at trimmed
  have named := congrArg (List.map String.ofList) trimmed
  rw [List.map_map, List.map_map, List.map_cons, List.map_map] at named
  have firstBack := trim_blank_cons (areFields first List.mem_cons_self)
  have othersBack : others.map ((String.ofList ∘ Text.trim) ∘ fun field => ' ' :: field.toList) =
      others := by
    have each : ∀ field ∈ others,
        ((String.ofList ∘ Text.trim) ∘ fun field : String => ' ' :: field.toList) field = field :=
      fun field member => trim_blank_cons (areFields field (List.mem_cons_of_mem first member))
    rw [List.map_congr_left each]
    exact List.map_id' others
  refine Prod.ext rfl (named.trans ?_)
  rw [othersBack, Function.comp_apply, firstBack]

/-! ## Reading -/

section Reading

variable {σ φ : Type} {registry : Registry σ φ} {standard : Category σ φ}

/-- What a line contributes that consists of a duration and fields. -/
def ofFields (registry : Registry σ φ) (standard : Category σ φ) (duration : List Char)
    (fields : List String) : Contribution σ :=
  let taken := takeLiteral registry standard fields
  ⟨some (.interval (intervalOf registry standard duration taken)), taken.note?⟩

theorem ofFields_singleton_empty (duration : List Char) :
    ofFields registry standard duration [""] = ofFields registry standard duration [] :=
  rfl

theorem read_of_trim {line : List Char} {first : Char} {rest : List Char}
    (trimmed : Text.trim line = first :: rest) (noGroup : first ≠ '#') :
    read registry standard line = readInterval registry standard (first :: rest) := by
  unfold read
  rw [trimmed]
  dsimp only
  split
  · next impossible => cases impossible
  · next sign _ starts => exact absurd (List.cons.inj starts).1 noGroup
  · rfl

theorem readInterval_of_cut {line duration : List Char} {fields : List String}
    (cut : cutFields line = (duration, fields)) (isDuration : IsDuration duration) :
    readInterval registry standard line = ofFields registry standard duration fields := by
  have solid := any_isBlank_eq_false_iff.mpr isDuration.solid
  simp only [readInterval, cut, Text.trim_of_tight isDuration.tight, solid, Bool.false_eq_true,
    if_false]
  rfl

/-- A joined line contributes what its fields contribute. -/
theorem read_joinFields {duration : String} (isDuration : IsDuration duration.toList)
    {fields : List String} (areFields : ∀ field ∈ fields, IsField field.toList) :
    read registry standard (joinFields duration fields) =
      ofFields registry standard duration.toList fields := by
  have trimmed := Text.trim_of_tight (tight_joinFields isDuration fields)
  rcases exists_joinFields_eq isDuration fields with ⟨rest, starts⟩
  rcases List.exists_cons_of_ne_nil isDuration.nonempty with ⟨first, others, whole⟩
  have noGroup : first ≠ '#' := fun same => isDuration.noGroup (by rw [whole, same]; rfl)
  have line : joinFields duration fields = first :: (others ++ rest) := by
    rw [starts, whole, List.cons_append]
  rw [read_of_trim (trimmed.trans line) noGroup, ← line]
  by_cases hidden : fields = [] ∨ fields = [""]
  · have cut : cutFields duration.toList = (duration.toList, []) := by
      rw [cutFields, (Text.cut?_eq_none_iff _ _).mpr isDuration.comma]
    rw [joinFields_of_hidden isDuration hidden, readInterval_of_cut cut isDuration]
    rcases hidden with rfl | rfl
    · rfl
    · exact (ofFields_singleton_empty duration.toList).symm
  · rw [not_or] at hidden
    exact readInterval_of_cut (cutFields_joinFields isDuration areFields hidden.1 hidden.2)
      isDuration

/-! ## Groups -/

/-- What stands behind the number signs of a group. -/
theorem groupChars_eq (row : GroupRow) :
    ∃ rest, groupChars row = List.replicate row.level.toNat '#' ++ rest ∧
      (rest = [] ∧ row.name.toList = [] ∨
        rest = ' ' :: row.name.toList ∧ row.name.toList ≠ []) := by
  refine ⟨_, rfl, ?_⟩
  cases named : row.name.isEmpty with
  | true =>
      rw [String.isEmpty_iff] at named
      exact .inl ⟨rfl, by rw [named, String.toList_empty]⟩
  | false =>
      refine .inr ⟨rfl, fun nothing => ?_⟩
      rw [String.toList_eq_nil_iff.mp nothing] at named
      cases named

theorem tight_groupChars {row : GroupRow} (level : row.level ≠ 0)
    (isName : IsGroupName row.name.toList) : Text.Tight (groupChars row) := by
  have positive : row.level.toNat ≠ 0 := fun zero => level (UInt32.toNat_inj.mp zero)
  rcases Nat.exists_eq_succ_of_ne_zero positive with ⟨count, counted⟩
  rcases groupChars_eq row with ⟨rest, line, nameless | named⟩
  · rw [line, nameless.1, List.append_nil, counted]
    refine ⟨?_, ?_⟩
    · intro c here
      rw [List.replicate_succ] at here
      exact Option.some.inj here ▸ by decide
    · intro c here
      rw [List.reverse_replicate, List.replicate_succ] at here
      exact Option.some.inj here ▸ by decide
  · rw [line, named.1, counted, List.replicate_succ]
    refine ⟨?_, ?_⟩
    · intro c here
      exact Option.some.inj here ▸ by decide
    · intro c here
      apply isName.tight.finish c
      rw [List.reverse_append, List.reverse_cons, List.append_assoc, List.head?_append] at here
      cases found : row.name.toList.reverse.head? with
      | none => exact absurd (List.head?_eq_none_iff.mp found) (by simpa using named.2)
      | some last =>
          rw [found] at here
          exact here

theorem not_mem_groupChars {row : GroupRow} (isName : IsGroupName row.name.toList) :
    '\n' ∉ groupChars row := by
  rcases groupChars_eq row with ⟨rest, line, behind⟩
  rw [line]
  intro member
  rcases List.mem_append.mp member with sign | later
  · exact absurd (List.eq_of_mem_replicate sign) (by decide)
  · rcases behind with ⟨rfl, -⟩ | ⟨rfl, -⟩
    · exact absurd later List.not_mem_nil
    · rcases List.mem_cons.mp later with impossible | inside
      · exact absurd impossible (by decide)
      · exact isName.newline inside

/-- The line of a group contributes the group. -/
theorem read_groupChars {row : GroupRow} (level : row.level ≠ 0)
    (isName : IsGroupName row.name.toList) :
    read registry standard (groupChars row) = .ofRow (.group row) := by
  have positive : row.level.toNat ≠ 0 := fun zero => level (UInt32.toNat_inj.mp zero)
  rcases Nat.exists_eq_succ_of_ne_zero positive with ⟨count, counted⟩
  have trimmed := Text.trim_of_tight (tight_groupChars level isName)
  rcases groupChars_eq row with ⟨rest, line, behind⟩
  have noSign : rest.takeWhile (· = '#') = [] ∧ rest.dropWhile (· = '#') = rest := by
    rcases behind with ⟨rfl, -⟩ | ⟨rfl, -⟩
    · exact ⟨rfl, rfl⟩
    · exact ⟨rfl, rfl⟩
  have name : Text.trim rest = row.name.toList := by
    rcases behind with ⟨rfl, nameless⟩ | ⟨rfl, -⟩
    · exact nameless.symm
    · rw [Text.trim_cons_of_blank (by decide), Text.trim_of_tight isName.tight]
  have signs : (groupChars row).takeWhile (· = '#') = List.replicate row.level.toNat '#' := by
    rw [line, List.takeWhile_append_of_pos (by simp), noSign.1, List.append_nil]
  have behindSigns : (groupChars row).dropWhile (· = '#') = rest := by
    rw [line, List.dropWhile_append_of_pos (by simp), noSign.2]
  unfold read
  simp only [trimmed]
  split
  · next nothing =>
      rw [line, counted, List.replicate_succ] at nothing
      cases nothing
  · rw [signs, behindSigns, name, List.length_replicate, UInt32.ofNat_toNat, String.ofList_toList]
    simp only [Contribution.ofGroup, GroupRow.make?, if_neg level]
  · next other =>
      refine (other (List.replicate count '#' ++ rest) ?_).elim
      rw [line, counted, List.replicate_succ, List.cons_append]

end Reading

end Line
end Notation
end PracticePlan
