import PracticePlan.Proofs.Nesting.Around
import PracticePlan.Proofs.Plan.Edits
import PracticePlan.Proofs.Plan.Front

namespace PracticePlan

/-!
# Sections

A group that no group in front of it is above closes all of them, so both passes
come to it with nothing open and go on as if the plan started there.  Indentations
and surrounding groups are for this reason found section by section
(`Plan.indents_append`, `Plan.groupsAround_append`).

What happens in one section can therefore not be seen from another.  Any rows in
the place of a section, and so any edits of it, leave the rows in front and the
sections behind as they were (`Plan.sameAround_within`).
-/

namespace Nesting

variable {α : Type} (levelOf : α → UInt32)

/-! ## Where both passes start again -/

/-- Rows that start with a group no group of other rows is above. -/
def StartsAfresh (others rows : List (Option α)) : Prop :=
  ∃ header rest, rows = some header :: rest ∧
    ∀ group, some group ∈ others → levelOf header ≤ levelOf group

theorem mem_of_mem_stillOpen {group : α} {past : List α} (member : group ∈ stillOpen levelOf past) :
    group ∈ past := by
  induction past with
  | nil => cases member
  | cons last earlier inductionHypothesis =>
      rcases List.mem_cons.mp member with rfl | behind
      · exact List.mem_cons_self
      · have older := (List.dropWhile_sublist _).mem behind
        exact List.mem_cons_of_mem last (inductionHypothesis older)

/-- A group that none in front of it is above leaves none of them open. -/
theorem staying_stillOpen_eq_nil {header : α} {past : List α}
    (low : ∀ group ∈ past, levelOf header ≤ levelOf group) :
    staying levelOf (levelOf header) (stillOpen levelOf past) = [] := by
  rw [staying, List.dropWhile_eq_nil_iff]
  intro group member
  exact decide_eq_true (low group (mem_of_mem_stillOpen levelOf member))

/-! ## The pass that keeps groups -/

/-- Behind some rows the pass goes on with the groups they leave open. -/
theorem openFrom_append (seen : List α) (front back : List (Option α)) (index : Nat) :
    openFrom levelOf (stillOpen levelOf seen) (front ++ back) (front.length + index) =
      openFrom levelOf (stillOpen levelOf (front.reduceOption.reverse ++ seen)) back index := by
  -- The groups seen so far stand for the stack, so that they vary with the rows.
  induction front generalizing seen with
  | nil => rw [List.nil_append, List.length_nil, Nat.zero_add]; rfl
  | cons row rest inductionHypothesis =>
      rw [List.cons_append, List.length_cons, Nat.add_right_comm]
      cases row with
      | none => exact inductionHypothesis seen
      | some group =>
          rw [List.reduceOption_cons_of_some, List.reverse_cons, List.append_assoc,
            List.singleton_append]
          exact inductionHypothesis (group :: seen)

/-- The groups around the rows of a section are those the section has by itself. -/
theorem openBefore_append {front back : List (Option α)}
    (afresh : StartsAfresh levelOf front back) (index : Nat) :
    openBefore levelOf (front ++ back) (front.length + index) = openBefore levelOf back index := by
  rcases afresh with ⟨header, rest, rfl, low⟩
  have closed : staying levelOf (levelOf header)
      (stillOpen levelOf front.reduceOption.reverse) = [] := by
    apply staying_stillOpen_eq_nil
    intro group member
    rw [List.mem_reverse, List.reduceOption_mem_iff] at member
    exact low group member
  have pass := openFrom_append levelOf [] front (some header :: rest) index
  rw [List.append_nil] at pass
  apply congrArg List.reverse
  apply pass.trans
  cases index with
  | zero => exact closed
  | succ index => rw [openFrom, closed]; rfl

/-! ## The pass that indents rows -/

theorem indentsFrom_append (seen : List UInt32) (front back : List (Option UInt32)) :
    indentsFrom (stackBehind seen) (front ++ back) =
      indentsFrom (stackBehind seen) front ++ indentsFrom (stackBehind (past front ++ seen)) back := by
  induction front generalizing seen with
  | nil => rfl
  | cons marker rest inductionHypothesis =>
      rw [List.cons_append]
      cases marker with
      | none =>
          rw [indentsFrom_none, indentsFrom_none, inductionHypothesis, past_none_cons,
            List.cons_append]
      | some level =>
          rw [indentsFrom_some, indentsFrom_some, inductionHypothesis, past_some_cons,
            List.cons_append, List.append_assoc, List.singleton_append]

/-- The indentations of a section are those the section has by itself. -/
theorem indents_append {front back : List (Option UInt32)} (afresh : StartsAfresh id front back) :
    indents (front ++ back) = indents front ++ indents back := by
  rcases afresh with ⟨level, rest, rfl, low⟩
  have lowest : ∀ group ∈ past front, level ≤ group :=
    fun group member => low group (mem_past_iff.mp member)
  have outside : indentBehind (past front) (some level) = 0 := by
    rw [indentBehind, List.find?_eq_none.mpr, Option.getD_none]
    intro group member encloses
    exact UInt32.not_lt.mpr (lowest group member) (of_decide_eq_true encloses)
  have closed : staying id level (stillOpen id (past front)) = [] :=
    staying_stillOpen_eq_nil id lowest
  have stack : stackBehind (level :: past front) = stackBehind [level] :=
    congrArg (fun remaining => level :: remaining ++ [0]) closed
  have pass := indentsFrom_append [] front (some level :: rest)
  rw [List.append_nil, indentsFrom_some, outside, stack] at pass
  exact pass

end Nesting

namespace Plan

variable {σ : Type}

/-! ## Sections of a plan -/

/-- Rows that start with a group which no group of other rows is above. -/
def OpensSection (others rows : List (Row σ)) : Prop :=
  ∃ header rest, rows = .group header :: rest ∧
    ∀ group, .group group ∈ others → header.level ≤ group.level

/-- Fewer groups are easier to be above. -/
theorem OpensSection.mono {others fewer rows : List (Row σ)} (opens : OpensSection others rows)
    (contained : ∀ group, .group group ∈ fewer → .group group ∈ others) :
    OpensSection fewer rows := by
  rcases opens with ⟨header, rest, whole, low⟩
  exact ⟨header, rest, whole, fun group member => low group (contained group member)⟩

/-- A group of the first level opens a section behind any groups. -/
theorem opensSection_of_level_eq_one {others rest : List (Row σ)} {header : GroupRow}
    (first : header.level = 1)
    (made : ∀ group, .group group ∈ others →
      ∃ level name, GroupRow.make? level name = some group) :
    OpensSection others (.group header :: rest) := by
  refine ⟨header, rest, rfl, fun group member => ?_⟩
  rcases made group member with ⟨level, name, success⟩
  rw [GroupRow.make?] at success
  split at success
  · cases success
  · next positive =>
      rw [first, ← Option.some.inj success]
      exact UInt32.le_iff_toNat_le.mpr
        (Nat.one_le_iff_ne_zero.mpr fun none => positive (UInt32.toNat_inj.mp none))

theorem mem_map_group?_iff {rows : List (Row σ)} {group : GroupRow} :
    some group ∈ rows.map Row.group? ↔ .group group ∈ rows := by
  rw [List.mem_map]
  constructor
  · rintro ⟨row, member, same⟩
    cases row with
    | group row =>
        rcases Option.some.inj same with rfl
        exact member
    | interval row => cases same
  · intro member
    exact ⟨.group group, member, rfl⟩

theorem OpensSection.startsAfresh {front back : List (Row σ)} (opens : OpensSection front back) :
    Nesting.StartsAfresh GroupRow.level (front.map Row.group?) (back.map Row.group?) := by
  rcases opens with ⟨header, rest, rfl, low⟩
  exact ⟨header, rest.map Row.group?, rfl,
    fun group member => low group (mem_map_group?_iff.mp member)⟩

theorem OpensSection.startsAfresh_levels {front back : List (Row σ)}
    (opens : OpensSection front back) :
    Nesting.StartsAfresh id (front.map Row.level?) (back.map Row.level?) := by
  rcases opens with ⟨header, rest, rfl, low⟩
  refine ⟨header.level, rest.map Row.level?, rfl, fun level member => ?_⟩
  rcases List.mem_map.mp member with ⟨row, present, marked⟩
  rcases Option.map_eq_some_iff.mp marked with ⟨group, is, rfl⟩
  exact low group (mem_map_group?_iff.mp (is ▸ List.mem_map_of_mem present))

theorem indents_append {front back : List (Row σ)} (opens : OpensSection front back)
    (name : String) :
    (Plan.mk name (front ++ back)).indents =
      (Plan.mk name front).indents ++ (Plan.mk name back).indents := by
  rw [indents, List.map_append, Nesting.indents_append opens.startsAfresh_levels]
  rfl

theorem groupsAround_append {front back : List (Row σ)} (opens : OpensSection front back)
    (name : String) (index : Nat) :
    (Plan.mk name (front ++ back)).groupsAround (front.length + index) =
      (Plan.mk name back).groupsAround index := by
  have pass := Nesting.openBefore_append GroupRow.level opens.startsAfresh index
  rw [List.length_map, ← List.map_append] at pass
  exact pass

/-! ## Edits of a section -/

/-- Plans that may differ in one stretch of rows, which starts at one position and
has its own end in each, and that nest all rows around it alike. -/
structure SameAround (start firstEnd secondEnd : Nat) (first second : Plan σ) : Prop where
  indentsInFront : second.indents.take start = first.indents.take start
  indentsBehind : second.indents.drop secondEnd = first.indents.drop firstEnd
  groupsInFront : ∀ index < start, second.groupsAround index = first.groupsAround index
  groupsBehind : ∀ index, second.groupsAround (secondEnd + index) =
    first.groupsAround (firstEnd + index)

theorem front_within (front back : List (Row σ)) (part : Plan σ) :
    (part.within front back).front front.length = ⟨part.name, front⟩ := by
  rw [Plan.front, within, List.append_assoc, List.take_left]

theorem drop_indents_within {front back : List (Row σ)} {part : Plan σ}
    (opens : OpensSection (front ++ part.rows) back) :
    (part.within front back).indents.drop (front ++ part.rows).length =
      (Plan.mk part.name back).indents := by
  have length : (Plan.mk part.name (front ++ part.rows)).indents.length =
      (front ++ part.rows).length := by
    rw [indents, Nesting.length_indents, List.length_map]
  rw [within, indents_append opens, List.drop_left' length]

/-- Whatever stands in the place of a section, the rows around it are nested as before. -/
theorem sameAround_within {front back : List (Row σ)} {part other : Plan σ}
    (opens : OpensSection (front ++ part.rows) back)
    (reopens : OpensSection (front ++ other.rows) back) :
    SameAround front.length (front ++ part.rows).length (front ++ other.rows).length
      (part.within front back) (other.within front back) where
  indentsInFront := by
    rw [← indents_front, ← indents_front, front_within, front_within]
    rfl
  indentsBehind := by
    rw [drop_indents_within opens, drop_indents_within reopens]
    rfl
  groupsInFront index inside := by
    rw [← groupsAround_front _ inside, ← groupsAround_front (part.within front back) inside,
      front_within, front_within]
    rfl
  groupsBehind index := by
    rw [within, within, groupsAround_append opens, groupsAround_append reopens]
    rfl

/-- A section that opens behind a part and all rows added to it still does so when
the part has been edited. -/
theorem opensSection_edited {front back : List (Row σ)} {part : Plan σ} {edits : List (Edit σ)}
    (opens : OpensSection (front ++ part.rows ++ edits.filterMap Edit.added?) back) :
    OpensSection (front ++ (part.edited edits).rows) back := by
  refine opens.mono fun group member => ?_
  rcases List.mem_append.mp member with inFront | inPart
  · exact List.mem_append_left _ (List.mem_append_left _ inFront)
  · rcases group_mem_edited inPart with there | added
    · exact List.mem_append_left _ (List.mem_append_right _ there)
    · exact List.mem_append_right _ added

/-- The nesting of a plan is found section by section.  Behind rows with no group
above its first one, a section has the indentations and the surrounding groups that
it has by itself.  A group of the first level starts such a section, since no group
is made above it.  Other rows in the place of a section leave the nesting of all rows
in front of it and of the sections behind it alone, and so do edits that stay within
the section, each of which is an edit of the section by itself. -/
theorem nesting_by_sections :
    (∀ (name : String) (front back : List (Row σ)), OpensSection front back →
      (Plan.mk name (front ++ back)).indents =
        (Plan.mk name front).indents ++ (Plan.mk name back).indents ∧
      ∀ index, (Plan.mk name (front ++ back)).groupsAround (front.length + index) =
        (Plan.mk name back).groupsAround index) ∧
    (∀ (front rest : List (Row σ)) (header : GroupRow), header.level = 1 →
      (∀ group, .group group ∈ front → ∃ level name, GroupRow.make? level name = some group) →
        OpensSection front (.group header :: rest)) ∧
    (∀ (front back : List (Row σ)) (part other : Plan σ),
      OpensSection (front ++ part.rows) back → OpensSection (front ++ other.rows) back →
        SameAround front.length (front ++ part.rows).length (front ++ other.rows).length
          (part.within front back) (other.within front back)) ∧
    ∀ (front back : List (Row σ)) (part : Plan σ) (edits : List (Edit σ)),
      part.AreInside edits →
      OpensSection (front ++ part.rows ++ edits.filterMap Edit.added?) back →
        (part.within front back).edited (edits.map (.behind front.length)) =
          (part.edited edits).within front back ∧
        SameAround front.length (front ++ part.rows).length
          (front ++ (part.edited edits).rows).length (part.within front back)
          ((part.within front back).edited (edits.map (.behind front.length))) := by
  refine ⟨fun name front back opens => ⟨indents_append opens name, groupsAround_append opens name⟩,
    fun front rest header first made => opensSection_of_level_eq_one first made,
    fun front back part other opens reopens => sameAround_within opens reopens, ?_⟩
  intro front back part edits inside opens
  have same := edited_within front back inside
  have before : OpensSection (front ++ part.rows) back :=
    opens.mono fun group member => List.mem_append_left _ member
  rw [same]
  exact ⟨rfl, sameAround_within before (opensSection_edited opens)⟩

/-- An evening whose middle section loses its heading. -/
theorem nesting_by_sections_evening :
    let front : List (Row Unit) := [.group ⟨1, "Warm-up"⟩, .group ⟨2, "Slowly"⟩]
    let back : List (Row Unit) := [.group ⟨1, "Pieces"⟩, .group ⟨3, "New"⟩,
      .interval ⟨"10:00", "Prelude", "General", "", [], ()⟩]
    let part : Plan Unit := ⟨"Evening", [.group ⟨1, "Scales"⟩, .group ⟨2, "Major"⟩]⟩
    let edits : List (Edit Unit) := [.insert 2 (.group ⟨4, "Fast"⟩), .move 0 1, .erase 1]
    let edited := (part.within front back).edited (edits.map (.behind front.length))
    edited.rows.map Row.group? = [some ⟨1, "Warm-up"⟩, some ⟨2, "Slowly"⟩, some ⟨2, "Major"⟩,
      some ⟨4, "Fast"⟩, some ⟨1, "Pieces"⟩, some ⟨3, "New"⟩, none] ∧
    edited.indents.drop 4 = [0, 1, 3] ∧
    edited.groupsAround 6 = [⟨1, "Pieces"⟩, ⟨3, "New"⟩] := by
  intro front back part edits edited
  have spec := @nesting_by_sections Unit
  have low : OpensSection (front ++ part.rows ++ edits.filterMap Edit.added?) back := by
    refine ⟨⟨1, "Pieces"⟩, _, rfl, fun group member => ?_⟩
    have levels : (front ++ part.rows ++ edits.filterMap Edit.added?).all
        (fun row => row.level?.all fun level => 1 ≤ level) = true := rfl
    exact of_decide_eq_true (List.all_eq_true.mp levels _ member)
  have around := (spec.2.2.2 front back part edits (by decide) low).2
  exact ⟨by decide, around.indentsBehind, around.groupsBehind 2⟩

end Plan
end PracticePlan
