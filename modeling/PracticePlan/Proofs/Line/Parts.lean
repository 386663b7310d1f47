import PracticePlan.Proofs.Line.Written

namespace PracticePlan
namespace Notation
namespace Line

/-!
# The parts of a line

A line that is not blank is a group or an interval.  A group consists of blanks,
number signs and a name, and an interval of the text in front of the first comma
and the text behind it.  What the reader makes of a line is given here in terms
of these parts, with the blanks around the line still there
(`read_group_parts`, `read_interval_parts`).
-/

/-! ## Trimming parts -/

theorem dropWhile_append_of_head {belongs : Char → Bool} {front rest : List Char}
    (inside : ∀ c ∈ front, belongs c = true) (stop : ∀ c, rest.head? = some c → belongs c = false) :
    (front ++ rest).dropWhile belongs = rest := by
  rw [List.dropWhile_append_of_pos inside]
  cases rest with
  | nil => rfl
  | cons c others => exact List.dropWhile_cons_of_neg (Bool.eq_false_iff.mp (stop c rfl))

theorem takeWhile_append_of_head {belongs : Char → Bool} {front rest : List Char}
    (inside : ∀ c ∈ front, belongs c = true) (stop : ∀ c, rest.head? = some c → belongs c = false) :
    (front ++ rest).takeWhile belongs = front := by
  have whole := List.takeWhile_append_dropWhile (p := belongs) (l := front ++ rest)
  rw [dropWhile_append_of_head inside stop] at whole
  exact List.append_cancel_right whole

theorem trim_eq_nil_iff {text : List Char} :
    Text.trim text = [] ↔ ∀ c ∈ text, Text.isBlank c = true := by
  constructor
  · intro nothing c member
    rcases Text.exists_eq_append_trim text with ⟨front, back, whole, frontBlank, backBlank⟩
    rw [whole, nothing, List.nil_append, List.mem_append] at member
    exact member.elim (frontBlank c) (backBlank c)
  · intro blank
    have nothing := Text.trim_append_of_blank [] blank
    rw [List.nil_append] at nothing
    exact nothing

theorem trimEnd_append_of_solid {front : List Char} (solid : ∀ c ∈ front, Text.isBlank c = false)
    (rest : List Char) : Text.trimEnd (front ++ rest) = front ++ Text.trimEnd rest := by
  induction front with
  | nil => rfl
  | cons c others inductionHypothesis =>
      have both := List.forall_mem_cons.mp solid
      have here := Text.trimEnd_append_cons [] both.1 (others ++ rest)
      rw [List.nil_append, List.nil_append] at here
      rw [List.cons_append, here, inductionHypothesis both.2, List.cons_append]

theorem trimStart_append_cons (before : List Char) {c : Char} (shown : Text.isBlank c = false)
    (after : List Char) :
    Text.trimStart (before ++ c :: after) = Text.trimStart before ++ c :: after := by
  have rest : (c :: after).dropWhile Text.isBlank = c :: after :=
    List.dropWhile_cons_of_neg (Bool.eq_false_iff.mp shown)
  rw [Text.trimStart, List.dropWhile_append, rest, Text.trimStart]
  split
  · next nothing => rw [List.isEmpty_iff.mp nothing, List.nil_append]
  · rfl

theorem trim_trimEnd (text : List Char) : Text.trim (Text.trimEnd text) = Text.trim text := by
  rcases Text.exists_eq_trimEnd_append text with ⟨back, whole, blank⟩
  have same := Text.trim_append_of_blank (Text.trimEnd text) blank
  rw [← whole] at same
  exact same.symm

theorem trim_trimStart (text : List Char) : Text.trim (Text.trimStart text) = Text.trim text := by
  rw [Text.trim, Text.trimStart_of_startsTight (Text.startsTight_trimStart text), Text.trim]

/-- Trimming keeps a solid text behind blanks and trims what follows it. -/
theorem trim_append_of_solid {before solid rest : List Char}
    (blank : ∀ c ∈ before, Text.isBlank c = true) (shown : ∀ c ∈ solid, Text.isBlank c = false)
    (present : solid ≠ []) :
    Text.trim (before ++ (solid ++ rest)) = solid ++ Text.trimEnd rest := by
  have start : Text.StartsTight (solid ++ rest) := by
    intro c here
    rcases List.exists_cons_of_ne_nil present with ⟨first, others, rfl⟩
    exact Option.some.inj here ▸ shown first List.mem_cons_self
  rw [Text.trim, Text.trimStart_append_of_blank blank, Text.trimStart_of_startsTight start,
    trimEnd_append_of_solid shown]

/-- The first character of a text is that of its front, unless the front is blank. -/
theorem head?_trim_append {front : List Char} {c : Char}
    (here : (Text.trim front).head? = some c) (rest : List Char) :
    (Text.trim (front ++ rest)).head? = some c := by
  have shown := (Text.tight_trim front).start c here
  rcases Text.exists_eq_append_trim front with ⟨before, back, whole, blank, -⟩
  rcases List.head?_eq_some_iff.mp here with ⟨others, trimmed⟩
  have line : front ++ rest = before ++ ([c] ++ (others ++ (back ++ rest))) := by
    rw [trimmed] at whole
    rw [whole]
    simp
  have solid : ∀ d ∈ [c], Text.isBlank d = false := by simpa using shown
  rw [line, trim_append_of_solid blank solid (List.cons_ne_nil c [])]
  rfl

/-- Blanks around a text that has none at its ends are trimmed off. -/
theorem trim_between_blanks {before text after : List Char}
    (front : ∀ c ∈ before, Text.isBlank c = true) (tight : Text.Tight text)
    (back : ∀ c ∈ after, Text.isBlank c = true) :
    Text.trim (before ++ (text ++ after)) = text := by
  rw [Text.trim_blanks_append front, Text.trim_append_of_blank text back, Text.trim_of_tight tight]

theorem tight_of_isDuration {duration : List Char}
    (isDuration : duration = [] ∨ IsDuration duration) : Text.Tight duration := by
  rcases isDuration with rfl | isDuration
  · decide
  · exact isDuration.tight

/-! ## Head and tail -/

/-- A comma and the text behind it, unless there is no comma. -/
def tailChars : Option (List Char) → List Char
  | none => []
  | some tail => ',' :: tail

/-- The text in front of the first comma is determined by the line. -/
theorem eq_of_append_tailChars {head other : List Char} {tail? rest? : Option (List Char)}
    (absent : ',' ∉ head) (missing : ',' ∉ other)
    (same : head ++ tailChars tail? = other ++ tailChars rest?) : head = other ∧ tail? = rest? := by
  have cut {front : List Char} (plain : ',' ∉ front) (rest? : Option (List Char)) :
      Text.cut? ',' (front ++ tailChars rest?) = rest?.map fun rest => (front, rest) := by
    cases rest? with
    | none =>
        rw [tailChars, List.append_nil]
        exact (Text.cut?_eq_none_iff _ _).mpr plain
    | some rest => exact Text.cut?_append _ _ _ plain
  have answers := cut absent tail?
  rw [same, cut missing rest?] at answers
  cases tail? with
  | none =>
      cases rest? with
      | none => exact ⟨by simpa [tailChars] using same, rfl⟩
      | some rest => cases answers
  | some tail =>
      cases rest? with
      | none => cases answers
      | some rest =>
          cases Option.some.inj answers
          exact ⟨rfl, rfl⟩

theorem exists_tailChars (line : List Char) :
    ∃ head tail?, line = head ++ tailChars tail? ∧ ',' ∉ head := by
  cases cut : Text.cut? ',' line with
  | none => exact ⟨line, none, (List.append_nil line).symm, (Text.cut?_eq_none_iff _ _).mp cut⟩
  | some parts =>
      rcases Text.eq_append_of_cut? cut with ⟨whole, absent⟩
      exact ⟨parts.1, some parts.2, whole, absent⟩

/-- The trimmed fields behind the first comma. -/
def fieldsOfTail (tail? : Option (List Char)) : List String :=
  (tail?.map fun tail =>
    (Text.pieces ',' tail).map fun piece => String.ofList (Text.trim piece)).getD []

/-- Blanks around a line make no difference to its parts, except that the text in
front of the comma is trimmed. -/
theorem cutFields_trim {head : List Char} (absent : ',' ∉ head) (tail? : Option (List Char)) :
    ∃ front, Text.trim front = Text.trim head ∧
      cutFields (Text.trim (head ++ tailChars tail?)) = (front, fieldsOfTail tail?) := by
  cases tail? with
  | none =>
      refine ⟨Text.trim head, Text.trim_of_tight (Text.tight_trim head), ?_⟩
      have missing : ',' ∉ Text.trim head := fun member => absent (Text.mem_of_mem_trim member)
      rw [tailChars, List.append_nil, cutFields, (Text.cut?_eq_none_iff _ _).mpr missing]
      rfl
  | some tail =>
      refine ⟨Text.trimStart head, trim_trimStart head, ?_⟩
      have missing : ',' ∉ Text.trimStart head := fun member =>
        absent (Text.mem_of_mem_trimStart member)
      have shown : Text.isBlank ',' = false := by decide
      have fields := congrArg (List.map String.ofList) (Text.map_trim_pieces_trimEnd shown tail)
      rw [List.map_map, List.map_map] at fields
      rw [tailChars, Text.trim, trimStart_append_cons _ shown, Text.trimEnd_append_cons _ shown,
        cutFields, Text.cut?_append _ _ _ missing]
      exact Prod.ext rfl fields

/-- The text in front of the comma is a duration, or empty, when no blank is in it. -/
theorem isDuration_trim_iff {head : List Char} (absent : ',' ∉ head)
    (noGroup : (Text.trim head).head? ≠ some '#') :
    Text.trim head = [] ∨ IsDuration (Text.trim head) ↔
      (Text.trim head).any Text.isBlank = false := by
  rw [any_isBlank_eq_false_iff]
  constructor
  · rintro (nothing | isDuration)
    · rw [nothing]
      exact fun c member => absurd member List.not_mem_nil
    · exact isDuration.solid
  · intro solid
    by_cases nothing : Text.trim head = []
    · exact .inl nothing
    · exact .inr ⟨nothing, noGroup, fun member => absent (Text.mem_of_mem_trim member), solid⟩

/-! ## What is read -/

variable {σ φ : Type} {registry : Registry σ φ} {standard : Category σ φ}

theorem read_blank {line : List Char} (blank : ∀ c ∈ line, Text.isBlank c = true) :
    read registry standard line = .nothing := by
  rw [read, trim_eq_nil_iff.mpr blank]

/-- A line that starts with a number sign has all its signs together. -/
theorem exists_group_parts {line : List Char} (sign : (Text.trim line).head? = some '#') :
    ∃ before signs rest, line = before ++ '#' :: (signs ++ rest) ∧
      (∀ c ∈ before, Text.isBlank c = true) ∧ (∀ c ∈ signs, c = '#') ∧ rest.head? ≠ some '#' := by
  rcases Text.exists_eq_append_trim line with ⟨before, back, whole, blank, -⟩
  rcases List.head?_eq_some_iff.mp sign with ⟨others, trimmed⟩
  refine ⟨before, (others ++ back).takeWhile (· = '#'), (others ++ back).dropWhile (· = '#'), ?_,
    blank, ?_, ?_⟩
  · rw [List.takeWhile_append_dropWhile]
    rw [trimmed] at whole
    exact whole
  · intro c member
    exact of_decide_eq_true (List.all_eq_true.mp List.all_takeWhile c member)
  · intro here
    have stopped := List.head?_dropWhile_not (fun c : Char => decide (c = '#')) (others ++ back)
    rw [here] at stopped
    exact absurd stopped (by decide)

/-- A group is read from its number signs and the text behind them. -/
theorem read_group_parts {before signs rest : List Char}
    (blank : ∀ c ∈ before, Text.isBlank c = true) (sharp : ∀ c ∈ signs, c = '#')
    (stop : rest.head? ≠ some '#') :
    read registry standard (before ++ '#' :: (signs ++ rest)) =
      .ofGroup (UInt32.ofNat ('#' :: signs).length) (String.ofList (Text.trim rest)) := by
  have solid : ∀ c ∈ '#' :: signs, Text.isBlank c = false := by
    refine List.forall_mem_cons.mpr ⟨by decide, fun c member => ?_⟩
    rw [sharp c member]
    decide
  have trimmed : Text.trim (before ++ '#' :: (signs ++ rest)) =
      '#' :: signs ++ Text.trimEnd rest :=
    trim_append_of_solid blank solid (List.cons_ne_nil '#' signs)
  have inside : ∀ c ∈ '#' :: signs, decide (c = '#') = true :=
    List.forall_mem_cons.mpr ⟨rfl, fun c member => decide_eq_true (sharp c member)⟩
  have stopped : ∀ c, (Text.trimEnd rest).head? = some c → decide (c = '#') = false := by
    intro c here
    refine decide_eq_false fun same => stop ?_
    rcases Text.exists_eq_trimEnd_append rest with ⟨back, whole, -⟩
    rw [whole, List.head?_append, here, same]
    rfl
  unfold read
  rw [trimmed]
  dsimp only
  rw [takeWhile_append_of_head inside stopped,
    dropWhile_append_of_head inside stopped, trim_trimEnd]
  rfl

theorem read_interval_parts {head : List Char} {tail? : Option (List Char)} (absent : ',' ∉ head)
    (shown : Text.trim (head ++ tailChars tail?) ≠ [])
    (noGroup : (Text.trim (head ++ tailChars tail?)).head? ≠ some '#') :
    read registry standard (head ++ tailChars tail?) =
      if (Text.trim head).any Text.isBlank then
        .skipped (.unrecognized (String.ofList (Text.trim (head ++ tailChars tail?))))
      else ofFields registry standard (Text.trim head) (fieldsOfTail tail?) := by
  rcases List.exists_cons_of_ne_nil shown with ⟨first, rest, trimmed⟩
  have sign : first ≠ '#' := fun same => noGroup (by rw [trimmed, same]; rfl)
  rcases cutFields_trim absent tail? with ⟨front, same, cut⟩
  rw [read_of_trim trimmed sign, ← trimmed, readInterval, cut]
  dsimp only
  rw [same]
  rfl

end Line
end Notation
end PracticePlan
