import PracticePlan.Text.Blank

namespace PracticePlan
namespace Text

/-!
# Trimming

A text is *tight* when no blank stands at either end of it.  Trimming always
produces a tight text and leaves tight texts alone, so the tight texts are
exactly the ones that survive being trimmed.  Blanks put in front of a text or
behind it make no difference to what trimming leaves.
-/

/-- No blank stands in front. -/
def StartsTight (text : List Char) : Prop :=
  ∀ c, text.head? = some c → isBlank c = false

/-- No blank stands at either end. -/
structure Tight (text : List Char) : Prop where
  start : StartsTight text
  finish : StartsTight text.reverse

instance (text : List Char) : Decidable (StartsTight text) :=
  match text with
  | [] => isTrue fun _ impossible => nomatch impossible
  | first :: _ => decidable_of_iff (isBlank first = false)
      ⟨fun shown _ here => Option.some.inj here ▸ shown, fun tight => tight first rfl⟩

instance (text : List Char) : Decidable (Tight text) :=
  decidable_of_iff (StartsTight text ∧ StartsTight text.reverse)
    ⟨fun ends => ⟨ends.1, ends.2⟩, fun tight => ⟨tight.start, tight.finish⟩⟩

theorem tight_of_solid {text : List Char} (solid : ∀ c ∈ text, isBlank c = false) : Tight text :=
  ⟨fun c here => solid c (List.mem_of_head? here),
    fun c here => solid c (List.mem_reverse.mp (List.mem_of_head? here))⟩

/-! ## One side at a time -/

theorem startsTight_trimStart (text : List Char) : StartsTight (trimStart text) := by
  intro c here
  have stopped := List.head?_dropWhile_not isBlank text
  rw [show (text.dropWhile isBlank).head? = some c from here] at stopped
  simpa using stopped

theorem trimStart_of_startsTight {text : List Char} (tight : StartsTight text) :
    trimStart text = text := by
  cases text with
  | nil => rfl
  | cons first rest =>
      have shown : isBlank first = false := tight first rfl
      exact List.dropWhile_cons_of_neg (by simp [shown])

theorem trimStart_append_of_blank {blanks : List Char} (blank : ∀ c ∈ blanks, isBlank c = true)
    (text : List Char) : trimStart (blanks ++ text) = trimStart text :=
  List.dropWhile_append_of_pos blank

theorem trimEnd_eq_reverse (text : List Char) :
    trimEnd text = (trimStart text.reverse).reverse :=
  rfl

theorem trimEnd_append_of_blank (text : List Char) {blanks : List Char}
    (blank : ∀ c ∈ blanks, isBlank c = true) : trimEnd (text ++ blanks) = trimEnd text := by
  rw [trimEnd_eq_reverse, List.reverse_append,
    trimStart_append_of_blank fun c member => blank c (List.mem_reverse.mp member)]
  rfl

theorem trimEnd_of_startsTight_reverse {text : List Char} (tight : StartsTight text.reverse) :
    trimEnd text = text := by
  rw [trimEnd_eq_reverse, trimStart_of_startsTight tight, List.reverse_reverse]

/-- What trimming takes off the end is blank. -/
theorem exists_eq_trimEnd_append (text : List Char) :
    ∃ blanks, text = trimEnd text ++ blanks ∧ ∀ c ∈ blanks, isBlank c = true := by
  refine ⟨(text.reverse.takeWhile isBlank).reverse, ?_, ?_⟩
  · rw [trimEnd, ← List.reverse_append, List.takeWhile_append_dropWhile, List.reverse_reverse]
  · intro c member
    have all := List.all_takeWhile (p := isBlank) (l := text.reverse)
    exact List.all_eq_true.mp all c (List.mem_reverse.mp member)

theorem startsTight_reverse_trimEnd (text : List Char) : StartsTight (trimEnd text).reverse := by
  rw [trimEnd_eq_reverse, List.reverse_reverse]
  exact startsTight_trimStart _

/-- Trimming the end stops at the last character that is no blank. -/
theorem trimEnd_append_cons (before : List Char) {c : Char} (shown : isBlank c = false)
    (after : List Char) : trimEnd (before ++ c :: after) = before ++ c :: trimEnd after := by
  rcases exists_eq_trimEnd_append after with ⟨blanks, whole, blank⟩
  have tight : StartsTight (before ++ c :: trimEnd after).reverse := by
    intro last here
    rw [List.reverse_append, List.reverse_cons, List.append_assoc, List.head?_append] at here
    cases found : (trimEnd after).reverse.head? with
    | some other =>
        rw [found] at here
        exact Option.some.inj here ▸ startsTight_reverse_trimEnd after other found
    | none =>
        rw [found] at here
        exact Option.some.inj here ▸ shown
  calc
    trimEnd (before ++ c :: after) = trimEnd ((before ++ c :: trimEnd after) ++ blanks) := by
      rw [List.append_assoc, List.cons_append, ← whole]
    _ = trimEnd (before ++ c :: trimEnd after) := trimEnd_append_of_blank _ blank
    _ = before ++ c :: trimEnd after := trimEnd_of_startsTight_reverse tight

theorem startsTight_trimEnd {text : List Char} (tight : StartsTight text) :
    StartsTight (trimEnd text) := by
  rcases exists_eq_trimEnd_append text with ⟨blanks, whole, -⟩
  intro c here
  apply tight c
  rw [whole, List.head?_append, here]
  rfl

/-! ## Both sides -/

theorem tight_trim (text : List Char) : Tight (trim text) := by
  constructor
  · exact startsTight_trimEnd (startsTight_trimStart text)
  · exact startsTight_reverse_trimEnd _

theorem trim_of_tight {text : List Char} (tight : Tight text) : trim text = text := by
  rw [trim, trimStart_of_startsTight tight.start, trimEnd_of_startsTight_reverse tight.finish]

/-- The tight texts are those that survive being trimmed. -/
theorem trim_eq_self_iff (text : List Char) : trim text = text ↔ Tight text :=
  ⟨fun same => same ▸ tight_trim text, trim_of_tight⟩

theorem trim_cons_of_blank {c : Char} (blank : isBlank c = true) (text : List Char) :
    trim (c :: text) = trim text := by
  rw [trim, trim, trimStart, List.dropWhile_cons_of_pos blank, trimStart]

theorem trim_blanks_append {blanks : List Char} (blank : ∀ c ∈ blanks, isBlank c = true)
    (text : List Char) : trim (blanks ++ text) = trim text := by
  rw [trim, trimStart_append_of_blank blank, trim]

theorem trim_append_of_blank (text : List Char) {blanks : List Char}
    (blank : ∀ c ∈ blanks, isBlank c = true) : trim (text ++ blanks) = trim text := by
  have started : trimStart (text ++ blanks) =
      if (trimStart text).isEmpty then trimStart blanks else trimStart text ++ blanks :=
    List.dropWhile_append
  cases rest : trimStart text with
  | nil =>
      have nothing : trimStart blanks = [] := by
        have dropped := trimStart_append_of_blank blank []
        rwa [List.append_nil] at dropped
      rw [rest, List.isEmpty_nil, if_pos rfl, nothing] at started
      rw [trim, trim, started, rest]
  | cons first others =>
      rw [rest, List.isEmpty_cons, if_neg Bool.false_ne_true] at started
      rw [trim, trim, started, rest, trimEnd_append_of_blank _ blank]

theorem mem_of_mem_trimStart {text : List Char} {c : Char} (member : c ∈ trimStart text) :
    c ∈ text :=
  (List.dropWhile_sublist isBlank).subset member

theorem mem_of_mem_trimEnd {text : List Char} {c : Char} (member : c ∈ trimEnd text) :
    c ∈ text := by
  rcases exists_eq_trimEnd_append text with ⟨blanks, whole, -⟩
  rw [whole]
  exact List.mem_append_left blanks member

theorem mem_of_mem_trim {text : List Char} {c : Char} (member : c ∈ trim text) : c ∈ text :=
  mem_of_mem_trimStart (mem_of_mem_trimEnd member)

/-- What trimming takes off is blank. -/
theorem exists_eq_append_trim (text : List Char) :
    ∃ front back, text = front ++ (trim text ++ back) ∧
      (∀ c ∈ front, isBlank c = true) ∧ ∀ c ∈ back, isBlank c = true := by
  rcases exists_eq_trimEnd_append (trimStart text) with ⟨back, whole, blank⟩
  refine ⟨text.takeWhile isBlank, back, ?_, ?_, blank⟩
  · rw [trim, ← whole, trimStart, List.takeWhile_append_dropWhile]
  · intro c member
    exact List.all_eq_true.mp List.all_takeWhile c member

/-- A character that is no blank survives trimming. -/
theorem mem_trim_of_mem {text : List Char} {c : Char} (member : c ∈ text)
    (shown : isBlank c = false) : c ∈ trim text := by
  rcases exists_eq_append_trim text with ⟨front, back, whole, frontBlank, backBlank⟩
  rw [whole, List.mem_append, List.mem_append] at member
  rcases member with before | inside | after
  · exact absurd (frontBlank c before) (Bool.eq_false_iff.mp shown)
  · exact inside
  · exact absurd (backBlank c after) (Bool.eq_false_iff.mp shown)

end Text
end PracticePlan
