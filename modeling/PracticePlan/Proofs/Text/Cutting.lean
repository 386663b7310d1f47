import PracticePlan.Proofs.Text.Trimming
import PracticePlan.Text.Pieces

namespace PracticePlan
namespace Text

/-!
# Pieces and lines

Cutting a text undoes joining its pieces, as long as no piece contains the
separator.  Conversely no piece of a text contains the separator, and whatever
a piece contains was in the text.  The same holds of lines, where the newline
is the separator.  A line may also lose a carriage return at its end, so that
only lines without one are certain to come back.

The lines of a text are independent of each other: those of a text that
follows a newline are added behind those in front of it (`lines_append`).
-/

/-! ## Pieces -/

section Pieces

variable {separator : Char}

theorem pieces_of_not_mem {text : List Char} (absent : separator ∉ text) :
    pieces separator text = [text] := by
  induction text with
  | nil => rfl
  | cons c rest inductionHypothesis =>
      rw [List.mem_cons, not_or] at absent
      simp only [pieces, if_neg (Ne.symm absent.1), inductionHypothesis absent.2]

/-- The first piece ends at the first separator. -/
theorem pieces_append_cons {first : List Char} (absent : separator ∉ first) (rest : List Char) :
    pieces separator (first ++ separator :: rest) = first :: pieces separator rest := by
  induction first with
  | nil => simp only [List.nil_append, pieces, if_true]
  | cons c others inductionHypothesis =>
      rw [List.mem_cons, not_or] at absent
      simp only [List.cons_append, pieces, if_neg (Ne.symm absent.1),
        inductionHypothesis absent.2]

/-- Pieces that are each preceded by a separator are cut apart again. -/
theorem pieces_append_flatMap {first : List Char} {others : List (List Char)}
    (absent : separator ∉ first) (absents : ∀ piece ∈ others, separator ∉ piece) :
    pieces separator (first ++ others.flatMap fun piece => separator :: piece) =
      first :: others := by
  induction others generalizing first with
  | nil => rw [List.flatMap_nil, List.append_nil, pieces_of_not_mem absent]
  | cons next rest inductionHypothesis =>
      rw [List.flatMap_cons, List.cons_append, pieces_append_cons absent,
        inductionHypothesis (absents next List.mem_cons_self)
          fun piece member => absents piece (List.mem_cons_of_mem next member)]

/-- Pieces that are joined by separators are cut apart again. -/
theorem pieces_intercalate {parts : List (List Char)} (present : parts ≠ [])
    (absents : ∀ part ∈ parts, separator ∉ part) :
    pieces separator ([separator].intercalate parts) = parts := by
  induction parts with
  | nil => exact absurd rfl present
  | cons first others inductionHypothesis =>
      have absent := absents first List.mem_cons_self
      cases others with
      | nil => rw [List.intercalate_singleton, pieces_of_not_mem absent]
      | cons second rest =>
          rw [List.intercalate_cons_cons, List.append_assoc, List.singleton_append,
            pieces_append_cons absent, inductionHypothesis (List.cons_ne_nil second rest)]
          exact fun part member => absents part (List.mem_cons_of_mem first member)

/-- The pieces of a text, each behind a separator, are the text behind one. -/
theorem flatMap_pieces (separator : Char) (text : List Char) :
    ((pieces separator text).flatMap fun piece => separator :: piece) = separator :: text := by
  induction text with
  | nil => rfl
  | cons c rest inductionHypothesis =>
      rw [pieces]
      split
      · next here => rw [here, List.flatMap_cons, inductionHypothesis, List.singleton_append]
      · obtain ⟨first, others, found⟩ := List.exists_cons_of_ne_nil (pieces_ne_nil separator rest)
        rw [found, List.flatMap_cons] at inductionHypothesis
        rw [found, List.flatMap_cons, List.cons_append, List.cons_append]
        exact congrArg (fun tail => separator :: c :: tail) (List.cons.inj inductionHypothesis).2

theorem not_mem_of_mem_pieces {text piece : List Char} (member : piece ∈ pieces separator text) :
    separator ∉ piece := by
  induction text generalizing piece with
  | nil =>
      rw [pieces, List.mem_singleton] at member
      exact member ▸ List.not_mem_nil
  | cons c rest inductionHypothesis =>
      unfold pieces at member
      split at member
      · rcases List.mem_cons.mp member with rfl | later
        · exact List.not_mem_nil
        · exact inductionHypothesis later
      · next different =>
          rcases List.exists_cons_of_ne_nil (pieces_ne_nil separator rest) with ⟨first, others, cut⟩
          rw [cut] at member inductionHypothesis
          rcases List.mem_cons.mp member with rfl | later
          · rw [List.mem_cons, not_or]
            exact ⟨Ne.symm different, inductionHypothesis List.mem_cons_self⟩
          · exact inductionHypothesis (List.mem_cons_of_mem first later)

theorem mem_of_mem_pieces {text piece : List Char} (member : piece ∈ pieces separator text)
    {c : Char} (inside : c ∈ piece) : c ∈ text := by
  induction text generalizing piece with
  | nil =>
      rw [pieces, List.mem_singleton] at member
      exact absurd (member ▸ inside) List.not_mem_nil
  | cons head rest inductionHypothesis =>
      unfold pieces at member
      split at member
      · rcases List.mem_cons.mp member with rfl | later
        · exact absurd inside List.not_mem_nil
        · exact List.mem_cons_of_mem head (inductionHypothesis later inside)
      · rcases List.exists_cons_of_ne_nil (pieces_ne_nil separator rest) with ⟨first, others, cut⟩
        rw [cut] at member inductionHypothesis
        rcases List.mem_cons.mp member with rfl | later
        · rcases List.mem_cons.mp inside with rfl | deeper
          · exact List.mem_cons_self
          · exact List.mem_cons_of_mem head (inductionHypothesis List.mem_cons_self deeper)
        · exact List.mem_cons_of_mem head
            (inductionHypothesis (List.mem_cons_of_mem first later) inside)

/-- What follows the last separator is added to the last piece. -/
theorem exists_pieces_append {tail : List Char} (absent : separator ∉ tail) (text : List Char) :
    ∃ front last, pieces separator text = front ++ [last] ∧
      pieces separator (text ++ tail) = front ++ [last ++ tail] := by
  induction text with
  | nil => exact ⟨[], [], rfl, pieces_of_not_mem absent⟩
  | cons c rest inductionHypothesis =>
      rcases inductionHypothesis with ⟨front, last, before, after⟩
      by_cases here : c = separator
      · refine ⟨[] :: front, last, ?_, ?_⟩
        · simp only [pieces, if_pos here, before, List.cons_append]
        · simp only [List.cons_append, pieces, if_pos here, after]
      · cases front with
        | nil =>
            refine ⟨[], c :: last, ?_, ?_⟩
            · simp only [pieces, if_neg here, before, List.nil_append]
            · simp only [List.cons_append, pieces, if_neg here, after, List.nil_append]
        | cons first others =>
            refine ⟨(c :: first) :: others, last, ?_, ?_⟩
            · simp only [pieces, if_neg here, before, List.cons_append]
            · simp only [List.cons_append, pieces, if_neg here, after]

/-- Blanks at the end of a text do not show in its trimmed pieces. -/
theorem map_trim_pieces_trimEnd (shown : isBlank separator = false) (text : List Char) :
    (pieces separator (trimEnd text)).map trim = (pieces separator text).map trim := by
  rcases exists_eq_trimEnd_append text with ⟨blanks, whole, blank⟩
  have absent : separator ∉ blanks := fun member => by
    rw [blank separator member] at shown
    exact Bool.false_ne_true shown.symm
  rcases exists_pieces_append absent (trimEnd text) with ⟨front, last, before, after⟩
  rw [← whole] at after
  rw [before, after, List.map_append, List.map_append, List.map_singleton, List.map_singleton,
    trim_append_of_blank last blank]

end Pieces

/-! ## The first separator -/

/-- A cut takes out one separator, and none stands in front of it. -/
theorem eq_append_of_cut? {separator : Char} {text before after : List Char}
    (cut : cut? separator text = some (before, after)) :
    text = before ++ separator :: after ∧ separator ∉ before := by
  induction text generalizing before with
  | nil => cases cut
  | cons c rest inductionHypothesis =>
      by_cases here : c = separator
      · rw [cut?, if_pos here] at cut
        cases cut
        exact ⟨by rw [here, List.nil_append], List.not_mem_nil⟩
      · rw [cut?, if_neg here, Option.map_eq_some_iff] at cut
        rcases cut with ⟨⟨start, behind⟩, found, rejoined⟩
        cases rejoined
        rcases inductionHypothesis found with ⟨split, absent⟩
        refine ⟨by rw [split, List.cons_append], ?_⟩
        rw [List.mem_cons, not_or]
        exact ⟨Ne.symm here, absent⟩

/-! ## Lines -/

theorem linesFrom_append {part : List Char} (absent : '\n' ∉ part) (pending rest : List Char) :
    linesFrom pending (part ++ rest) = linesFrom (part.reverse ++ pending) rest := by
  induction part generalizing pending with
  | nil => rfl
  | cons c others inductionHypothesis =>
      rw [List.mem_cons, not_or] at absent
      rw [List.cons_append, linesFrom, if_neg (Ne.symm absent.1),
        inductionHypothesis absent.2, List.reverse_cons, List.append_assoc]
      rfl

/-- A line that does not end in a carriage return is read as it stands. -/
theorem lines_append_cons {line : List Char} (absent : '\n' ∉ line)
    (ended : line.getLast? ≠ some '\r') (rest : List Char) :
    lines (line ++ '\n' :: rest) = line :: lines rest := by
  rw [lines, linesFrom_append absent, linesFrom, if_pos rfl, List.append_nil,
    List.reverse_reverse, dropReturn, if_neg ended, lines]

/-- Whether a text stops where a line does, so that what follows it starts a line. -/
def IsEnded (text : List Char) : Prop :=
  text = [] ∨ text.getLast? = some '\n'

theorem linesFrom_append_newline (pending front rest : List Char) :
    linesFrom pending (front ++ '\n' :: rest) =
      linesFrom pending (front ++ ['\n']) ++ lines rest := by
  induction front generalizing pending with
  | nil => rfl
  | cons c others inductionHypothesis =>
      rw [List.cons_append, List.cons_append, linesFrom, linesFrom]
      by_cases newline : c = '\n'
      · rw [if_pos newline, if_pos newline, inductionHypothesis, List.cons_append]
      · rw [if_neg newline, if_neg newline, inductionHypothesis]

/-- Lines behind a text that has ended are added to its lines. -/
theorem lines_append {text : List Char} (ended : IsEnded text) (rest : List Char) :
    lines (text ++ rest) = lines text ++ lines rest := by
  rcases ended with rfl | newline
  · rfl
  · rcases List.getLast?_eq_some_iff.mp newline with ⟨front, rfl⟩
    rw [List.append_assoc, List.singleton_append]
    exact linesFrom_append_newline [] front rest

theorem not_mem_of_mem_linesFrom {pending text line : List Char} (absent : '\n' ∉ pending)
    (member : line ∈ linesFrom pending text) : '\n' ∉ line := by
  induction text generalizing pending with
  | nil =>
      rw [linesFrom] at member
      split at member
      · exact absurd member List.not_mem_nil
      · rw [List.mem_singleton] at member
        rw [member, List.mem_reverse]
        exact absent
  | cons c rest inductionHypothesis =>
      rw [linesFrom] at member
      split at member
      · rcases List.mem_cons.mp member with rfl | later
        · unfold dropReturn
          split
          · intro inside
            exact absent (List.mem_reverse.mp ((List.dropLast_sublist _).subset inside))
          · intro inside
            exact absent (List.mem_reverse.mp inside)
        · exact inductionHypothesis List.not_mem_nil later
      · next different =>
          refine inductionHypothesis ?_ member
          rw [List.mem_cons, not_or]
          exact ⟨Ne.symm different, absent⟩

theorem not_mem_of_mem_lines {text line : List Char} (member : line ∈ lines text) :
    '\n' ∉ line :=
  not_mem_of_mem_linesFrom List.not_mem_nil member

end Text
end PracticePlan
