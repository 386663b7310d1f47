namespace PracticePlan
namespace Text

/-!
# Cutting a text into pieces

Three cuts are needed: at every occurrence of a separator, at the first
occurrence only, and into lines.  None of them interprets quotes or escapes,
since the plan notation has neither.

A text has one piece more than it has separators (`length_pieces`), so the empty
text has one empty piece.  `cut?_eq_none_iff` and `cut?_append` determine the cut
at the first occurrence.  Lines differ from pieces in two ways.  A final newline starts no
further line, and a carriage return in front of a newline belongs to the line
end, whereas one at the very end of the text belongs to the last line.
-/

/-- The pieces between the occurrences of `separator`. -/
def pieces (separator : Char) : List Char → List (List Char)
  | [] => [[]]
  | c :: rest =>
      if c = separator then [] :: pieces separator rest
      else match pieces separator rest with
        | [] => [[c]]
        | first :: others => (c :: first) :: others

theorem pieces_ne_nil (separator : Char) (text : List Char) : pieces separator text ≠ [] := by
  induction text with
  | nil => simp [pieces]
  | cons c rest inductionHypothesis =>
      unfold pieces
      split
      · simp
      · split <;> simp

theorem length_pieces (separator : Char) (text : List Char) :
    (pieces separator text).length = text.count separator + 1 := by
  induction text with
  | nil => simp [pieces]
  | cons c rest inductionHypothesis =>
      by_cases here : c = separator
      · simp [pieces, here, inductionHypothesis]
      · obtain ⟨first, others, found⟩ := List.exists_cons_of_ne_nil (pieces_ne_nil separator rest)
        simpa [pieces, here, found] using inductionHypothesis

/-- The text before the first `separator` and the text after it, or nothing
when the separator does not occur. -/
def cut? (separator : Char) : List Char → Option (List Char × List Char)
  | [] => none
  | c :: rest =>
      if c = separator then some ([], rest)
      else (cut? separator rest).map fun parts => (c :: parts.1, parts.2)

theorem cut?_eq_none_iff (separator : Char) (text : List Char) :
    cut? separator text = none ↔ separator ∉ text := by
  induction text with
  | nil => simp [cut?]
  | cons c rest inductionHypothesis =>
      by_cases here : c = separator
      · simp [cut?, here]
      · simp [cut?, here, inductionHypothesis, Ne.symm here]

/-- The cut is made at the first separator. -/
theorem cut?_append (separator : Char) (before after : List Char) (absent : separator ∉ before) :
    cut? separator (before ++ separator :: after) = some (before, after) := by
  induction before with
  | nil => simp [cut?]
  | cons c rest inductionHypothesis =>
      simp only [List.mem_cons, not_or] at absent
      simp [cut?, Ne.symm absent.1, inductionHypothesis absent.2]

/-- Drop one carriage return at the end. -/
def dropReturn (line : List Char) : List Char :=
  if line.getLast? = some '\r' then line.dropLast else line

/-- The lines of a text.  `pending` is the part of the current line already
read, last character first. -/
def linesFrom (pending : List Char) : List Char → List (List Char)
  | [] => if pending.isEmpty then [] else [pending.reverse]
  | c :: rest =>
      if c = '\n' then dropReturn pending.reverse :: linesFrom [] rest
      else linesFrom (c :: pending) rest

/-- The lines of a text, without their line ends. -/
def lines (text : List Char) : List (List Char) :=
  linesFrom [] text

/-- Join pieces with a separator between neighbours. -/
def joined (separator : String) (parts : List String) : String :=
  separator.intercalate parts

end Text
end PracticePlan
