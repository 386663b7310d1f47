namespace PracticePlan
namespace Text

/-!
# Patterns

A pattern is a regular expression of the small kind that the line notation is
defined with: single characters, repetitions of one class of characters, options
and groups that keep what they match.  Matching goes through the alternatives in
a fixed order and stops at the first that leads to the end of the text.  A
repetition prefers to take much or to take little, and an option prefers to be
there.

The order decides only what is kept.  Whether there is a match at all is a
question about `Takes`, which knows of no order (`exists_takes_of_run`,
`isSome_run_of_takes`).  When only one thing can be kept, it is kept
(`find?_eq_some_of_unique`).
-/

/-- A pattern, written in the order in which it reads a text. -/
inductive Pattern where
  | one (belongs : Char → Bool)
  | most (belongs : Char → Bool)
  | fewest (belongs : Char → Bool)
  | both (first second : Pattern)
  | maybe (inner : Pattern)
  | group (number : Nat) (inner : Pattern)

/-- The parts that the groups of a pattern have matched, by their numbers. -/
abbrev Kept : Type :=
  List (Nat × List Char)

namespace Kept

/-- What a group has matched, if it took part. -/
def part? (kept : Kept) (number : Nat) : Option (List Char) :=
  (kept.find? fun known => known.1 = number).map Prod.snd

end Kept

namespace Pattern

variable {α : Type}

/-- Try what follows a repetition, after as many characters as possible first. -/
def tryMost (belongs : Char → Bool) (next : List Char → Option α) : List Char → Option α
  | [] => next []
  | c :: rest =>
      if belongs c then (tryMost belongs next rest).or (next (c :: rest)) else next (c :: rest)

/-- Try what follows a repetition, after as few characters as possible first. -/
def tryFewest (belongs : Char → Bool) (next : List Char → Option α) : List Char → Option α
  | [] => next []
  | c :: rest => (next (c :: rest)).or (if belongs c then tryFewest belongs next rest else none)

/-- Match the front of a text and go on with what is kept and what is left. -/
def run : Pattern → (Kept → List Char → Option α) → List Char → Option α
  | one _, _, [] => none
  | one belongs, next, c :: rest => if belongs c then next [] rest else none
  | most belongs, next, text => tryMost belongs (next []) text
  | fewest belongs, next, text => tryFewest belongs (next []) text
  | both first second, next, text =>
      first.run
        (fun early rest => second.run (fun late last => next (early ++ late) last) rest) text
  | maybe inner, next, text => (inner.run next text).or (next [] text)
  | group number inner, next, text =>
      inner.run (fun kept rest =>
        next (kept ++ [(number, text.take (text.length - rest.length))]) rest) text

/-- What is kept when a pattern matches a whole text. -/
def find? (pattern : Pattern) (text : List Char) : Option Kept :=
  pattern.run (fun kept rest => if rest.isEmpty then some kept else none) text

/-- The texts that a pattern can take, with what it then keeps. -/
inductive Takes : Pattern → List Char → Kept → Prop
  | one {belongs : Char → Bool} {c : Char} (inside : belongs c = true) :
      Takes (one belongs) [c] []
  | most {belongs : Char → Bool} {text : List Char} (inside : ∀ c ∈ text, belongs c = true) :
      Takes (most belongs) text []
  | fewest {belongs : Char → Bool} {text : List Char} (inside : ∀ c ∈ text, belongs c = true) :
      Takes (fewest belongs) text []
  | both {first second : Pattern} {front back : List Char} {early late : Kept}
      (before : Takes first front early) (behind : Takes second back late) :
      Takes (both first second) (front ++ back) (early ++ late)
  | there {inner : Pattern} {text : List Char} {kept : Kept} (inside : Takes inner text kept) :
      Takes (maybe inner) text kept
  | absent {inner : Pattern} : Takes (maybe inner) [] []
  | group {number : Nat} {inner : Pattern} {text : List Char} {kept : Kept}
      (inside : Takes inner text kept) :
      Takes (group number inner) text (kept ++ [(number, text)])

/-! ## Taking a pattern apart -/

theorem takes_one_iff {belongs : Char → Bool} {text : List Char} {kept : Kept} :
    Takes (one belongs) text kept ↔ ∃ c, belongs c = true ∧ text = [c] ∧ kept = [] := by
  constructor
  · intro takes
    cases takes with
    | one inside => exact ⟨_, inside, rfl, rfl⟩
  · rintro ⟨c, inside, rfl, rfl⟩
    exact .one inside

theorem takes_most_iff {belongs : Char → Bool} {text : List Char} {kept : Kept} :
    Takes (most belongs) text kept ↔ (∀ c ∈ text, belongs c = true) ∧ kept = [] := by
  constructor
  · intro takes
    cases takes with
    | most inside => exact ⟨inside, rfl⟩
  · rintro ⟨inside, rfl⟩
    exact .most inside

theorem takes_both_iff {first second : Pattern} {text : List Char} {kept : Kept} :
    Takes (both first second) text kept ↔
      ∃ front back early late, Takes first front early ∧ Takes second back late ∧
        text = front ++ back ∧ kept = early ++ late := by
  constructor
  · intro takes
    cases takes with
    | both before behind => exact ⟨_, _, _, _, before, behind, rfl, rfl⟩
  · rintro ⟨front, back, early, late, before, behind, rfl, rfl⟩
    exact .both before behind

theorem takes_maybe_iff {inner : Pattern} {text : List Char} {kept : Kept} :
    Takes (maybe inner) text kept ↔ Takes inner text kept ∨ text = [] ∧ kept = [] := by
  constructor
  · intro takes
    cases takes with
    | there inside => exact .inl inside
    | absent => exact .inr ⟨rfl, rfl⟩
  · rintro (inside | ⟨rfl, rfl⟩)
    · exact .there inside
    · exact .absent

theorem takes_group_iff {number : Nat} {inner : Pattern} {text : List Char} {kept : Kept} :
    Takes (group number inner) text kept ↔
      ∃ inside, Takes inner text inside ∧ kept = inside ++ [(number, text)] := by
  constructor
  · intro takes
    cases takes with
    | group inside => exact ⟨_, inside, rfl⟩
  · rintro ⟨inside, takes, rfl⟩
    exact .group takes

/-! ## Whether there is a match -/

theorem exists_split_of_tryMost {belongs : Char → Bool} {next : List Char → Option α}
    {text : List Char} {result : α} (found : tryMost belongs next text = some result) :
    ∃ taken rest, text = taken ++ rest ∧ (∀ c ∈ taken, belongs c = true) ∧
      next rest = some result := by
  induction text with
  | nil => exact ⟨[], [], rfl, fun _ member => absurd member List.not_mem_nil, found⟩
  | cons c others inductionHypothesis =>
      have here (known : next (c :: others) = some result) :
          ∃ taken rest, c :: others = taken ++ rest ∧ (∀ c ∈ taken, belongs c = true) ∧
            next rest = some result :=
        ⟨[], _, rfl, fun _ member => absurd member List.not_mem_nil, known⟩
      unfold tryMost at found
      split at found
      · next inside =>
          rcases Option.or_eq_some_iff.mp found with later | ⟨-, now⟩
          · rcases inductionHypothesis later with ⟨taken, rest, rfl, all, success⟩
            exact ⟨c :: taken, rest, rfl, List.forall_mem_cons.mpr ⟨inside, all⟩, success⟩
          · exact here now
      · exact here found

theorem exists_split_of_tryFewest {belongs : Char → Bool} {next : List Char → Option α}
    {text : List Char} {result : α} (found : tryFewest belongs next text = some result) :
    ∃ taken rest, text = taken ++ rest ∧ (∀ c ∈ taken, belongs c = true) ∧
      next rest = some result := by
  induction text with
  | nil => exact ⟨[], [], rfl, fun _ member => absurd member List.not_mem_nil, found⟩
  | cons c others inductionHypothesis =>
      unfold tryFewest at found
      rcases Option.or_eq_some_iff.mp found with now | ⟨-, later⟩
      · exact ⟨[], _, rfl, fun _ member => absurd member List.not_mem_nil, now⟩
      · split at later
        · next inside =>
            rcases inductionHypothesis later with ⟨taken, rest, rfl, all, success⟩
            exact ⟨c :: taken, rest, rfl, List.forall_mem_cons.mpr ⟨inside, all⟩, success⟩
        · cases later

theorem isSome_tryMost {belongs : Char → Bool} {next : List Char → Option α}
    {taken rest : List Char} (inside : ∀ c ∈ taken, belongs c = true)
    (success : (next rest).isSome = true) :
    (tryMost belongs next (taken ++ rest)).isSome = true := by
  induction taken with
  | nil =>
      cases rest with
      | nil => exact success
      | cons c others =>
          rw [List.nil_append, tryMost]
          split
          · rw [Option.isSome_or, success, Bool.or_true]
          · exact success
  | cons c others inductionHypothesis =>
      have both := List.forall_mem_cons.mp inside
      rw [List.cons_append, tryMost, if_pos both.1, Option.isSome_or, inductionHypothesis both.2,
        Bool.true_or]

theorem isSome_tryFewest {belongs : Char → Bool} {next : List Char → Option α}
    {taken rest : List Char} (inside : ∀ c ∈ taken, belongs c = true)
    (success : (next rest).isSome = true) :
    (tryFewest belongs next (taken ++ rest)).isSome = true := by
  induction taken with
  | nil =>
      cases rest with
      | nil => exact success
      | cons c others =>
          rw [List.nil_append, tryFewest, Option.isSome_or, success, Bool.true_or]
  | cons c others inductionHypothesis =>
      have both := List.forall_mem_cons.mp inside
      rw [List.cons_append, tryFewest, if_pos both.1, Option.isSome_or, inductionHypothesis both.2,
        Bool.or_true]

/-- What is found has been taken from the front of the text. -/
theorem exists_takes_of_run {pattern : Pattern} {next : Kept → List Char → Option α}
    {text : List Char} {result : α} (found : pattern.run next text = some result) :
    ∃ taken rest kept, text = taken ++ rest ∧ Takes pattern taken kept ∧
      next kept rest = some result := by
  induction pattern generalizing next text with
  | one belongs =>
      cases text with
      | nil => cases found
      | cons c rest =>
          unfold run at found
          split at found
          · next inside => exact ⟨[c], rest, [], rfl, .one inside, found⟩
          · cases found
  | most belongs =>
      rcases exists_split_of_tryMost found with ⟨taken, rest, whole, inside, success⟩
      exact ⟨taken, rest, [], whole, .most inside, success⟩
  | fewest belongs =>
      rcases exists_split_of_tryFewest found with ⟨taken, rest, whole, inside, success⟩
      exact ⟨taken, rest, [], whole, .fewest inside, success⟩
  | both first second firstHypothesis secondHypothesis =>
      rcases firstHypothesis found with ⟨front, behind, early, rfl, before, onward⟩
      rcases secondHypothesis onward with ⟨back, rest, late, rfl, after, success⟩
      exact ⟨front ++ back, rest, _, (List.append_assoc ..).symm, .both before after, success⟩
  | maybe inner inductionHypothesis =>
      rcases Option.or_eq_some_iff.mp found with there | ⟨-, absent⟩
      · rcases inductionHypothesis there with ⟨taken, rest, kept, whole, inside, success⟩
        exact ⟨taken, rest, kept, whole, .there inside, success⟩
      · exact ⟨[], text, [], rfl, .absent, absent⟩
  | group number inner inductionHypothesis =>
      rcases inductionHypothesis found with ⟨taken, rest, kept, rfl, inside, success⟩
      rw [List.length_append, Nat.add_sub_cancel, List.take_left] at success
      exact ⟨taken, rest, _, rfl, .group inside, success⟩

/-- Where something can be taken and the rest succeeds, something is found. -/
theorem isSome_run_of_takes {pattern : Pattern} {taken : List Char} {kept : Kept}
    (takes : Takes pattern taken kept) {next : Kept → List Char → Option α} {rest : List Char}
    (success : (next kept rest).isSome = true) :
    (pattern.run next (taken ++ rest)).isSome = true := by
  induction takes generalizing next rest with
  | one inside =>
      rw [List.singleton_append, run, if_pos inside]
      exact success
  | most inside => exact isSome_tryMost inside success
  | fewest inside => exact isSome_tryFewest inside success
  | both _ _ before behind =>
      rw [List.append_assoc]
      exact before (behind success)
  | there _ inductionHypothesis =>
      rw [run, Option.isSome_or, inductionHypothesis success, Bool.true_or]
  | absent => rw [List.nil_append, run, Option.isSome_or, success, Bool.or_true]
  | group _ inductionHypothesis =>
      apply inductionHypothesis
      rw [List.length_append, Nat.add_sub_cancel, List.take_left]
      exact success

theorem takes_of_find? {pattern : Pattern} {text : List Char} {kept : Kept}
    (found : pattern.find? text = some kept) : Takes pattern text kept := by
  rcases exists_takes_of_run found with ⟨taken, rest, other, rfl, takes, success⟩
  split at success
  · next done =>
      rw [List.isEmpty_iff.mp done, List.append_nil, ← Option.some.inj success]
      exact takes
  · cases success

theorem isSome_find?_of_takes {pattern : Pattern} {text : List Char} {kept : Kept}
    (takes : Takes pattern text kept) : (pattern.find? text).isSome = true := by
  rw [find?, ← List.append_nil text]
  exact isSome_run_of_takes takes rfl

theorem find?_eq_none_iff {pattern : Pattern} {text : List Char} :
    pattern.find? text = none ↔ ∀ kept, ¬ Takes pattern text kept := by
  constructor
  · intro nothing kept takes
    have found := isSome_find?_of_takes takes
    rw [nothing] at found
    cases found
  · intro never
    cases found : pattern.find? text with
    | none => rfl
    | some kept => exact absurd (takes_of_find? found) (never kept)

/-- When only one thing can be kept, it is kept. -/
theorem find?_eq_some_of_unique {pattern : Pattern} {text : List Char} {kept : Kept}
    (takes : Takes pattern text kept) (unique : ∀ other, Takes pattern text other → other = kept) :
    pattern.find? text = some kept := by
  cases found : pattern.find? text with
  | none => exact absurd takes (find?_eq_none_iff.mp found kept)
  | some other => rw [unique other (takes_of_find? found)]

/-! ## The first match -/

/-- If a greedy repetition succeeds with all it can take, that is the match. -/
theorem tryMost_eq_some {belongs : Char → Bool} {next : List Char → Option α} {text : List Char}
    {result : α} (success : next (text.dropWhile belongs) = some result) :
    tryMost belongs next text = some result := by
  induction text with
  | nil => exact success
  | cons c rest inductionHypothesis =>
      rw [List.dropWhile_cons] at success
      rw [tryMost]
      split
      · next inside =>
          rw [if_pos inside] at success
          exact Option.or_eq_some_iff.mpr (.inl (inductionHypothesis success))
      · next outside =>
          rw [if_neg outside] at success
          exact success

/-- A lazy repetition stops as soon as the rest succeeds. -/
theorem tryFewest_eq_some {belongs : Char → Bool} {next : List Char → Option α}
    {taken rest : List Char} {result : α} (inside : ∀ c ∈ taken, belongs c = true)
    (success : next rest = some result)
    (early : ∀ front back, taken = front ++ back → back ≠ [] → next (back ++ rest) = none) :
    tryFewest belongs next (taken ++ rest) = some result := by
  induction taken with
  | nil =>
      cases rest with
      | nil => exact success
      | cons c others => exact Option.or_eq_some_iff.mpr (.inl success)
  | cons c others inductionHypothesis =>
      have both := List.forall_mem_cons.mp inside
      have now := early [] (c :: others) rfl (List.cons_ne_nil c others)
      rw [List.cons_append] at now ⊢
      rw [tryFewest, if_pos both.1]
      refine Option.or_eq_some_iff.mpr (.inr ⟨now, inductionHypothesis both.2 ?_⟩)
      intro front back same shown
      exact early (c :: front) back (by rw [same, List.cons_append]) shown

end Pattern
end Text
end PracticePlan
