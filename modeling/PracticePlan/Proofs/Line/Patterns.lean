import PracticePlan.Proofs.Line.Fields
import PracticePlan.Proofs.Line.Parts
import PracticePlan.Proofs.Text.Cutting
import PracticePlan.Proofs.Text.Pattern

namespace PracticePlan
namespace Notation
namespace Line

open Text (Pattern)
open Text.Pattern

/-!
# The patterns of a line

The notation of lines is defined by three patterns: one for groups, one for
intervals and one for settings literals.  The reader works without them, by
trimming and cutting, and `readByPatterns_eq` says that on a line without a
newline this makes no difference.

For intervals and literals the order of the alternatives does not matter, since
only one thing can be kept (`takes_intervalPattern_iff`,
`takes_literalPattern_iff`).  For groups it does.  The pattern could also take
fewer number signs, or leave blanks behind the name, and only the first match
has all signs and a trimmed name (`find?_groupPattern`).
-/

/-! ## The patterns -/

/-- Whether a character can stand on a line. -/
def isOnLine (c : Char) : Bool :=
  c ≠ '\n'

/-- Whether a character can stand in a duration. -/
def isInDuration (c : Char) : Bool :=
  c ≠ ',' && !Text.isBlank c

/-- The head of a section: `^\s*(#+)\s*(.*?)\s*$`. -/
def groupPattern : Pattern :=
  .both (.most Text.isBlank) (.both (.group 1 (.both (.one (· = '#')) (.most (· = '#'))))
    (.both (.most Text.isBlank) (.both (.group 2 (.fewest isOnLine)) (.most Text.isBlank))))

/-- The optional duration of an interval. -/
def durationPattern : Pattern :=
  .maybe (.group 1 (.both (.one fun c => c ≠ '#' && isInDuration c) (.most isInDuration)))

/-- The optional comma of an interval and what stands behind it. -/
def tailPattern : Pattern :=
  .maybe (.both (.one (· = ',')) (.group 2 (.most isOnLine)))

/-- An interval: `^\s*([^,#\s][^,\s]*)?\s*(?:,(.*))?$`. -/
def intervalPattern : Pattern :=
  .both (.most Text.isBlank) (.both durationPattern (.both (.most Text.isBlank) tailPattern))

/-- A settings literal without its mark. -/
def bodyPattern : Pattern :=
  .both (.one Char.isAlpha) (.both (.most isKeyChar)
    (.both (.most Text.isBlank) (.both (.one (· = ':')) (.most isOnLine))))

/-- A settings literal: `^@([A-Za-z][A-Za-z0-9_]*\s*:.*)$`. -/
def literalPattern : Pattern :=
  .both (.one (· = '@')) (.group 1 bodyPattern)

/-! ## Groups -/

/-- Nothing but blanks is left. -/
theorem tryMost_isBlank_eq_some_iff {α : Type} {value result : α} {text : List Char} :
    tryMost Text.isBlank (fun rest => if rest.isEmpty then some value else none) text =
        some result ↔
      (∀ c ∈ text, Text.isBlank c = true) ∧ value = result := by
  constructor
  · intro found
    rcases exists_split_of_tryMost found with ⟨taken, rest, rfl, blank, success⟩
    split at success
    · next done =>
        rw [List.isEmpty_iff.mp done, List.append_nil]
        exact ⟨blank, Option.some.inj success⟩
    · cases success
  · rintro ⟨blank, rfl⟩
    apply tryMost_eq_some
    have nothing : (text ++ []).dropWhile Text.isBlank = [] :=
      List.dropWhile_append_of_pos blank
    rw [List.append_nil] at nothing
    rw [nothing]
    rfl

theorem take_append_sub (front rest : List Char) :
    (front ++ rest).take ((front ++ rest).length - rest.length) = front := by
  rw [List.length_append, Nat.add_sub_cancel, List.take_left]

/-- A group keeps all number signs and the text behind them without the blanks
around it. -/
theorem find?_groupPattern {before signs rest : List Char}
    (blank : ∀ c ∈ before, Text.isBlank c = true) (sharp : ∀ c ∈ signs, c = '#')
    (stop : rest.head? ≠ some '#') (newline : '\n' ∉ rest) :
    groupPattern.find? (before ++ '#' :: (signs ++ rest)) =
      some [(1, '#' :: signs), (2, Text.trim rest)] := by
  have shown : Text.isBlank '#' = false := by decide
  have stopped : ∀ c, rest.head? = some c → decide (c = '#') = false := by
    intro c here
    exact decide_eq_false fun same => stop (same ▸ here)
  rcases Text.exists_eq_trimEnd_append (Text.trimStart rest) with ⟨back, whole, backBlank⟩
  have onLine : ∀ c ∈ Text.trim rest, isOnLine c = true := by
    intro c member
    exact decide_eq_true fun same => newline (same ▸ Text.mem_of_mem_trim member)
  -- The repetitions take all they can, up to the name.
  apply tryMost_eq_some
  rw [dropWhile_append_of_head blank (by simp [shown])]
  simp only [run, decide_true, if_true]
  apply tryMost_eq_some
  rw [dropWhile_append_of_head (by simpa using sharp) stopped]
  apply tryMost_eq_some
  rw [show rest.dropWhile Text.isBlank = Text.trim rest ++ back from whole]
  -- The name ends where nothing but blanks is left, and not earlier.
  apply tryFewest_eq_some onLine
  · refine tryMost_isBlank_eq_some_iff.mpr ⟨backBlank, ?_⟩
    rw [take_append_sub, ← List.cons_append, take_append_sub]
    rfl
  · intro front last same present
    rw [← Option.not_isSome_iff_eq_none, Option.isSome_iff_exists]
    rintro ⟨kept, found⟩
    have blanks := (tryMost_isBlank_eq_some_iff.mp found).1
    rcases List.eq_nil_or_concat last with rfl | ⟨others, final, rfl⟩
    · exact present rfl
    · have tight := (Text.tight_trim rest).finish final (by simp [same])
      have blank := blanks final (by simp)
      rw [blank] at tight
      cases tight

/-- A group starts with a number sign. -/
theorem exists_sign_of_takes {line : List Char} {kept : Text.Kept}
    (takes : Takes groupPattern line kept) :
    ∃ before rest, line = before ++ '#' :: rest ∧ ∀ c ∈ before, Text.isBlank c = true := by
  simp only [groupPattern, takes_both_iff, takes_most_iff, takes_group_iff, takes_one_iff] at takes
  rcases takes with ⟨before, _, _, _, ⟨blank, -⟩, ⟨_, rest, _, _, ⟨_, ⟨_, others, _, _,
    ⟨c, sign, rfl, -⟩, -, rfl, -⟩, -⟩, -, rfl, -⟩, rfl, -⟩
  rw [of_decide_eq_true sign]
  exact ⟨before, others ++ rest, rfl, blank⟩

/-! ## Intervals -/

/-- What the pattern of intervals keeps. -/
def keptInterval (duration : List Char) (tail? : Option (List Char)) : Text.Kept :=
  (if duration.isEmpty then [] else [(1, duration)]) ++ (tail?.map fun tail => (2, tail)).toList

theorem part?_keptInterval (duration : List Char) (tail? : Option (List Char)) :
    ((keptInterval duration tail?).part? 1).getD [] = duration ∧
      (keptInterval duration tail?).part? 2 = tail? := by
  cases duration with
  | nil =>
      cases tail? with
      | none => exact ⟨rfl, rfl⟩
      | some tail => exact ⟨rfl, rfl⟩
  | cons c rest =>
      cases tail? with
      | none => exact ⟨rfl, rfl⟩
      | some tail => exact ⟨rfl, rfl⟩

/-- A duration is a first character that is no number sign, and others. -/
theorem isDuration_cons_iff {first : Char} {rest : List Char} :
    IsDuration (first :: rest) ↔
      (first ≠ '#' && isInDuration first) = true ∧ ∀ c ∈ rest, isInDuration c = true := by
  have inside (c : Char) : isInDuration c = true ↔ c ≠ ',' ∧ Text.isBlank c = false := by
    simp [isInDuration]
  simp only [Bool.and_eq_true, decide_eq_true_eq, inside]
  constructor
  · intro isDuration
    have each : ∀ c ∈ first :: rest, c ≠ ',' ∧ Text.isBlank c = false := fun c member =>
      ⟨fun same => isDuration.comma (same ▸ member), isDuration.solid c member⟩
    refine ⟨⟨fun same => isDuration.noGroup (by rw [same]; rfl), each first List.mem_cons_self⟩,
      fun c member => each c (List.mem_cons_of_mem first member)⟩
  · rintro ⟨⟨noGroup, front⟩, behind⟩
    have each : ∀ c ∈ first :: rest, c ≠ ',' ∧ Text.isBlank c = false :=
      List.forall_mem_cons.mpr ⟨front, behind⟩
    exact ⟨List.cons_ne_nil first rest, fun here => noGroup (Option.some.inj here),
      fun member => (each ',' member).1 rfl, fun c member => (each c member).2⟩

theorem takes_durationPattern_iff {text : List Char} {kept : Text.Kept} :
    Takes durationPattern text kept ↔
      (text = [] ∨ IsDuration text) ∧ kept = keptInterval text none := by
  simp only [durationPattern, takes_maybe_iff, takes_group_iff, takes_both_iff, takes_one_iff,
    takes_most_iff]
  constructor
  · rintro (⟨_, ⟨_, rest, _, _, ⟨first, starts, rfl, rfl⟩, ⟨inside, rfl⟩, rfl, rfl⟩, rfl⟩ |
      ⟨rfl, rfl⟩)
    · exact ⟨.inr (isDuration_cons_iff.mpr ⟨starts, inside⟩), rfl⟩
    · exact ⟨.inl rfl, rfl⟩
  · rintro ⟨isDuration, rfl⟩
    cases text with
    | nil => exact .inr ⟨rfl, rfl⟩
    | cons first rest =>
        rcases isDuration_cons_iff.mp (isDuration.resolve_left (List.cons_ne_nil first rest)) with
          ⟨starts, inside⟩
        exact .inl ⟨[], ⟨[first], rest, [], [], ⟨first, starts, rfl, rfl⟩, ⟨inside, rfl⟩, rfl, rfl⟩,
          rfl⟩

theorem takes_tailPattern_iff {text : List Char} (newline : '\n' ∉ text) {kept : Text.Kept} :
    Takes tailPattern text kept ↔
      ∃ tail?, text = tailChars tail? ∧ kept = keptInterval [] tail? := by
  simp only [tailPattern, takes_maybe_iff, takes_group_iff, takes_both_iff, takes_one_iff,
    takes_most_iff]
  constructor
  · rintro (⟨_, tail, _, _, ⟨c, isComma, rfl, rfl⟩, ⟨_, ⟨-, rfl⟩, rfl⟩, rfl, rfl⟩ | ⟨rfl, rfl⟩)
    · rw [of_decide_eq_true isComma]
      exact ⟨some tail, rfl, rfl⟩
    · exact ⟨none, rfl, rfl⟩
  · rintro ⟨tail?, rfl, rfl⟩
    cases tail? with
    | none => exact .inr ⟨rfl, rfl⟩
    | some tail =>
        have onLine : ∀ c ∈ tail, isOnLine c = true := by
          intro c member
          refine decide_eq_true fun same => newline ?_
          rw [← same]
          exact List.mem_cons_of_mem _ member
        exact .inl ⟨[','], tail, [], [(2, tail)], ⟨',', rfl, rfl, rfl⟩,
          ⟨[], ⟨onLine, rfl⟩, rfl⟩, rfl, rfl⟩

/-- What an interval consists of. -/
theorem takes_intervalPattern_iff {line : List Char} (newline : '\n' ∉ line) {kept : Text.Kept} :
    Takes intervalPattern line kept ↔
      ∃ before duration between tail?,
        line = (before ++ (duration ++ between)) ++ tailChars tail? ∧
        (∀ c ∈ before, Text.isBlank c = true) ∧ (duration = [] ∨ IsDuration duration) ∧
        (∀ c ∈ between, Text.isBlank c = true) ∧ kept = keptInterval duration tail? := by
  have joined (duration : List Char) (tail? : Option (List Char)) :
      keptInterval duration none ++ keptInterval [] tail? = keptInterval duration tail? := by
    simp [keptInterval]
  simp only [intervalPattern, takes_both_iff, takes_most_iff, takes_durationPattern_iff]
  constructor
  · rintro ⟨before, _, _, _, ⟨blank, rfl⟩, ⟨duration, _, _, _, ⟨isDuration, rfl⟩,
      ⟨between, comma, _, _, ⟨blanks, rfl⟩, marked, rfl, rfl⟩, rfl, rfl⟩, rfl, rfl⟩
    have absent : '\n' ∉ comma := fun member => newline (by simp [member])
    rcases (takes_tailPattern_iff absent).mp marked with ⟨tail?, rfl, rfl⟩
    exact ⟨before, duration, between, tail?, by simp only [List.append_assoc], blank, isDuration,
      blanks, joined duration tail?⟩
  · rintro ⟨before, duration, between, tail?, rfl, blank, isDuration, blanks, rfl⟩
    have absent : '\n' ∉ tailChars tail? := fun member => newline (by simp [member])
    refine ⟨before, duration ++ (between ++ tailChars tail?), [], _, ⟨blank, rfl⟩,
      ⟨duration, between ++ tailChars tail?, _, _, ⟨isDuration, rfl⟩,
        ⟨between, tailChars tail?, [], _, ⟨blanks, rfl⟩,
          (takes_tailPattern_iff absent).mpr ⟨tail?, rfl, rfl⟩, rfl, rfl⟩, rfl, rfl⟩,
      by simp only [List.append_assoc], ?_⟩
    exact (joined duration tail?).symm

/-- The pattern matches a line whose duration is one token or missing, and keeps
the duration and the text behind the first comma. -/
theorem find?_intervalPattern {head : List Char} {tail? : Option (List Char)}
    (newline : '\n' ∉ head ++ tailChars tail?) (absent : ',' ∉ head) :
    intervalPattern.find? (head ++ tailChars tail?) =
      if Text.trim head = [] ∨ IsDuration (Text.trim head) then
        some (keptInterval (Text.trim head) tail?)
      else none := by
  have determined {other : Text.Kept}
      (takes : Takes intervalPattern (head ++ tailChars tail?) other) :
      (Text.trim head = [] ∨ IsDuration (Text.trim head)) ∧
        other = keptInterval (Text.trim head) tail? := by
    rcases (takes_intervalPattern_iff newline).mp takes with
      ⟨before, duration, between, rest?, same, blank, isDuration, blanks, rfl⟩
    have missing : ',' ∉ before ++ (duration ++ between) := by
      have shown : Text.isBlank ',' = false := by decide
      rw [List.mem_append, List.mem_append]
      rintro (early | inside | late)
      · exact Bool.false_ne_true (shown.symm.trans (blank _ early))
      · rcases isDuration with rfl | isDuration
        · exact absurd inside List.not_mem_nil
        · exact isDuration.comma inside
      · exact Bool.false_ne_true (shown.symm.trans (blanks _ late))
    rcases eq_of_append_tailChars absent missing same with ⟨rfl, rfl⟩
    rw [trim_between_blanks blank (tight_of_isDuration isDuration) blanks]
    exact ⟨isDuration, rfl⟩
  split
  · next isDuration =>
      rcases Text.exists_eq_append_trim head with ⟨before, between, whole, blank, blanks⟩
      refine find?_eq_some_of_unique ?_ fun other takes => (determined takes).2
      exact (takes_intervalPattern_iff newline).mpr
        ⟨before, Text.trim head, between, tail?, by rw [← whole], blank, isDuration, blanks, rfl⟩
  · next isNot => exact find?_eq_none_iff.mpr fun kept takes => isNot (determined takes).1

/-! ## Literals -/

theorem isBlank_of_isKeyChar {c : Char} (key : isKeyChar c = true) : Text.isBlank c = false := by
  have within (least most : UInt32) :
      c.val ≥ least ∧ c.val ≤ most ↔ least.toNat ≤ c.toNat ∧ c.toNat ≤ most.toNat :=
    and_congr UInt32.le_iff_toNat_le UInt32.le_iff_toNat_le
  have upper : c.isUpper = true ↔ 65 ≤ c.toNat ∧ c.toNat ≤ 90 :=
    decide_eq_true_iff.trans (within 65 90)
  have lower : c.isLower = true ↔ 97 ≤ c.toNat ∧ c.toNat ≤ 122 := by
    refine Bool.and_eq_true_iff.trans (Iff.trans ?_ (within 97 122))
    exact and_congr decide_eq_true_iff decide_eq_true_iff
  have kinds : isKeyChar c = (((c.isUpper || c.isLower) || c.isDigit) || decide (c = '_')) := rfl
  have bounds : 48 ≤ c.toNat ∧ c.toNat ≤ 57 ∨ 65 ≤ c.toNat ∧ c.toNat ≤ 90 ∨ c.toNat = 95 ∨
      97 ≤ c.toNat ∧ c.toNat ≤ 122 := by
    simp only [kinds, Bool.or_eq_true, decide_eq_true_eq, Char.isDigit_iff_toNat, upper,
      lower] at key
    rcases key with ((isUpper | isLower) | isDigit) | rfl
    · exact .inr (.inl isUpper)
    · exact .inr (.inr (.inr isLower))
    · exact .inl isDigit
    · exact .inr (.inr (.inl rfl))
  simp only [Text.isBlank, Text.inRanges, Text.blankRanges, List.any_cons, List.any_nil,
    Bool.or_false, Bool.or_eq_false_iff, Bool.and_eq_false_iff, decide_eq_false_iff_not]
  omega

theorem isLiteralBody_iff {body : List Char} :
    isLiteralBody body = true ↔ ∃ first key between value,
      body = first :: (key ++ (between ++ ':' :: value)) ∧ first.isAlpha = true ∧
        (∀ c ∈ key, isKeyChar c = true) ∧ (∀ c ∈ between, Text.isBlank c = true) ∧
        '\n' ∉ value := by
  constructor
  · intro shape
    cases body with
    | nil => cases shape
    | cons first rest =>
        rw [isLiteralBody, Bool.and_eq_true] at shape
        rcases shape with ⟨letter, behind⟩
        split at behind
        · next value here =>
            refine ⟨first, rest.takeWhile isKeyChar,
              (rest.dropWhile isKeyChar).takeWhile Text.isBlank, value, ?_, letter,
              fun c => List.all_eq_true.mp List.all_takeWhile c,
              fun c => List.all_eq_true.mp List.all_takeWhile c, by simpa using behind⟩
            rw [← here, List.takeWhile_append_dropWhile, List.takeWhile_append_dropWhile]
        · cases behind
  · rintro ⟨first, key, between, value, rfl, letter, keyChars, blank, onLine⟩
    have blankKey {c : Char} (isBlank : Text.isBlank c = true) : isKeyChar c = false := by
      refine Bool.eq_false_iff.mpr fun key => ?_
      rw [isBlank_of_isKeyChar key] at isBlank
      cases isBlank
    have stop : ∀ c, (between ++ ':' :: value).head? = some c → isKeyChar c = false := by
      intro c here
      cases between with
      | nil =>
          cases Option.some.inj here
          decide
      | cons b others =>
          cases Option.some.inj here
          exact blankKey (blank _ List.mem_cons_self)
    have colon : ∀ c, (':' :: value).head? = some c → Text.isBlank c = false := by
      intro c here
      cases Option.some.inj here
      decide
    rw [isLiteralBody, letter, dropWhile_append_of_head keyChars stop,
      dropWhile_append_of_head blank colon]
    simpa using onLine

theorem takes_bodyPattern_iff {body : List Char} {kept : Text.Kept} :
    Takes bodyPattern body kept ↔ isLiteralBody body = true ∧ kept = [] := by
  simp only [bodyPattern, takes_both_iff, takes_one_iff, takes_most_iff]
  rw [isLiteralBody_iff]
  constructor
  · rintro ⟨_, _, _, _, ⟨first, letter, rfl, rfl⟩, ⟨key, _, _, _, ⟨keyChars, rfl⟩,
      ⟨between, _, _, _, ⟨blank, rfl⟩, ⟨_, value, _, _, ⟨colon, isColon, rfl, rfl⟩,
        ⟨onLine, rfl⟩, rfl, rfl⟩, rfl, rfl⟩, rfl, rfl⟩, rfl, rfl⟩
    rw [of_decide_eq_true isColon]
    refine ⟨⟨first, key, between, value, rfl, letter, keyChars, blank, ?_⟩, rfl⟩
    intro member
    exact absurd (onLine _ member) (by decide)
  · rintro ⟨⟨first, key, between, value, rfl, letter, keyChars, blank, newline⟩, rfl⟩
    have onLine : ∀ c ∈ value, isOnLine c = true := by
      intro c member
      exact decide_eq_true fun same => newline (same ▸ member)
    exact ⟨[first], _, [], [], ⟨first, letter, rfl, rfl⟩, ⟨key, _, [], [], ⟨keyChars, rfl⟩,
      ⟨between, _, [], [], ⟨blank, rfl⟩, ⟨[':'], value, [], [], ⟨':', rfl, rfl, rfl⟩,
        ⟨onLine, rfl⟩, rfl, rfl⟩, rfl, rfl⟩, rfl, rfl⟩, rfl, rfl⟩

theorem takes_literalPattern_iff {text : List Char} {kept : Text.Kept} :
    Takes literalPattern text kept ↔
      ∃ body, text = '@' :: body ∧ isLiteralBody body = true ∧ kept = [(1, body)] := by
  simp only [literalPattern, takes_both_iff, takes_group_iff, takes_one_iff, takes_bodyPattern_iff]
  constructor
  · rintro ⟨_, body, _, _, ⟨mark, isMark, rfl, rfl⟩, ⟨_, ⟨shape, rfl⟩, rfl⟩, rfl, rfl⟩
    rw [of_decide_eq_true isMark]
    exact ⟨body, rfl, shape, rfl⟩
  · rintro ⟨body, rfl, shape, rfl⟩
    exact ⟨['@'], body, [], _, ⟨'@', rfl, rfl, rfl⟩, ⟨[], ⟨shape, rfl⟩, rfl⟩, rfl, rfl⟩

/-- The pattern finds a literal where the reader does. -/
theorem find?_literalPattern (text : List Char) :
    literalPattern.find? text =
      (literalBody? text).map fun body => [(1, body.toList)] := by
  cases found : literalBody? text with
  | some body =>
      rcases literalBody?_eq_some found with ⟨marked, shape⟩
      refine find?_eq_some_of_unique
        (takes_literalPattern_iff.mpr ⟨body.toList, marked, shape, rfl⟩) ?_
      intro other takes
      rcases takes_literalPattern_iff.mp takes with ⟨same, again, -, rfl⟩
      rw [marked] at again
      exact congrArg (fun chars => [(1, chars)]) (List.cons.inj again).2.symm
  | none =>
      refine find?_eq_none_iff.mpr fun kept takes => ?_
      rcases takes_literalPattern_iff.mp takes with ⟨body, rfl, shape, -⟩
      rw [literalBody?, if_pos shape] at found
      cases found

/-! ## A line -/

section Reading

variable {σ φ : Type}

/-- Take the literal off the fields of a line, as the pattern finds it. -/
def takeByPattern (registry : Registry σ φ) (standard : Category σ φ) (fields : List String) :
    Fields σ :=
  match fields.getLast?.bind fun last =>
      (literalPattern.find? last.toList).bind fun kept => kept.part? 1 with
  | none => ⟨fields, none, none⟩
  | some body =>
      match (resolve registry standard (typeField fields)).1.settingsOfLiteral?
          (String.ofList body) with
      | none => ⟨fields, none, none⟩
      | some (.ok settings) => ⟨fields.dropLast, some settings, none⟩
      | some (.error cause) =>
          ⟨fields.dropLast, none, some (.ignoredLiteral (String.ofList body) cause)⟩

/-- Read a line by its patterns. -/
def readByPatterns (registry : Registry σ φ) (standard : Category σ φ) (line : List Char) :
    Contribution σ :=
  if Text.trim line = [] then .nothing
  else match groupPattern.find? line with
    | some kept =>
        .ofGroup (UInt32.ofNat ((kept.part? 1).getD []).length)
          (String.ofList ((kept.part? 2).getD []))
    | none => match intervalPattern.find? line with
      | none => .skipped (.unrecognized (String.ofList (Text.trim line)))
      | some kept =>
          let fields := ((kept.part? 2).map fun tail =>
            (Text.pieces ',' tail).map fun piece => String.ofList (Text.trim piece)).getD []
          let taken := takeByPattern registry standard fields
          ⟨some (.interval (intervalOf registry standard ((kept.part? 1).getD []) taken)),
            taken.note?⟩

theorem takeByPattern_eq (registry : Registry σ φ) (standard : Category σ φ)
    (fields : List String) :
    takeByPattern registry standard fields = takeLiteral registry standard fields := by
  unfold takeByPattern takeLiteral
  cases fields.getLast? with
  | none => rfl
  | some last =>
      simp only [Option.bind_some, find?_literalPattern, lastLiteral?]
      cases literalBody? last.toList with
      | none => rfl
      | some body =>
          have kept : Text.Kept.part? [(1, body.toList)] 1 = some body.toList := rfl
          simp only [Option.map_some, Option.bind_some, kept, String.ofList_toList]
          cases (resolve registry standard (typeField fields)).1.settingsOfLiteral? body with
          | none => rfl
          | some outcome =>
              cases outcome with
              | ok settings => rfl
              | error cause => rfl

/-- The reader reads every line as its patterns do. -/
theorem readByPatterns_eq (registry : Registry σ φ) (standard : Category σ φ) {line : List Char}
    (newline : '\n' ∉ line) :
    readByPatterns registry standard line = read registry standard line := by
  unfold readByPatterns
  by_cases blank : Text.trim line = []
  · rw [if_pos blank, read_blank (trim_eq_nil_iff.mp blank)]
  · rw [if_neg blank]
    by_cases sign : (Text.trim line).head? = some '#'
    · rcases exists_group_parts sign with ⟨before, signs, rest, rfl, blanks, sharp, stop⟩
      have absent : '\n' ∉ rest := fun member => newline (by simp [member])
      rw [find?_groupPattern blanks sharp stop absent, read_group_parts blanks sharp stop]
      rfl
    · have noGroup : groupPattern.find? line = none := by
        refine find?_eq_none_iff.mpr fun kept takes => sign ?_
        rcases exists_sign_of_takes takes with ⟨before, rest, rfl, blanks⟩
        have shown : ∀ c ∈ ['#'], Text.isBlank c = false := by
          intro c member
          rw [List.mem_singleton.mp member]
          rfl
        have trimmed : Text.trim (before ++ (['#'] ++ rest)) = ['#'] ++ Text.trimEnd rest :=
          trim_append_of_solid blanks shown (List.cons_ne_nil '#' [])
        exact congrArg List.head? trimmed
      rcases exists_tailChars line with ⟨head, tail?, rfl, absent⟩
      have unsigned : (Text.trim head).head? ≠ some '#' := fun here =>
        sign (head?_trim_append here (tailChars tail?))
      rw [noGroup, find?_intervalPattern newline absent, read_interval_parts absent blank sign]
      dsimp only
      cases inside : (Text.trim head).any Text.isBlank with
      | true =>
          have refused : ¬ (Text.trim head = [] ∨ IsDuration (Text.trim head)) := by
            intro isDuration
            have outside := (isDuration_trim_iff absent unsigned).mp isDuration
            exact Bool.false_ne_true (outside.symm.trans inside)
          rw [if_neg refused, if_pos rfl]
      | false =>
          rw [if_pos ((isDuration_trim_iff absent unsigned).mpr inside), if_neg Bool.false_ne_true]
          have parts := part?_keptInterval (Text.trim head) tail?
          simp only [parts.1, parts.2, takeByPattern_eq]
          rfl

end Reading

end Line
end Notation
end PracticePlan
