import PracticePlan.Json.Printer
import PracticePlan.Json.Token
import PracticePlan.Proofs.Text.Numeral

namespace PracticePlan
namespace Json

/-!
# Scalars read back

A text *spells* a token when the machine reads it as that one token, whatever
stands behind it.  A number has no end of its own, so what stands behind has to
end it, and in a printed text that is always a comma or a new line.

Strings of any characters are spelled by their quotations, and integers of
64 bits by their digits.  Floating point numbers are left out: the reader rounds
them twice, so their printed text does not always spell them.
-/

/-- What may stand behind a value in a printed text. -/
def EndsValue (rest : List Char) : Prop :=
  ∀ c, rest.head? = some c → c = ',' ∨ c = '\n'

/-- A text that is read as one token. -/
def Spells (text : List Char) (token : Token) : Prop :=
  ∀ rest, EndsValue rest →
    Token.scan .between (text ++ rest) = token :: Token.scan .between rest

theorem endsValue_nil : EndsValue [] := by
  intro c here
  cases here

theorem endsValue_cons {c : Char} (ends : c = ',' ∨ c = '\n') (rest : List Char) :
    EndsValue (c :: rest) := by
  intro other here
  exact Option.some.inj here ▸ ends

theorem scan_cons (state : Token.State) (c : Char) (rest : List Char) :
    Token.scan state (c :: rest) =
      (Token.step state c).1 ++ Token.scan (Token.step state c).2 rest :=
  rfl

/-! ## Words -/

theorem spells_null : Spells ['n', 'u', 'l', 'l'] (.scalar (.ok null) (.ok ())) :=
  fun _ _ => rfl

theorem spells_boolean (value : Bool) :
    Spells (scalarText (boolean value)) (.scalar (.ok (boolean value)) (.ok ())) := by
  cases value with
  | true => exact fun _ _ => rfl
  | false => exact fun _ _ => rfl

/-! ## Strings -/

/-- A control character is escaped by four digits, two of which are zeros. -/
theorem hexDigits_of_control : ∀ point : Fin 32,
    List.replicate (4 - (Nat.toDigits 16 point).length) '0' ++ Nat.toDigits 16 point =
      ['0', '0', Nat.digitChar (point / 16), Nat.digitChar (point % 16)] := by
  decide

theorem hexValue?_digitChar : ∀ digit : Fin 16,
    Token.hexValue? (Nat.digitChar digit) = some digit.val := by
  decide

theorem scan_control (content : List Char) {point : Nat} (low : point < 32)
    (rest : List Char) :
    Token.scan (.inString (.ok content) (.hex none 0 0))
        ('0' :: '0' :: Nat.digitChar (point / 16) :: Nat.digitChar (point % 16) :: rest) =
      Token.scan (.inString (.ok (Char.ofNat point :: content)) .none) rest := by
  have third := hexValue?_digitChar ⟨point / 16, by omega⟩
  have fourth := hexValue?_digitChar ⟨point % 16, by omega⟩
  have zero : Token.hexValue? '0' = some 0 := by decide
  have value : 16 * (16 * (16 * (16 * 0 + 0) + 0) + point / 16) + point % 16 = point := by omega
  have notTrailing : (decide (0xDC00 ≤ point) && decide (point ≤ 0xDFFF)) = false := by
    rw [decide_eq_false (by omega), Bool.false_and]
  have notLeading : (decide (0xD800 ≤ point) && decide (point ≤ 0xDBFF)) = false := by
    rw [decide_eq_false (by omega), Bool.false_and]
  simp only [scan_cons, Token.step, Token.stepString, Token.stepHex, zero, third, fourth,
    Nat.reduceEqDiff, if_false, if_true, List.nil_append, Nat.zero_add, Nat.reduceAdd] at *
  rw [value, Token.endHex]
  simp only [notTrailing, notLeading, Bool.false_eq_true, if_false]
  rfl

/-- An escaped character adds itself to the content of a string. -/
theorem scan_escaped (content : List Char) (c : Char) (rest : List Char) :
    Token.scan (.inString (.ok content) .none) (escaped c ++ rest) =
      Token.scan (.inString (.ok (c :: content)) .none) rest := by
  unfold escaped
  split
  · next same => subst same; rfl
  split
  · next same => subst same; rfl
  split
  · next same => subst same; rfl
  split
  · next same => subst same; rfl
  split
  · next same => subst same; rfl
  split
  · next same => subst same; rfl
  split
  · next same => subst same; rfl
  next noQuote noBackslash _ _ _ _ _ =>
    split
    · next low =>
        have digits := hexDigits_of_control ⟨c.toNat, low⟩
        have scanned := scan_control content low rest
        rw [Char.ofNat_toNat] at scanned
        dsimp only at digits ⊢
        rw [List.append_assoc ['\\', 'u'], digits]
        exact scanned
    · next high =>
        simp only [List.singleton_append, scan_cons, Token.step, Token.stepString,
          Token.stepPlain, if_neg noQuote, if_neg noBackslash, if_neg high]
        rfl

theorem scan_flatMap_escaped (content text rest : List Char) :
    Token.scan (.inString (.ok content) .none) (text.flatMap escaped ++ '"' :: rest) =
      .string (.ok (String.ofList (content.reverse ++ text))) (.ok ()) ::
        Token.scan .between rest := by
  induction text generalizing content with
  | nil =>
      rw [List.append_nil]
      rfl
  | cons c others inductionHypothesis =>
      rw [List.flatMap_cons, List.append_assoc, scan_escaped, inductionHypothesis,
        List.reverse_cons, List.append_assoc]
      rfl

/-- A quotation spells its string, whatever stands behind it. -/
theorem scan_quotedString (text : String) (rest : List Char) :
    Token.scan .between (quotedString text ++ rest) =
      .string (.ok text) (.ok ()) :: Token.scan .between rest := by
  have scanned := scan_flatMap_escaped [] text.toList rest
  rw [List.reverse_nil, List.nil_append, String.ofList_toList] at scanned
  rw [quotedString, List.append_assoc]
  exact scanned

/-! ## Integers -/

/-- What ends a value ends a number. -/
theorem scan_inNumber_of_endsValue (text : NumberText) {phase : Token.NumberPhase}
    (mayEnd : phase.mayEnd = true) {rest : List Char} (ends : EndsValue rest) :
    Token.scan (.inNumber phase text) rest = Token.ofNumber text :: Token.scan .between rest := by
  cases rest with
  | nil => simp only [Token.scan, Token.finish, mayEnd, if_true]
  | cons c others =>
      have stop : Token.step (.inNumber phase text) c =
          (Token.ofNumber text :: (Token.start c).1, (Token.start c).2) := by
        rcases ends c rfl with rfl | rfl
        · cases phase <;> first | rfl | exact absurd mayEnd (by decide)
        · cases phase <;> first | rfl | exact absurd mayEnd (by decide)
      rw [scan_cons, stop]
      rfl

theorem start_of_isDigit {c : Char} (digit : c.isDigit = true) (nonzero : c ≠ '0') :
    Token.start c = ([], .inNumber .whole ⟨false, [c], none, none⟩) := by
  have blank : Token.isSpace c = false := by
    apply Bool.eq_false_iff.mpr
    intro space
    simp only [Token.isSpace, Bool.or_eq_true, decide_eq_true_eq] at space
    rcases space with ((rfl | rfl) | rfl) | rfl <;> exact absurd digit (by decide)
  unfold Token.start
  split
  all_goals first | exact absurd digit (by decide) | skip
  rw [blank, if_neg Bool.false_ne_true, if_neg nonzero, if_pos digit]

theorem scan_whole {digits : List Char} (all : ∀ c ∈ digits, c.isDigit = true)
    (negative : Bool) (whole rest : List Char) :
    Token.scan (.inNumber .whole ⟨negative, whole, none, none⟩) (digits ++ rest) =
      Token.scan (.inNumber .whole ⟨negative, digits.reverse ++ whole, none, none⟩) rest := by
  induction digits generalizing whole with
  | nil => rfl
  | cons c others inductionHypothesis =>
      have digit := all c List.mem_cons_self
      have extended : Token.step (.inNumber .whole ⟨negative, whole, none, none⟩) c =
          ([], .inNumber .whole ⟨negative, c :: whole, none, none⟩) := by
        simp only [Token.step, Token.stepNumber, Token.extend?, digit, if_true]
      rw [List.cons_append, scan_cons, extended, List.nil_append,
        inductionHypothesis (fun d member => all d (List.mem_cons_of_mem c member)),
        List.reverse_cons, List.append_assoc]
      rfl

theorem le_valueFrom (start : Nat) (digits : List Char) : start ≤ Text.valueFrom start digits := by
  induction digits generalizing start with
  | nil => exact Nat.le_refl start
  | cons c others inductionHypothesis =>
      have later := inductionHypothesis (10 * start + Text.digitValue c)
      exact Nat.le_trans (by omega) later

/-- Digits whose value fits a word are gathered completely. -/
theorem gather_of_lt (start : Nat) {digits : List Char}
    (fits : Text.valueFrom start digits < 0x10000000000000000) :
    gather start digits = (Text.valueFrom start digits, []) := by
  induction digits generalizing start with
  | nil => rfl
  | cons c others inductionHypothesis =>
      have next : 10 * start + Text.digitValue c < 0x10000000000000000 :=
        Nat.lt_of_le_of_lt (le_valueFrom _ others) fits
      rw [gather, if_pos next]
      exact inductionHypothesis _ fits

theorem ofNumber_digits {value : Nat} (fits : value < 0x10000000000000000) (negative : Bool) :
    Token.ofNumber ⟨negative, (Text.digitsOf value).reverse, none, none⟩ =
      .scalar (.ok (NumberText.integerValue negative value)) (.ok ()) := by
  have gathered : gather 0 (Text.digitsOf value) = (value, []) := by
    rw [gather_of_lt 0 (by rwa [Text.valueFrom_digitsOf]), Text.valueFrom_digitsOf]
  simp only [Token.ofNumber, Token.inOrder, NumberText.value?, List.reverse_reverse,
    Option.map_none, Option.isNone_none, gathered, List.isEmpty_nil, Bool.and_self, if_true]

theorem spells_digitsOf (value : Nat) (fits : value < 0x10000000000000000) :
    Spells (Text.digitsOf value) (.scalar (.ok (integer value)) (.ok ())) := by
  intro rest ends
  by_cases zero : value = 0
  · subst zero
    have zeroMayEnd : Token.NumberPhase.mayEnd .zero = true := rfl
    exact scan_inNumber_of_endsValue _ zeroMayEnd ends
  · rcases List.exists_cons_of_ne_nil (Text.digitsOf_ne_nil value) with ⟨first, others, digits⟩
    have all : ∀ c ∈ first :: others, c.isDigit = true := fun c member =>
      Text.isDigit_of_mem_digitsOf (digits ▸ member)
    have nonzero : first ≠ '0' := fun same =>
      Text.head?_digitsOf_ne_zero zero (by rw [digits, same]; rfl)
    have number := ofNumber_digits fits false
    rw [digits, List.reverse_cons] at number
    rw [digits, List.cons_append, scan_cons]
    simp only [Token.step, start_of_isDigit (all first List.mem_cons_self) nonzero,
      List.nil_append]
    rw [scan_whole fun c member => all c (List.mem_cons_of_mem first member),
      scan_inNumber_of_endsValue _ rfl ends, number]
    rfl

theorem spells_negative (value : Nat) (positive : value ≠ 0) (fits : value ≤ 0x8000000000000000) :
    Spells ('-' :: Text.digitsOf value) (.scalar (.ok (integer (-(value : Int)))) (.ok ())) := by
  intro rest ends
  rcases List.exists_cons_of_ne_nil (Text.digitsOf_ne_nil value) with ⟨first, others, digits⟩
  have all : ∀ c ∈ first :: others, c.isDigit = true := fun c member =>
    Text.isDigit_of_mem_digitsOf (digits ▸ member)
  have nonzero : first ≠ '0' := fun same =>
    Text.head?_digitsOf_ne_zero positive (by rw [digits, same]; rfl)
  have number := ofNumber_digits (Nat.lt_of_le_of_lt fits (by decide)) true
  have bounded : ¬(value = 0 ∨ 0x8000000000000000 < value) := by omega
  rw [digits, List.reverse_cons, NumberText.integerValue, if_neg (by decide), if_neg bounded]
    at number
  have signed : Token.step (.inNumber .sign ⟨true, [], none, none⟩) first =
      ([], .inNumber .whole ⟨true, [first], none, none⟩) := by
    simp only [Token.step, Token.stepNumber, Token.extend?, if_neg nonzero,
      all first List.mem_cons_self, if_true]
  rw [digits, List.cons_append, List.cons_append, scan_cons, scan_cons]
  simp only [Token.step, Token.start] at signed ⊢
  rw [signed]
  simp only [List.nil_append]
  rw [scan_whole fun c member => all c (List.mem_cons_of_mem first member),
    scan_inNumber_of_endsValue _ rfl ends, number]

/-- An integer of 64 bits is spelled by its text. -/
theorem spells_integerText {value : Int} (lower : -0x8000000000000000 ≤ value) (upper : value < 0x10000000000000000) :
    Spells (integerText value) (.scalar (.ok (integer value)) (.ok ())) := by
  by_cases negative : value < 0
  · have size : (value.natAbs : Int) = -value := by omega
    have spelled := spells_negative value.natAbs (by omega) (by omega)
    rw [size, Int.neg_neg] at spelled
    rw [integerText, if_pos negative]
    exact spelled
  · have size : (value.natAbs : Int) = value := by omega
    have spelled := spells_digitsOf value.natAbs (by omega)
    rw [size] at spelled
    rw [integerText, if_neg negative]
    exact spelled

end Json
end PracticePlan
