import PracticePlan.Json.Reader
import PracticePlan.Proofs.Json.Scalar

namespace PracticePlan
namespace Json

/-!
# Printed values read back

Printing and reading meet at the tokens of a value.  The printed text is cut
into exactly these tokens, wherever line ends and indentation stand, and from
them the reader rebuilds the value.  It sorts the members of every object by
key and keeps the last of equal keys, so what comes back is the *ordered* form
of what was printed.

Three things can go wrong, and a *legible* value has none of them: an integer
may not fit 64 bits, the text of a floating point number may stand for another
number, and too many arrays and objects may be open.
-/

mutual

/-- The tokens of a value. -/
def tokens : Json → List Token
  | string text => [.string (.ok text) (.ok ())]
  | array elements => .openArray :: elementTokens true elements
  | object members => .openObject :: memberTokens true members
  | scalar => [.scalar (.ok scalar) (.ok ())]

/-- The tokens of elements and of the end of their array. -/
def elementTokens (first : Bool) : List Json → List Token
  | [] => [.closeArray]
  | element :: rest =>
      (if first then [] else [.comma]) ++ (tokens element ++ elementTokens false rest)

/-- The tokens of members and of the end of their object. -/
def memberTokens (first : Bool) : List (String × Json) → List Token
  | [] => [.closeObject]
  | (key, value) :: rest =>
      (if first then [] else [.comma]) ++
        (.string (.ok key) (.ok ()) :: .colon :: (tokens value ++ memberTokens false rest))

end

mutual

/-- A value with the members of every object sorted by key, each key once. -/
def ordered : Json → Json
  | array elements => array (orderedElements elements)
  | object members => object (orderedMembers [] members)
  | scalar => scalar

/-- The ordered forms of elements. -/
def orderedElements : List Json → List Json
  | [] => []
  | element :: rest => ordered element :: orderedElements rest

/-- Members with the ordered forms of further members added. -/
def orderedMembers (members : List (String × Json)) : List (String × Json) → List (String × Json)
  | [] => members
  | (key, value) :: rest => orderedMembers (withMember key (ordered value) members) rest

end

mutual

/-- A value that is read back from its text when `depth` arrays and objects
are open around it. -/
def Legible (depth : Nat) : Json → Prop
  | integer value => -0x8000000000000000 ≤ value ∧ value < 0x10000000000000000
  | float value => Spells (floatText value) (.scalar (.ok (float value)) (.ok ()))
  | array elements => depth < Reader.deepest ∧ LegibleElements (depth + 1) elements
  | object members => depth < Reader.deepest ∧ LegibleMembers (depth + 1) members
  | _ => True

/-- Elements that are all legible. -/
def LegibleElements (depth : Nat) : List Json → Prop
  | [] => True
  | element :: rest => Legible depth element ∧ LegibleElements depth rest

/-- Members whose values are all legible. -/
def LegibleMembers (depth : Nat) : List (String × Json) → Prop
  | [] => True
  | (_, value) :: rest => Legible depth value ∧ LegibleMembers depth rest

end

theorem orderedElements_eq_map (elements : List Json) :
    orderedElements elements = elements.map ordered := by
  induction elements with
  | nil => rfl
  | cons element rest inductionHypothesis =>
      rw [orderedElements, List.map_cons, inductionHypothesis]

theorem legibleElements_of_forall {depth : Nat} {elements : List Json}
    (legible : ∀ element ∈ elements, Legible depth element) : LegibleElements depth elements := by
  induction elements with
  | nil => trivial
  | cons element rest inductionHypothesis =>
      exact ⟨legible element List.mem_cons_self,
        inductionHypothesis fun other member => legible other (List.mem_cons_of_mem element member)⟩

/-! ## From the text to the tokens -/

theorem scan_newLine (depth : Nat) (rest : List Char) :
    Token.scan .between (newLine depth ++ rest) = Token.scan .between rest := by
  have spaces : ∀ count, Token.scan .between (List.replicate count ' ' ++ rest) =
      Token.scan .between rest := by
    intro count
    induction count with
    | zero => rfl
    | succ count inductionHypothesis =>
        rw [List.replicate_succ, List.cons_append, scan_cons]
        exact inductionHypothesis
  rw [newLine, List.cons_append, scan_cons]
  exact spaces (2 * depth)

theorem scan_separator (first : Bool) (rest : List Char) :
    Token.scan .between ((if first then [] else [',']) ++ rest) =
      (if first then [] else [.comma]) ++ Token.scan .between rest := by
  cases first with
  | true => rfl
  | false => rfl

theorem endsValue_indentedElements (depth : Nat) (first : Bool) (elements : List Json)
    (rest : List Char) : EndsValue (indentedElements depth first elements ++ rest) := by
  cases elements with
  | nil => exact endsValue_cons (.inr rfl) _
  | cons element others =>
      cases first with
      | true => exact endsValue_cons (.inr rfl) _
      | false => exact endsValue_cons (.inl rfl) _

theorem endsValue_indentedMembers (depth : Nat) (first : Bool) (members : List (String × Json))
    (rest : List Char) : EndsValue (indentedMembers depth first members ++ rest) := by
  cases members with
  | nil => exact endsValue_cons (.inr rfl) _
  | cons member others =>
      cases first with
      | true => exact endsValue_cons (.inr rfl) _
      | false => exact endsValue_cons (.inl rfl) _

mutual

/-- The printed text of a legible value is cut into the tokens of the value. -/
theorem scan_indentedChars (depth indent : Nat) : ∀ value : Json, Legible depth value →
    ∀ rest, EndsValue rest →
      Token.scan .between (indentedChars indent value ++ rest) =
        tokens value ++ Token.scan .between rest
  | null, _, rest, ends => spells_null rest ends
  | boolean value, _, rest, ends => spells_boolean value rest ends
  | integer _, legible, rest, ends => spells_integerText legible.1 legible.2 rest ends
  | float _, legible, rest, ends => legible rest ends
  | string text, _, rest, _ => scan_quotedString text rest
  | array [], _, rest, _ => rfl
  | array (element :: others), legible, rest, _ => by
      rw [indentedChars, tokens, List.cons_append, scan_cons]
      exact congrArg (Token.openArray :: ·)
        (scan_indentedElements (depth + 1) indent true (element :: others) legible.2 rest)
  | object [], _, rest, _ => rfl
  | object (member :: others), legible, rest, _ => by
      rw [indentedChars, tokens, List.cons_append, scan_cons]
      exact congrArg (Token.openObject :: ·)
        (scan_indentedMembers (depth + 1) indent true (member :: others) legible.2 rest)

/-- The same of elements and the end of their array. -/
theorem scan_indentedElements (depth indent : Nat) (first : Bool) : ∀ elements : List Json,
    LegibleElements depth elements → ∀ rest,
      Token.scan .between (indentedElements indent first elements ++ rest) =
        elementTokens first elements ++ Token.scan .between rest
  | [], _, rest => by
      rw [indentedElements, List.append_assoc, scan_newLine]
      rfl
  | element :: others, legible, rest => by
      have behind := scan_indentedElements depth indent false others legible.2 rest
      have here := scan_indentedChars depth (indent + 1) element legible.1 _
        (endsValue_indentedElements indent false others rest)
      rw [indentedElements, List.append_assoc, List.append_assoc, List.append_assoc,
        scan_separator, scan_newLine, here, behind, elementTokens, List.append_assoc,
        List.append_assoc]

/-- The same of members and the end of their object. -/
theorem scan_indentedMembers (depth indent : Nat) (first : Bool) :
    ∀ members : List (String × Json), LegibleMembers depth members → ∀ rest,
      Token.scan .between (indentedMembers indent first members ++ rest) =
        memberTokens first members ++ Token.scan .between rest
  | [], _, rest => by
      rw [indentedMembers, List.append_assoc, scan_newLine]
      rfl
  | (key, value) :: others, legible, rest => by
      have behind := scan_indentedMembers depth indent false others legible.2 rest
      have here := scan_indentedChars depth (indent + 1) value legible.1 _
        (endsValue_indentedMembers indent false others rest)
      rw [indentedMembers, List.append_assoc, List.append_assoc, List.append_assoc,
        List.append_assoc, List.append_assoc, scan_separator, scan_newLine, scan_quotedString,
        List.cons_append, scan_cons, memberTokens, List.append_assoc]
      refine congrArg _ (congrArg (Token.string (.ok key) (.ok ()) :: ·)
        (congrArg (Token.colon :: ·) (Eq.trans ?_ (List.append_assoc _ _ _).symm)))
      rw [← behind, ← here]
      rfl

end

/-! ## From the tokens to the value -/

theorem foldlM_step_append {first : List Token} {start middle : Reader.State}
    (read : first.foldlM Reader.step start = .ok middle) (second : List Token) :
    (first ++ second).foldlM Reader.step start = second.foldlM Reader.step middle := by
  rw [List.foldlM_append, read]
  rfl

/-- No value starts with the end of an array. -/
theorem exists_tokens_eq_cons (value : Json) :
    ∃ first others, tokens value = first :: others ∧ first ≠ .closeArray := by
  cases value with
  | null => exact ⟨_, _, rfl, nofun⟩
  | boolean value => exact ⟨_, _, rfl, nofun⟩
  | integer value => exact ⟨_, _, rfl, nofun⟩
  | float value => exact ⟨_, _, rfl, nofun⟩
  | string text => exact ⟨_, _, rfl, nofun⟩
  | array elements => exact ⟨_, _, rfl, nofun⟩
  | object members => exact ⟨_, _, rfl, nofun⟩

/-- Where the first element is expected, any value is read as such. -/
theorem foldlM_step_firstElement (stack : List Frame) (value : Json) (rest : List Token) :
    (tokens value ++ rest).foldlM Reader.step ⟨stack, .firstElement⟩ =
      (tokens value ++ rest).foldlM Reader.step ⟨stack, .value⟩ := by
  rcases exists_tokens_eq_cons value with ⟨first, others, starts, different⟩
  have same : Reader.step ⟨stack, .firstElement⟩ first = Reader.step ⟨stack, .value⟩ first := by
    cases first with
    | closeArray => exact absurd rfl different
    | _ => rfl
  rw [starts, List.cons_append, List.foldlM_cons, List.foldlM_cons, same]

theorem enter_of_lt {stack : List Frame} (shallow : stack.length < Reader.deepest)
    (frame : Frame) (expected : Expected) :
    Reader.enter stack frame expected = .ok ⟨frame :: stack, expected⟩ :=
  if_pos shallow

mutual

/-- From the tokens of a legible value the reader completes its ordered form. -/
theorem foldlM_step_tokens (stack : List Frame) : ∀ value : Json, Legible stack.length value →
    (tokens value).foldlM Reader.step ⟨stack, .value⟩ =
      .ok (Reader.complete stack (ordered value))
  | null, _ => rfl
  | boolean _, _ => rfl
  | integer _, _ => rfl
  | float _, _ => rfl
  | string _, _ => rfl
  | array elements, legible => by
      have opened : Reader.step ⟨stack, .value⟩ .openArray = _ := enter_of_lt legible.1 _ _
      rw [tokens, List.foldlM_cons, opened]
      exact foldlM_step_elementTokens stack [] true elements legible.2
  | object members, legible => by
      have opened : Reader.step ⟨stack, .value⟩ .openObject = _ := enter_of_lt legible.1 _ _
      rw [tokens, List.foldlM_cons, opened]
      exact foldlM_step_memberTokens stack [] "" true members legible.2

/-- Elements are added to their array, which is complete at its end. -/
theorem foldlM_step_elementTokens (outer : List Frame) (before : List Json) (first : Bool) :
    ∀ elements : List Json, LegibleElements (outer.length + 1) elements →
      (elementTokens first elements).foldlM Reader.step
          ⟨.array before :: outer, if first then .firstElement else .separator⟩ =
        .ok (Reader.complete outer (.array (before.reverse ++ orderedElements elements)))
  | [], _ => by
      rw [orderedElements, List.append_nil]
      cases first with
      | true => rfl
      | false => rfl
  | element :: others, legible => by
      -- The frame keeps its elements last first.
      have here := foldlM_step_tokens (.array before :: outer) element legible.1
      have behind := foldlM_step_elementTokens outer (ordered element :: before) false others
        legible.2
      rw [List.reverse_cons, List.append_assoc] at behind
      have both := (foldlM_step_append here (elementTokens false others)).trans behind
      cases first with
      | true => exact (foldlM_step_firstElement _ element _).trans both
      | false => exact both

/-- Members are added to their object, which is complete at its end. -/
theorem foldlM_step_memberTokens (outer : List Frame) (before : List (String × Json))
    (last : String) (first : Bool) :
    ∀ members : List (String × Json), LegibleMembers (outer.length + 1) members →
      (memberTokens first members).foldlM Reader.step
          ⟨.object before last :: outer, if first then .firstKey else .separator⟩ =
        .ok (Reader.complete outer (.object (orderedMembers before members)))
  | [], _ => by
      cases first with
      | true => rfl
      | false => rfl
  | (key, value) :: others, legible => by
      have here := foldlM_step_tokens (.object before key :: outer) value legible.1
      have behind := foldlM_step_memberTokens outer (withMember key (ordered value) before) key
        false others legible.2
      have both := (foldlM_step_append here (memberTokens false others)).trans behind
      cases first with
      | true => exact both
      | false => exact both

end

/-- A legible value is read back from its printed text in its ordered form. -/
theorem ofText_indented {value : Json} (legible : Legible 0 value) :
    ofText value.indented = .ok value.ordered := by
  have scanned := scan_indentedChars 0 0 value legible [] endsValue_nil
  rw [List.append_nil] at scanned
  rw [ofText, indented, String.toList_ofList, ofTokens, Token.ofText, scanned, Reader.initial,
    foldlM_step_append (foldlM_step_tokens [] value legible)]
  rfl

end Json
end PracticePlan
