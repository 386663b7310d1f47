import PracticePlan.Json.Token

namespace PracticePlan
namespace Json
namespace PassOver

/-!
# Passing over JSON values

A reader that knows which members it wants passes over the others.  Passing
over checks only that brackets, colons and commas stand where they may, and is
lenient about the insides of tokens.  No depth is too deep for it, since all it
remembers is which brackets are open.
-/

/-- A bracket that is open. -/
inductive Bracket where
  | array
  | object
deriving DecidableEq, Repr

/-- What may come next. -/
inductive Expected where
  | value
  | firstElement
  | key
  | firstKey
  | colon
  | separator
deriving DecidableEq, Repr

/-- The open brackets, innermost first, and what may come next. -/
structure State where
  brackets : List Bracket
  expected : Expected
deriving DecidableEq, Repr

def initial : State :=
  ⟨[], .value⟩

/-- The state after a complete value, or nothing when no bracket is open. -/
def complete : List Bracket → Option State
  | [] => none
  | brackets => some ⟨brackets, .separator⟩

/-- Close the innermost bracket, which has to be of this kind. -/
def close (kind : Bracket) : List Bracket → Except Fault (Option State)
  | innermost :: outer => if innermost = kind then .ok (complete outer) else .error .malformed
  | [] => .error .malformed

/-- Pass over a token where a value may start. -/
def stepValue (brackets : List Bracket) : Token → Except Fault (Option State)
  | .string _ passed | .scalar _ passed => passed.map fun _ => complete brackets
  | .openArray => .ok (some ⟨.array :: brackets, .firstElement⟩)
  | .openObject => .ok (some ⟨.object :: brackets, .firstKey⟩)
  | _ => .error .malformed

/-- Pass over a token where a key may stand. -/
def stepKey (brackets : List Bracket) : Token → Except Fault (Option State)
  | .string _ passed => passed.map fun _ => some ⟨brackets, .colon⟩
  | _ => .error .malformed

/-- Pass over a token after an element or a member. -/
def stepSeparator (brackets : List Bracket) : Token → Except Fault (Option State)
  | .comma => match brackets with
      | .object :: _ => .ok (some ⟨brackets, .key⟩)
      | _ => .ok (some ⟨brackets, .value⟩)
  | .closeArray => close .array brackets
  | .closeObject => close .object brackets
  | _ => .error .malformed

/-- Pass over one token.  There is no further state when it completes the
value. -/
def step (state : State) (token : Token) : Except Fault (Option State) :=
  match state.expected with
  | .value => stepValue state.brackets token
  | .firstElement => match token with
      | .closeArray => close .array state.brackets
      | _ => stepValue state.brackets token
  | .key => stepKey state.brackets token
  | .firstKey => match token with
      | .closeObject => close .object state.brackets
      | _ => stepKey state.brackets token
  | .colon => match token with
      | .colon => .ok (some ⟨state.brackets, .value⟩)
      | _ => .error .malformed
  | .separator => stepSeparator state.brackets token

end PassOver
end Json
end PracticePlan
