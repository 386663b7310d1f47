import PracticePlan.Json.Token

namespace PracticePlan
namespace Json

/-!
# Reading JSON

The reader consumes tokens one at a time and keeps a stack of the arrays and
objects that are still open, innermost first.  At every token it knows what may
come next, and a token that may not come next is a fault whatever it holds.
When the tokens run out before the value is complete, the text has ended too
early.

Objects are sorted by key and a later member replaces an earlier one with the
same key.  At most 127 arrays and objects may be open at a time.
-/

/-- An array or object that is still open.  Elements are kept last first.  An
object knows the key whose value is being read. -/
inductive Frame where
  | array (elements : List Json)
  | object (members : List (String × Json)) (key : String)

/-- What may come next. -/
inductive Expected where
  | value
  | firstElement
  | key
  | firstKey
  | colon
  | separator
  | nothing (value : Json)

namespace Reader

/-- The open frames and what may come next. -/
structure State where
  stack : List Frame
  expected : Expected

def initial : State :=
  ⟨[], .value⟩

/-- How many arrays and objects may be open at a time. -/
def deepest : Nat :=
  127

/-- Put a complete value where it belongs. -/
def complete (stack : List Frame) (value : Json) : State :=
  match stack with
  | [] => ⟨[], .nothing value⟩
  | .array elements :: outer => ⟨.array (value :: elements) :: outer, .separator⟩
  | .object members key :: outer =>
      ⟨.object (withMember key value members) key :: outer, .separator⟩

/-- Open a frame, unless too many are open. -/
def enter (stack : List Frame) (frame : Frame) (expected : Expected) : Except Fault State :=
  if stack.length < deepest then .ok ⟨frame :: stack, expected⟩ else .error .malformed

def closeArray (stack : List Frame) : Except Fault State :=
  match stack with
  | .array elements :: outer => .ok (complete outer (.array elements.reverse))
  | _ => .error .malformed

def closeObject (stack : List Frame) : Except Fault State :=
  match stack with
  | .object members _ :: outer => .ok (complete outer (.object members))
  | _ => .error .malformed

/-- Read a token where a value may start. -/
def readValue (stack : List Frame) : Token → Except Fault State
  | .string read _ => read.map fun text => complete stack (.string text)
  | .scalar read _ => read.map (complete stack)
  | .openArray => enter stack (.array []) .firstElement
  | .openObject => enter stack (.object [] "") .firstKey
  | _ => .error .malformed

/-- Read a token where a key may stand. -/
def readKey (stack : List Frame) : Token → Except Fault State
  | .string read _ => read.bind fun key => match stack with
      | .object members _ :: outer => .ok ⟨.object members key :: outer, .colon⟩
      | _ => .error .malformed
  | _ => .error .malformed

/-- Read a token after an element or a member. -/
def readSeparator (stack : List Frame) : Token → Except Fault State
  | .comma => match stack with
      | .array _ :: _ => .ok ⟨stack, .value⟩
      | _ => .ok ⟨stack, .key⟩
  | .closeArray => closeArray stack
  | .closeObject => closeObject stack
  | _ => .error .malformed

def step (state : State) (token : Token) : Except Fault State :=
  match state.expected with
  | .value => readValue state.stack token
  | .firstElement => match token with
      | .closeArray => closeArray state.stack
      | _ => readValue state.stack token
  | .key => readKey state.stack token
  | .firstKey => match token with
      | .closeObject => closeObject state.stack
      | _ => readKey state.stack token
  | .colon => match token with
      | .colon => .ok ⟨state.stack, .value⟩
      | _ => .error .malformed
  | .separator => readSeparator state.stack token
  | .nothing _ => .error .malformed

/-- The value that has been read when the tokens end. -/
def finish (state : State) : Except Fault Json :=
  match state.expected with
  | .nothing value => .ok value
  | _ => .error .endOfText

end Reader

def ofTokens (tokens : List Token) : Except Fault Json :=
  (tokens.foldlM Reader.step Reader.initial).bind Reader.finish

/-- Read a text as one JSON value. -/
def ofText (text : String) : Except Fault Json :=
  ofTokens (Token.ofText text.toList)

end Json
end PracticePlan
