import PracticePlan.Json.Number

namespace PracticePlan
namespace Json

/-!
# JSON tokens

A text is cut into tokens by a machine that reads one character at a time.
Two kinds of fault are told apart: the text ends too early, or it is malformed.
Faults inside a token stay in the token, since whether a token is reached at
all is decided by the reader that consumes them.

Each string and each scalar is given twice: as its value is read, and as it is
passed over when its value is of no interest.  Passing over is more lenient.
Unpaired surrogate escapes and numbers that are too large are no faults then,
while a number that the text's end cuts short is malformed instead of
incomplete.  After a token that cannot even be passed over the machine stops.

Blanks are the space, the tab, the carriage return and the newline.
-/

/-- Why a text is not JSON. -/
inductive Fault where
  | endOfText
  | malformed
deriving DecidableEq, Repr

/-- A token, with what becomes of it when it is read and when it is passed over. -/
inductive Token where
  | openArray
  | closeArray
  | openObject
  | closeObject
  | colon
  | comma
  | string (read : Except Fault String) (passed : Except Fault Unit)
  | scalar (read : Except Fault Json) (passed : Except Fault Unit)
  | stray

namespace Token

/-- How far a string escape has been read.  A `pending` number is a leading
surrogate that still needs its trailing one. -/
inductive Escape where
  | none
  | leading (unit : Nat)
  | backslash (pending : Option Nat)
  | hex (pending : Option Nat) (count : Nat) (value : Nat)
  | spoiled (missing : Nat)
deriving DecidableEq, Repr

/-- How far a number has been read. -/
inductive NumberPhase where
  | sign
  | zero
  | whole
  | point
  | fraction
  | mark
  | exponentSign
  | exponent
deriving DecidableEq, Repr

/-- What the machine has read of the current token.  Characters of a string
and digits of a number are kept last first. -/
inductive State where
  | between
  | inString (content : Except Fault (List Char)) (escape : Escape)
  | inWord (rest : List Char) (value : Json)
  | inNumber (phase : NumberPhase) (text : NumberText)
  | stopped

/-- The blanks between tokens. -/
def isSpace (c : Char) : Bool :=
  c = ' ' || c = '\t' || c = '\n' || c = '\r'

/-- The value of a hexadecimal digit of either case. -/
def hexValue? (c : Char) : Option Nat :=
  if c.isDigit then some (c.toNat - '0'.toNat)
  else if 'a' ≤ c ∧ c ≤ 'f' then some (c.toNat - 'a'.toNat + 10)
  else if 'A' ≤ c ∧ c ≤ 'F' then some (c.toNat - 'A'.toNat + 10)
  else none

/-- The character of a one-letter escape. -/
def letterEscape? (c : Char) : Option Char :=
  match c with
  | '"' => some '"'
  | '\\' => some '\\'
  | '/' => some '/'
  | 'b' => some (Char.ofNat 8)
  | 'f' => some (Char.ofNat 12)
  | 'n' => some '\n'
  | 'r' => some '\r'
  | 't' => some '\t'
  | _ => none

/-- Append a character to the content of a string, unless it is faulty already. -/
def append (content : Except Fault (List Char)) (c : Char) : Except Fault (List Char) :=
  content.map fun read => c :: read

/-- Record a fault of the content that passing over does not mind.  The first
fault stays. -/
def flaw (content : Except Fault (List Char)) : Except Fault (List Char) :=
  content.bind fun _ => .error .malformed

/-- The token of a string that ends with a fault. -/
def faultyString (content : Except Fault (List Char)) (fault : Fault) : Token :=
  .string (content.bind fun _ => .error fault) (.error fault)

/-- A number with its digits in the order of the text. -/
def inOrder (text : NumberText) : NumberText :=
  { text with
    whole := text.whole.reverse
    fraction := text.fraction.map List.reverse
    exponent := text.exponent.map fun part => (part.1, part.2.reverse) }

def ofNumber (text : NumberText) : Token :=
  match (inOrder text).value? with
  | some value => .scalar (.ok value) (.ok ())
  | none => .scalar (.error .malformed) (.ok ())

/-- Whether a number may end in this phase. -/
def NumberPhase.mayEnd : NumberPhase → Bool
  | zero | whole | fraction | exponent => true
  | _ => false

/-- The first state of a token that starts with this character, or the token
itself when it is a single character. -/
def start (c : Char) : List Token × State :=
  match c with
  | '[' => ([.openArray], .between)
  | ']' => ([.closeArray], .between)
  | '\x7b' => ([.openObject], .between)
  | '\x7d' => ([.closeObject], .between)
  | ':' => ([.colon], .between)
  | ',' => ([.comma], .between)
  | '"' => ([], .inString (.ok []) .none)
  | 'n' => ([], .inWord ['u', 'l', 'l'] .null)
  | 't' => ([], .inWord ['r', 'u', 'e'] (.boolean true))
  | 'f' => ([], .inWord ['a', 'l', 's', 'e'] (.boolean false))
  | '-' => ([], .inNumber .sign ⟨true, [], none, none⟩)
  | _ =>
      if isSpace c then ([], .between)
      else if c = '0' then ([], .inNumber .zero ⟨false, [c], none, none⟩)
      else if c.isDigit then ([], .inNumber .whole ⟨false, [c], none, none⟩)
      else ([.stray], .stopped)

/-- One character of a string outside an escape. -/
def stepPlain (content : Except Fault (List Char)) (c : Char) : List Token × State :=
  if c = '"' then
    ([.string (content.map fun read => String.ofList read.reverse) (.ok ())], .between)
  else if c = '\\' then ([], .inString content (.backslash none))
  else if c.toNat < 0x20 then ([faultyString content .malformed], .stopped)
  else ([], .inString (append content c) .none)

/-- The character after a backslash. -/
def stepBackslash (content : Except Fault (List Char)) (c : Char) : List Token × State :=
  if c = 'u' then ([], .inString content (.hex none 0 0))
  else match letterEscape? c with
    | some meant => ([], .inString (append content meant) .none)
    | none => ([faultyString content .malformed], .stopped)

/-- A complete escape of four hexadecimal digits. -/
def endHex (content : Except Fault (List Char)) (pending : Option Nat) (value : Nat) : State :=
  let isTrailing := 0xDC00 ≤ value && value ≤ 0xDFFF
  match pending with
  | some leading =>
      if isTrailing then
        let point := (leading - 0xD800) * 0x400 + (value - 0xDC00) + 0x10000
        .inString (append content (Char.ofNat point)) .none
      else .inString (flaw content) .none
  | none =>
      if isTrailing then .inString (flaw content) .none
      else if 0xD800 ≤ value && value ≤ 0xDBFF then .inString content (.leading value)
      else .inString (append content (Char.ofNat value)) .none

/-- One of the four characters of a hexadecimal escape.  An escape with a wrong
digit is malformed once four bytes of it are there. -/
def stepHex (content : Except Fault (List Char)) (pending : Option Nat) (count value : Nat)
    (c : Char) : List Token × State :=
  match hexValue? c with
  | some digit =>
      if count = 3 then ([], endHex content pending (16 * value + digit))
      else ([], .inString content (.hex pending (count + 1) (16 * value + digit)))
  | none =>
      let bytes := count + c.utf8Size
      if 4 ≤ bytes then ([faultyString content .malformed], .stopped)
      else ([], .inString content (.spoiled (4 - bytes)))

def stepString (content : Except Fault (List Char)) (escape : Escape) (c : Char) :
    List Token × State :=
  match escape with
  | .none => stepPlain content c
  | .leading unit =>
      if c = '\\' then ([], .inString content (.backslash (some unit)))
      else stepPlain (flaw content) c
  | .backslash none => stepBackslash content c
  | .backslash (some unit) =>
      if c = 'u' then ([], .inString content (.hex (some unit) 0 0))
      else stepBackslash (flaw content) c
  | .hex pending count value => stepHex content pending count value c
  | .spoiled missing =>
      if missing ≤ c.utf8Size then ([faultyString content .malformed], .stopped)
      else ([], .inString content (.spoiled (missing - c.utf8Size)))

/-- The token of a number or word that cannot be completed. -/
def malformedScalar : Token :=
  .scalar (.error .malformed) (.error .malformed)

def withFractionDigit (text : NumberText) (c : Char) : NumberText :=
  { text with fraction := some (c :: text.fraction.getD []) }

def withExponentDigit (text : NumberText) (c : Char) : NumberText :=
  { text with exponent := some (match text.exponent with
    | some (negative, digits) => (negative, c :: digits)
    | none => (false, [c])) }

/-- The state of a number after one more character, if the character belongs
to the number. -/
def extend? (phase : NumberPhase) (text : NumberText) (c : Char) : Option State :=
  let isMark := c = 'e' || c = 'E'
  match phase with
  | .sign =>
      if c = '0' then some (.inNumber .zero { text with whole := [c] })
      else if c.isDigit then some (.inNumber .whole { text with whole := [c] })
      else none
  | .zero =>
      if c = '.' then some (.inNumber .point text)
      else if isMark then some (.inNumber .mark text)
      else none
  | .whole =>
      if c.isDigit then some (.inNumber .whole { text with whole := c :: text.whole })
      else if c = '.' then some (.inNumber .point text)
      else if isMark then some (.inNumber .mark text)
      else none
  | .point =>
      if c.isDigit then some (.inNumber .fraction (withFractionDigit text c)) else none
  | .fraction =>
      if c.isDigit then some (.inNumber .fraction (withFractionDigit text c))
      else if isMark then some (.inNumber .mark text)
      else none
  | .mark =>
      if c = '+' then some (.inNumber .exponentSign { text with exponent := some (false, []) })
      else if c = '-' then some (.inNumber .exponentSign { text with exponent := some (true, []) })
      else if c.isDigit then some (.inNumber .exponent (withExponentDigit text c))
      else none
  | .exponentSign | .exponent =>
      if c.isDigit then some (.inNumber .exponent (withExponentDigit text c)) else none

/-- One character after part of a number.  A character that does not belong to
the number ends it where it may end.  A digit after a leading zero is an error. -/
def stepNumber (phase : NumberPhase) (text : NumberText) (c : Char) : List Token × State :=
  match extend? phase text c with
  | some state => ([], state)
  | none =>
      if phase.mayEnd && !(phase = .zero && c.isDigit) then
        let next := start c
        (ofNumber text :: next.1, next.2)
      else ([malformedScalar], .stopped)

def stepWord (rest : List Char) (value : Json) (c : Char) : List Token × State :=
  match rest with
  | [last] =>
      if c = last then ([.scalar (.ok value) (.ok ())], .between) else ([malformedScalar], .stopped)
  | expected :: others =>
      if c = expected then ([], .inWord others value) else ([malformedScalar], .stopped)
  | [] => ([malformedScalar], .stopped)

/-- The tokens that one character completes, and the state after it. -/
def step : State → Char → List Token × State
  | .between, c => start c
  | .inString content escape, c => stepString content escape c
  | .inWord rest value, c => stepWord rest value c
  | .inNumber phase text, c => stepNumber phase text c
  | .stopped, _ => ([], .stopped)

/-- The tokens that the end of the text completes. -/
def finish : State → List Token
  | .between | .stopped => []
  | .inString content _ => [faultyString content .endOfText]
  | .inWord _ _ => [.scalar (.error .endOfText) (.error .endOfText)]
  | .inNumber phase text =>
      if phase.mayEnd then [ofNumber text]
      else [.scalar (.error .endOfText) (.error .malformed)]

/-- The tokens of a text when part of a token has been read. -/
def scan (state : State) : List Char → List Token
  | [] => finish state
  | c :: rest =>
      let next := step state c
      next.1 ++ scan next.2 rest

def ofText (text : List Char) : List Token :=
  scan .between text

end Token
end Json
end PracticePlan
