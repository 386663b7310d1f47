import PracticePlan.Json.Basic
import PracticePlan.Named
import PracticePlan.Number.Text
import PracticePlan.Text.Numeral
import PracticePlan.Text.Pieces

namespace PracticePlan

/-!
# Arguments

The arguments of an interval are named values in the order in which the names
first appeared.  Texts that no argument of the schema could take are kept as
the rest, so that nothing is lost when the schema of a feature changes.

Numbers are compared as numbers, so the two zeros count as the same value.
-/

/-- The value of an argument. -/
inductive ArgValue where
  | text (text : String)
  | number (number : Binary64)
  | boolean (value : Bool)
  | choice (label : String)
  | list (items : List ArgValue)
  | selection (labels : List String)
  | block (content : Json)

/-- Named values and the texts left over. -/
structure Arguments where
  values : List (String × ArgValue)
  rest : List String

namespace ArgValue

/-- The text of a number.  A whole number below 10^15 is written as an integer,
without the sign of zero. -/
def numberText (number : Binary64) : String :=
  match number.toInt? with
  | some value =>
      if value.natAbs < 1000000000000000 then
        String.ofList ((if value < 0 then ['-'] else []) ++ Text.digitsOf value.natAbs)
      else number.toText
  | none => number.toText

mutual

/-- The text of a value where a single text is needed. -/
def toText : ArgValue → String
  | .text words => words
  | .choice label => label
  | .number value => numberText value
  | .boolean true => "true"
  | .boolean false => "false"
  | .list items => Text.joined " " (textsOf items)
  | .selection labels => Text.joined "-" labels
  | .block _ => ""

def textsOf : List ArgValue → List String
  | [] => []
  | item :: rest => item.toText :: textsOf rest

end

mutual

def same : ArgValue → ArgValue → Bool
  | text first, text second => first == second
  | number first, number second => first.same second
  | boolean first, boolean second => first == second
  | choice first, choice second => first == second
  | list first, list second => sameItems first second
  | selection first, selection second => first == second
  | block first, block second => first.same second
  | _, _ => false

/-- Equality of two lists of values, place by place. -/
def sameItems : List ArgValue → List ArgValue → Bool
  | [], [] => true
  | first :: firsts, second :: seconds => same first second && sameItems firsts seconds
  | _, _ => false

end

end ArgValue

namespace Arguments

def empty : Arguments :=
  ⟨[], []⟩

/-- Give an argument a value.  An argument that has one keeps its place. -/
def insert (arguments : Arguments) (name : String) (value : ArgValue) : Arguments :=
  { arguments with values := Named.put name value arguments.values }

def get? (arguments : Arguments) (name : String) : Option ArgValue :=
  Named.value? name arguments.values

theorem get?_insert_self (arguments : Arguments) (name : String) (value : ArgValue) :
    (arguments.insert name value).get? name = some value :=
  Named.value?_put_self name value arguments.values

theorem get?_insert_of_ne (arguments : Arguments) {name other : String} (value : ArgValue)
    (different : other ≠ name) :
    (arguments.insert other value).get? name = arguments.get? name :=
  Named.value?_put_of_ne value arguments.values different

/-- The text or the label that an argument has. -/
def text? (arguments : Arguments) (name : String) : Option String :=
  match arguments.get? name with
  | some (.text text) | some (.choice text) => some text
  | _ => none

def number? (arguments : Arguments) (name : String) : Option Binary64 :=
  match arguments.get? name with
  | some (.number number) => some number
  | _ => none

/-- The truth value that an argument has. -/
def boolean? (arguments : Arguments) (name : String) : Option Bool :=
  match arguments.get? name with
  | some (.boolean value) => some value
  | _ => none

def list? (arguments : Arguments) (name : String) : Option (List ArgValue) :=
  match arguments.get? name with
  | some (.list items) => some items
  | _ => none

def selection? (arguments : Arguments) (name : String) : Option (List String) :=
  match arguments.get? name with
  | some (.selection labels) => some labels
  | _ => none

/-- The content of the block that an argument has.  A null block counts as
missing. -/
def block? (arguments : Arguments) (name : String) : Option Json :=
  match arguments.get? name with
  | some (.block .null) => none
  | some (.block content) => some content
  | _ => none

/-- Equality of named values, place by place. -/
def sameValues : List (String × ArgValue) → List (String × ArgValue) → Bool
  | [], [] => true
  | (name, first) :: firsts, (other, second) :: seconds =>
      name == other && first.same second && sameValues firsts seconds
  | _, _ => false

def same (first second : Arguments) : Bool :=
  sameValues first.values second.values && first.rest == second.rest

end Arguments
end PracticePlan
