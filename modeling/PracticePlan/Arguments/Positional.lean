import PracticePlan.Arguments.Basic
import PracticePlan.Schema.Basic
import PracticePlan.Settings.Basic
import PracticePlan.Text.Blank

namespace PracticePlan

/-!
# Arguments as positional texts

A row holds the arguments of its feature as a list of texts.  The schema
distributes the texts from left to right: a block takes none, a variadic
argument takes all that remain, and any other argument takes one, or the empty
text when none is left.  What remains at the end is the rest.

Reading never fails.  A text that is no number stands for zero, a text other
than `true` for false, and a toggle label that the schema does not know is
dropped.  A toggle set in a single text that contains a hyphen is an old
spelling, with the labels joined by hyphens.

Writing is the way back.  The labels of a toggle set are written in the order
of the schema.
-/

namespace ArgSpec

/-- The number a text stands for. -/
def numberOf (text : String) : Binary64 :=
  ((Binary64.ofText? (Text.trim text.toList)).filter Binary64.isFinite).getD Binary64.zero

/-- Whether a text stands for true, in any case. -/
def truthOf (text : String) : Bool :=
  (Text.trim text.toList).map Char.toLower = ['t', 'r', 'u', 'e']

/-- The value that one text stands for. -/
def valueOf (spec : ArgSpec) (text : String) : ArgValue :=
  match spec.baseType with
  | .text | .block => .text text
  | .number => .number (numberOf text)
  | .boolean => .boolean (truthOf text)
  | .choice => .choice text

/-- The tokens of a toggle set.  A single text with a hyphen holds several. -/
def tokensOf : List String → List String
  | [single] =>
      if single.toList.contains '-' then
        (Text.pieces '-' single.toList).map fun piece => String.ofList (Text.trim piece)
      else [Text.trimmed single]
  | texts => texts.map Text.trimmed

/-- The labels of the schema that occur among the tokens. -/
def selectionOf (spec : ArgSpec) (texts : List String) : List String :=
  let tokens := tokensOf texts
  spec.labels.filter fun label => tokens.contains label

/-- The value of a variadic argument that takes the given texts. -/
def variadicValueOf (spec : ArgSpec) (texts : List String) : ArgValue :=
  if spec.isToggles then .selection (spec.selectionOf texts)
  else .list (texts.map spec.valueOf)

/-- The text of a single argument without a value. -/
def blankText (spec : ArgSpec) : String :=
  match spec.baseType with
  | .number => "0"
  | .boolean => "false"
  | _ => ""

def singleText (spec : ArgSpec) (value : Option ArgValue) : String :=
  match value with
  | some value => value.toText
  | none => spec.blankText

def variadicTexts (spec : ArgSpec) (value : Option ArgValue) : List String :=
  match value with
  | some (.selection labels) =>
      if spec.isToggles then spec.labels.filter fun label => labels.contains label else labels
  | some (.list items) => ArgValue.textsOf items
  | some (.block _) | none => []
  | some scalar => [scalar.toText]

/-- The texts of an argument that takes texts. -/
def textsOf (spec : ArgSpec) (value : Option ArgValue) : List String :=
  if spec.isVariadic then spec.variadicTexts value else [spec.singleText value]

end ArgSpec

/-- A row has more texts than its schema has places. -/
structure ArityError where
  expected : Nat
  found : Nat
deriving DecidableEq, Repr

namespace ArityError

def message (error : ArityError) : String :=
  "expected at most " ++ String.ofList (Text.digitsOf error.expected) ++
    " argument values, found " ++ String.ofList (Text.digitsOf error.found)

end ArityError

namespace Arguments

/-- The named values of a schema in its order, and the texts left over. -/
def distribute (blockOf : String → Json) : List ArgSpec → List String →
    List (String × ArgValue) × List String
  | [], texts => ([], texts)
  | spec :: schema, texts =>
      if spec.isBlock then
        let others := distribute blockOf schema texts
        ((spec.name, .block (blockOf spec.name)) :: others.1, others.2)
      else if spec.isVariadic then
        let others := distribute blockOf schema []
        ((spec.name, spec.variadicValueOf texts) :: others.1, others.2)
      else
        let others := distribute blockOf schema texts.tail
        ((spec.name, spec.valueOf (texts.headD "")) :: others.1, others.2)

/-- Give several names values, one after the other. -/
def putAll (values : List (String × ArgValue)) : List (String × ArgValue) :=
  values.foldl (fun known named => Named.put named.1 named.2 known) []

/-- Read arguments, given the content of each block. -/
def ofTextsWith (blockOf : String → Json) (schema : Schema) (texts : List String) : Arguments :=
  let parts := distribute blockOf schema texts
  ⟨putAll parts.1, parts.2⟩

variable {σ : Type} [IntervalSettings σ]

/-- The content of a block of optional settings. -/
def blockContent (settings : Option σ) (name : String) : Json :=
  (settings.bind fun known => IntervalSettings.block? known name).getD .null

/-- Read arguments.  Blocks come from the settings, and are null without. -/
def ofTexts (schema : Schema) (texts : List String) (settings : Option σ) : Arguments :=
  ofTextsWith (blockContent settings) schema texts

def toTexts (schema : Schema) (arguments : Arguments) : List String :=
  (Schema.positional schema).flatMap (fun spec => spec.textsOf (arguments.get? spec.name)) ++
    arguments.rest

/-- Check that a schema has a place for every text. -/
def checkArity (schema : Schema) (texts : List String) : Except ArityError Unit :=
  let expected := Schema.singleSlots schema
  if !Schema.hasVariadic schema && expected < texts.length then .error ⟨expected, texts.length⟩
  else .ok ()

/-- Write the block that an argument has, if it has one, back into settings. -/
def writeBlock (arguments : Arguments) (spec : ArgSpec) : SettingsChange σ Unit :=
  match arguments.block? spec.name with
  | some content => IntervalSettings.replaceBlock spec.name content
  | none => pure ()

/-- Write the blocks of a schema back into settings, one after the other until
one is refused. -/
def writeBlocks (arguments : Arguments) (schema : Schema) : SettingsChange σ Unit :=
  (schema.filter ArgSpec.isBlock).forM arguments.writeBlock

/-- The settings with the blocks among the arguments.  The blocks in front of one
that is refused stay written. -/
def applyBlocks (arguments : Arguments) (schema : Schema) (settings : σ) :
    σ × Except SettingsError Unit :=
  let done := (arguments.writeBlocks schema).on settings
  (done.2, done.1)

end Arguments
end PracticePlan
