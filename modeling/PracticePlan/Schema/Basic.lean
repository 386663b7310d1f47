import PracticePlan.Text.Quoted

namespace PracticePlan

/-!
# Schemas of feature arguments

A feature type describes its arguments by a schema.  The values of a row are a
flat list of texts, and the schema says which argument each text belongs to.
A single argument takes one text, a variadic one takes all that follow.  A
block is bound to the settings of the row and takes none, and it may have a
schema of its own.

Not every schema is usable.  `Schema.check` refuses those in which a text could
belong to two arguments, or in which the labels of a toggle set could not be
told apart once they are written in one text.  The rule reads from left to
right and reports the first fault together with the path to the schema in
which it lies.
-/

/-- What kind of value an argument has. -/
inductive BaseType where
  | text
  | number
  | boolean
  | choice
  | block
deriving DecidableEq, Repr

/-- How many texts an argument takes. -/
inductive Arity where
  | single
  | variadic
deriving DecidableEq, Repr

/-- How an editor presents an argument.  Only the toggle set matters for how
values are written. -/
inductive Hint where
  | input
  | multiToggle
  | popover
deriving DecidableEq, Repr

/-- One argument of a feature type. -/
structure ArgSpec where
  name : String
  baseType : BaseType
  arity : Arity
  hint : Hint
  labels : List String
  nested : Option (List ArgSpec)

/-- The arguments of a feature type in their order. -/
abbrev Schema : Type :=
  List ArgSpec

namespace ArgSpec

def plain (name : String) (baseType : BaseType) : ArgSpec :=
  ⟨name, baseType, .single, .input, [], none⟩

def text (name : String) : ArgSpec :=
  plain name .text

def number (name : String) : ArgSpec :=
  plain name .number

def boolean (name : String) : ArgSpec :=
  plain name .boolean

def choice (name : String) (labels : List String) : ArgSpec :=
  { plain name .choice with labels }

/-- The same argument, taking all texts that follow. -/
def variadic (spec : ArgSpec) : ArgSpec :=
  { spec with arity := .variadic }

def toggles (name : String) (labels : List String) : ArgSpec :=
  { (choice name labels).variadic with hint := .multiToggle }

def block (name : String) (schema : Schema) : ArgSpec :=
  { plain name .block with hint := .popover, nested := some schema }

/-- Whether the argument takes no text because the settings hold its value. -/
def isBlock (spec : ArgSpec) : Bool :=
  spec.baseType = .block

/-- Whether the argument takes all texts that follow. -/
def isVariadic (spec : ArgSpec) : Bool :=
  spec.arity = .variadic

/-- Whether the argument is a set of labels. -/
def isToggles (spec : ArgSpec) : Bool :=
  spec.hint = .multiToggle && spec.baseType = .choice && spec.isVariadic

end ArgSpec

/-- What makes a schema unusable. -/
inductive SchemaFault where
  | unnamed
  | duplicate (name : String)
  | variadicBlock (name : String)
  | unlabelled (name : String)
  | notToggles (name : String)
  | hyphenated (label : String)
  | afterVariadic (name : String) (variadic : String)
deriving DecidableEq, Repr

/-- The first fault of a schema and the path to where it lies. -/
structure SchemaError where
  owner : String
  fault : SchemaFault
deriving DecidableEq, Repr

namespace SchemaFault

def message : SchemaFault → String
  | unnamed => "argument names cannot be empty"
  | duplicate name => "duplicate argument name " ++ Text.quoted name
  | variadicBlock name => "nested block " ++ Text.quoted name ++ " cannot be variadic"
  | unlabelled name => "enum argument " ++ Text.quoted name ++ " has no labels"
  | notToggles name => "multi-toggle " ++ Text.quoted name ++ " must be a variadic enum"
  | hyphenated label => "multi-toggle label " ++ Text.quoted label ++ " cannot contain '-'"
  | afterVariadic name variadic =>
      "argument " ++ Text.quoted name ++ " follows variadic argument " ++ Text.quoted variadic

end SchemaFault

namespace SchemaError

def message (error : SchemaError) : String :=
  "invalid schema for " ++ error.owner ++ ": " ++ error.fault.message

end SchemaError

namespace ArgSpec

/-- The fault of an argument's name, given the names before it. -/
def nameFault? (names : List String) (spec : ArgSpec) : Option SchemaFault :=
  if spec.name.isEmpty then some .unnamed
  else if spec.name ∈ names then some (.duplicate spec.name)
  else none

/-- The fault of an argument that takes texts, looked at by itself. -/
def shapeFault? (spec : ArgSpec) : Option SchemaFault :=
  if spec.baseType = .choice ∧ spec.labels = [] then some (.unlabelled spec.name)
  else if spec.hint = .multiToggle then
    if spec.isToggles then
      (spec.labels.find? fun label => label.toList.contains '-').map .hyphenated
    else some (.notToggles spec.name)
  else none

/-- The fault of an argument that takes texts, given the variadic argument
before it. -/
def slotFault? (before : Option String) (spec : ArgSpec) : Option SchemaFault :=
  spec.shapeFault? <|> before.map (.afterVariadic spec.name)

end ArgSpec

namespace Schema

/-- Fail with a fault, if there is one. -/
def refuse (owner : String) (fault : Option SchemaFault) : Except SchemaError Unit :=
  match fault with
  | some fault => .error ⟨owner, fault⟩
  | none => .ok ()

mutual

/-- Check the arguments after those with the given names and the given variadic
argument. -/
def checkFrom (owner : String) (names : List String) (before : Option String) :
    List ArgSpec → Except SchemaError Unit
  | [] => .ok ()
  | spec :: rest =>
      (refuse owner (spec.nameFault? names)).bind fun _ =>
        if spec.isBlock then
          (refuse owner (if spec.isVariadic then some (.variadicBlock spec.name) else none)).bind
            fun _ => (checkNested (owner ++ "." ++ spec.name) spec).bind
              fun _ => checkFrom owner (spec.name :: names) before rest
        else
          (refuse owner (spec.slotFault? before)).bind fun _ =>
            checkFrom owner (spec.name :: names)
              (if spec.isVariadic then some spec.name else before) rest

/-- Check the schema of a block, if it has one. -/
def checkNested (owner : String) : ArgSpec → Except SchemaError Unit
  | ⟨_, _, _, _, _, some nested⟩ => checkFrom owner [] none nested
  | _ => .ok ()

end

/-- Check that no text can belong to two arguments.  The owner is the name
under which a fault is reported. -/
def check (owner : String) (schema : Schema) : Except SchemaError Unit :=
  checkFrom owner [] none schema

def find? (schema : Schema) (name : String) : Option ArgSpec :=
  List.find? (fun spec => spec.name = name) schema

def positional (schema : Schema) : List ArgSpec :=
  schema.filter fun spec => !spec.isBlock

/-- How many texts the single arguments take. -/
def singleSlots (schema : Schema) : Nat :=
  (positional schema).countP fun spec => !spec.isVariadic

/-- Whether some argument takes all texts that follow. -/
def hasVariadic (schema : Schema) : Bool :=
  (positional schema).any ArgSpec.isVariadic

end Schema
end PracticePlan
