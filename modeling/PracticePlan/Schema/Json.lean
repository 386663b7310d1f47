import PracticePlan.Json.Shape
import PracticePlan.Schema.Basic

namespace PracticePlan

/-!
# Schemas as JSON

A schema is an array of arguments, and an argument a record with the fields
`name`, `baseType`, `arity`, `uiHint`, `enumValues` and `nestedSchema`.  The
first two are required.  Written arguments always show arity and hint, labels
when there are any, and a nested schema when there is one.
-/

namespace BaseType

/-- The kinds of values by their names. -/
def named : List (String × BaseType) :=
  [("string", .text), ("number", .number), ("boolean", .boolean), ("enum", .choice),
   ("nestedBlock", .block)]

/-- The name of a kind of values. -/
def name : BaseType → String
  | text => "string"
  | number => "number"
  | boolean => "boolean"
  | choice => "enum"
  | block => "nestedBlock"

end BaseType

namespace Arity

def named : List (String × Arity) :=
  [("single", .single), ("variadic", .variadic)]

def name : Arity → String
  | single => "single"
  | variadic => "variadic"

end Arity

namespace Hint

def named : List (String × Hint) :=
  [("input", .input), ("multiToggle", .multiToggle), ("popover", .popover)]

def name : Hint → String
  | input => "input"
  | multiToggle => "multiToggle"
  | popover => "popover"

end Hint

namespace ArgSpec

/-- An argument of which some fields have been read. -/
structure Draft where
  name : Option String
  baseType : Option BaseType
  arity : Arity
  hint : Hint
  labels : List String
  nested : Option (List ArgSpec)

namespace Draft

def empty : Draft :=
  ⟨none, none, .single, .input, [], none⟩

/-- Read a field that holds no schema.  Unknown fields are ignored. -/
def withField (draft : Draft) (key : String) (value : Json) : Json.Shaped Draft :=
  match key with
  | "name" => value.asText.map fun name => { draft with name := some name }
  | "baseType" =>
      (value.asVariant BaseType.named).map fun baseType => { draft with baseType := some baseType }
  | "arity" => (value.asVariant Arity.named).map fun arity => { draft with arity }
  | "uiHint" => (value.asVariant Hint.named).map fun hint => { draft with hint }
  | "enumValues" => (value.asList Json.asText).map fun labels => { draft with labels }
  | _ => .ok draft

/-- The argument, when the required fields have been read.  A field that is
missing is reported by `missing`, with its name and its position. -/
def complete (missing : String → Nat → Json.ShapeError) (draft : Draft) : Json.Shaped ArgSpec :=
  match draft.name, draft.baseType with
  | none, _ => .error (missing "name" 0)
  | some _, none => .error (missing "baseType" 1)
  | some name, some baseType =>
      .ok ⟨name, baseType, draft.arity, draft.hint, draft.labels, draft.nested⟩

end Draft

/-- The fields of an argument in their declared order. -/
def declared : List String :=
  ["name", "baseType", "arity", "uiHint", "enumValues", "nestedSchema"]

/-- Report a field that an array is too short for. -/
def tooShort (_name : String) (position : Nat) : Json.ShapeError :=
  .wrongLength position "struct ArgSpec with 6 elements"

end ArgSpec

namespace Schema

mutual

def ofJson : Json → Json.Shaped Schema
  | .array elements => specsOfJson elements
  | other => .error (.wrongType other "a sequence")

def specsOfJson : List Json → Json.Shaped (List ArgSpec)
  | [] => .ok []
  | element :: rest =>
      (specOfJson element).bind fun spec => (specsOfJson rest).map fun specs => spec :: specs

def specOfJson : Json → Json.Shaped ArgSpec
  | .object members =>
      (draftOfMembers .empty members).bind (ArgSpec.Draft.complete fun name _ => .missingField name)
  | .array elements =>
      (draftOfElements .empty ArgSpec.declared elements).bind fun draft =>
        (draft.complete ArgSpec.tooShort).bind fun spec =>
          (Json.checkLength ArgSpec.declared (.array elements)).map fun _ => spec
  | other => .error (.wrongType other "struct ArgSpec")

def draftOfMembers (draft : ArgSpec.Draft) : List (String × Json) → Json.Shaped ArgSpec.Draft
  | [] => .ok draft
  | (key, value) :: rest =>
      (draftOfField draft key value).bind fun next => draftOfMembers next rest

/-- Read the elements of an array as the fields with the given names. -/
def draftOfElements (draft : ArgSpec.Draft) (names : List String) :
    List Json → Json.Shaped ArgSpec.Draft
  | [] => .ok draft
  | value :: rest => match names with
      | [] => .ok draft
      | key :: others =>
          (draftOfField draft key value).bind fun next => draftOfElements next others rest

def draftOfField (draft : ArgSpec.Draft) (key : String) (value : Json) :
    Json.Shaped ArgSpec.Draft :=
  if key = "nestedSchema" then
    match value with
    | .null => .ok draft
    | .array elements =>
        (specsOfJson elements).map fun nested => { draft with nested := some nested }
    | other => .error (.wrongType other "a sequence")
  else draft.withField key value

end

mutual

def specsToJson : List ArgSpec → List Json
  | [] => []
  | spec :: rest => specToJson spec :: specsToJson rest

def specToJson : ArgSpec → Json
  | ⟨name, baseType, arity, hint, labels, nested⟩ =>
      .object ([("arity", .string arity.name), ("baseType", .string baseType.name)] ++
        (if labels.isEmpty then [] else [("enumValues", .array (labels.map .string))]) ++
        [("name", .string name)] ++ nestedToJson nested ++ [("uiHint", .string hint.name)])

/-- Write a nested schema as a member, if there is one. -/
def nestedToJson : Option (List ArgSpec) → List (String × Json)
  | none => []
  | some schema => [("nestedSchema", .array (specsToJson schema))]

end

def toJson (schema : Schema) : Json :=
  .array (specsToJson schema)

end Schema
end PracticePlan
