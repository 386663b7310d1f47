import PracticePlan.Json.Printer
import PracticePlan.Text.Pieces
import PracticePlan.Text.Quoted

namespace PracticePlan
namespace Json

/-!
# Values of an expected shape

Settings, schemas and rows are JSON values of a known shape.  Reading one
either yields a typed value or a cause that names what was found and what was
wanted.  The causes are shared by all shapes, so that equal mistakes are
reported in equal words wherever they occur.

A record is an object whose keys are the field names, and unknown keys are
ignored.  It may also be written as an array of its fields in their declared
order.  `fields` views both forms as named values, in the order in which they
are examined: the order of the object, or the order of declaration.
-/

/-- Why a value does not have the expected shape. -/
inductive ShapeError where
  | wrongType (found : Json) (wanted : String)
  | outOfRange (value : Int) (wanted : String)
  | notOneKey
  | wrongLength (length : Nat) (wanted : String)
  | unknownVariant (name : String) (allowed : List String)
  | missingField (name : String)

namespace ShapeError

/-- What a value is called in a message.  Arrays and objects are not shown. -/
def describe : Json → String
  | null => "null"
  | boolean true => "boolean `true`"
  | boolean false => "boolean `false`"
  | integer value => "integer `" ++ String.ofList (integerText value) ++ "`"
  | float value => "floating point `" ++ String.ofList (floatText value) ++ "`"
  | string text => "string " ++ Text.quoted text
  | array _ => "sequence"
  | object _ => "map"

def ticked (name : String) : String :=
  "`" ++ name ++ "`"

/-- The allowed names: two are joined by a word, more are listed. -/
def alternatives : List String → String
  | [first, second] => ticked first ++ " or " ++ ticked second
  | names => "one of " ++ Text.joined ", " (names.map ticked)

def message : ShapeError → String
  | wrongType found wanted => "invalid type: " ++ describe found ++ ", expected " ++ wanted
  | outOfRange value wanted =>
      "invalid value: " ++ describe (integer value) ++ ", expected " ++ wanted
  | notOneKey => "invalid value: map, expected map with a single key"
  | wrongLength length wanted =>
      "invalid length " ++ String.ofList (Nat.toDigits 10 length) ++ ", expected " ++ wanted
  | unknownVariant name allowed =>
      "unknown variant " ++ ticked name ++ ", expected " ++ alternatives allowed
  | missingField name => "missing field " ++ ticked name

end ShapeError

/-- The outcome of reading a value of an expected shape. -/
abbrev Shaped (α : Type) : Type :=
  Except ShapeError α

def asText : Json → Shaped String
  | string text => .ok text
  | other => .error (.wrongType other "a string")

def asBoolean : Json → Shaped Bool
  | boolean value => .ok value
  | other => .error (.wrongType other "a boolean")

/-- Read a natural number below `bound`.  A floating point number is never
one, whatever its value. -/
def asNatural (bound : Nat) (wanted : String) : Json → Shaped Nat
  | integer value =>
      if 0 ≤ value ∧ value < bound then .ok value.toNat else .error (.outOfRange value wanted)
  | other => .error (.wrongType other wanted)

/-- Read an unsigned number of 32 bits. -/
def asUInt32 (value : Json) : Shaped UInt32 :=
  (asNatural 0x100000000 "u32" value).map UInt32.ofNat

/-- Read an unsigned number of 8 bits. -/
def asUInt8 (value : Json) : Shaped UInt8 :=
  (asNatural 0x100 "u8" value).map UInt8.ofNat

/-- Read an array, each element with the same reader. -/
def asList {α : Type} (read : Json → Shaped α) : Json → Shaped (List α)
  | array elements => elements.mapM read
  | other => .error (.wrongType other "a sequence")

/-- Read a value that may be null. -/
def asOptional {α : Type} (read : Json → Shaped α) : Json → Shaped (Option α)
  | null => .ok none
  | other => (read other).map some

/-- Check that nothing is attached to the name of a variant. -/
def asNothing : Json → Shaped Unit
  | null => .ok ()
  | other => .error (.wrongType other "unit")

def variantNamed {α : Type} (variants : List (String × α)) (name : String) : Shaped α :=
  match variants.lookup name with
  | some variant => .ok variant
  | none => .error (.unknownVariant name (variants.map Prod.fst))

/-- Read the name of a variant, which may also be the only key of an object
with the value null. -/
def asVariant {α : Type} (variants : List (String × α)) : Json → Shaped α
  | string name => variantNamed variants name
  | object [(name, value)] =>
      (variantNamed variants name).bind fun variant => (asNothing value).map fun _ => variant
  | object _ => .error .notOneKey
  | other => .error (.wrongType other "string or map")

/-- The named values of a record, in the order in which they are examined. -/
def fields (wanted : String) (declared : List String) : Json → Shaped (List (String × Json))
  | object members => .ok members
  | array elements => .ok (declared.zip elements)
  | other => .error (.wrongType other wanted)

/-- Refuse an array that has more elements than the record has fields. -/
def checkLength (declared : List String) (found : Json) : Shaped Unit :=
  match found with
  | array elements =>
      if elements.length ≤ declared.length then .ok ()
      else .error (.wrongLength elements.length "fewer elements in array")
  | _ => .ok ()

/-- Read a record all of whose fields have defaults.  The fields that are there
are read one after the other into a record that starts with the defaults. -/
def asRecord {α : Type} (wanted : String) (declared : List String) (defaults : α)
    (withField : α → String → Json → Shaped α) (found : Json) : Shaped α :=
  (fields wanted declared found).bind fun named =>
    (named.foldlM (fun record field => withField record field.1 field.2) defaults).bind
      fun record => (checkLength declared found).map fun _ => record

end Json
end PracticePlan
