import PracticePlan.Notation.Basic
import PracticePlan.Registry.Basic

namespace PracticePlan
namespace Notation

/-!
# Plans as JSON

A plan is an object with a name and items.  An item is a record whose field
`rowType` says whether it is a group or an interval.  It may also be an array
with the row type in front of the other fields.

Items are read in two steps.  The shape comes first and needs no registry.  The
category of an interval comes second: it has to be registered, and it reads the
settings.  Settings that it refuses are replaced by its default with a note, so
that they never cost the row.
-/

/-- The fields of an interval item. -/
structure IntervalItem where
  duration : String
  task : String
  categoryName : String
  featureType : String
  arguments : List String
  settings? : Option Json

/-- An item of the right shape. -/
inductive Item where
  | group (level : UInt32) (name : String)
  | interval (fields : IntervalItem)

namespace Item

/-! ## Reading -/

/-- The two types of rows. -/
inductive Kind where
  | group
  | interval
deriving DecidableEq, Repr

def kindKey : String :=
  "rowType"

/-- The types of rows by their names. -/
def kinds : List (String × Kind) :=
  [("group", .group), ("interval", .interval)]

def kindOf : Json → Json.Shaped Kind
  | .string name => Json.variantNamed kinds name
  | other => .error (.wrongType other "variant identifier")

/-- A group item of which some fields have been read. -/
structure GroupDraft where
  level : Option UInt32
  name : String

namespace GroupDraft

def declared : List String :=
  ["level", "name"]

def empty : GroupDraft :=
  ⟨none, ""⟩

/-- Read one field.  Unknown fields are ignored. -/
def withField (draft : GroupDraft) (key : String) (value : Json) : Json.Shaped GroupDraft :=
  match key with
  | "level" => value.asUInt32.map fun level => { draft with level := some level }
  | "name" => value.asText.map fun name => { draft with name }
  | _ => .ok draft

/-- The item, when the level has been read. -/
def complete (missing : Json.ShapeError) (draft : GroupDraft) : Json.Shaped Item :=
  match draft.level with
  | some level => .ok (.group level draft.name)
  | none => .error missing

end GroupDraft

/-- An interval item of which some fields have been read. -/
structure IntervalDraft where
  duration : String
  task : String
  categoryName : Option String
  featureType : String
  arguments : List String
  settings? : Option Json

namespace IntervalDraft

def declared : List String :=
  ["duration", "task", "categoryName", "featureTypeName", "featureArgsList", "intervalSettings"]

def empty : IntervalDraft :=
  ⟨IntervalRow.standardDuration, "", none, "", [], none⟩

/-- Read one field.  Unknown fields are ignored. -/
def withField (draft : IntervalDraft) (key : String) (value : Json) :
    Json.Shaped IntervalDraft :=
  match key with
  | "duration" => value.asText.map fun duration => { draft with duration }
  | "task" => value.asText.map fun task => { draft with task }
  | "categoryName" => value.asText.map fun name => { draft with categoryName := some name }
  | "featureTypeName" => value.asText.map fun featureType => { draft with featureType }
  | "featureArgsList" => (value.asList Json.asText).map fun arguments => { draft with arguments }
  | "intervalSettings" => (value.asOptional .ok).map fun settings? => { draft with settings? }
  | _ => .ok draft

/-- The item, when the category has been read. -/
def complete (missing : Json.ShapeError) (draft : IntervalDraft) : Json.Shaped Item :=
  match draft.categoryName with
  | some categoryName =>
      .ok (.interval ⟨draft.duration, draft.task, categoryName, draft.featureType,
        draft.arguments, draft.settings?⟩)
  | none => .error missing

end IntervalDraft

/-- Read named fields into a draft, one after the other. -/
def readFields {α : Type} (withField : α → String → Json → Json.Shaped α) (draft : α)
    (named : List (String × Json)) : Json.Shaped α :=
  named.foldlM (fun read field => withField read field.1 field.2) draft

/-- Read the members of an object as an item of some type. -/
def ofMembers (members : List (String × Json)) : Kind → Json.Shaped Item
  | .group =>
      (readFields GroupDraft.withField .empty members).bind
        (GroupDraft.complete (.missingField "level"))
  | .interval =>
      (readFields IntervalDraft.withField .empty members).bind
        (IntervalDraft.complete (.missingField "categoryName"))

/-- Refuse more elements than there are fields. -/
def checkCount (declared : List String) (elements : List Json) (item : Item) : Json.Shaped Item :=
  if elements.length ≤ declared.length then .ok item
  else .error (.wrongLength elements.length
    (String.ofList (Text.digitsOf declared.length) ++ " elements in sequence"))

/-- Read the elements after the row type as an item of some type. -/
def ofElements (elements : List Json) : Kind → Json.Shaped Item
  | .group =>
      ((readFields GroupDraft.withField .empty (GroupDraft.declared.zip elements)).bind
        (GroupDraft.complete
          (.wrongLength 0 "struct variant ItemJson::Group with 2 elements"))).bind
        (checkCount GroupDraft.declared elements)
  | .interval =>
      ((readFields IntervalDraft.withField .empty (IntervalDraft.declared.zip elements)).bind
        (IntervalDraft.complete
          (.wrongLength 2 "struct IntervalJson with 6 elements"))).bind
        (checkCount IntervalDraft.declared elements)

/-- Read an item.  The row type comes before everything else. -/
def ofJson : Json → Json.Shaped Item
  | .object members => match Json.member? kindKey members with
      | some kind => (kindOf kind).bind (ofMembers members)
      | none => .error (.missingField kindKey)
  | .array [] => .error (.missingField kindKey)
  | .array (kind :: elements) => (kindOf kind).bind (ofElements elements)
  | other => .error (.wrongType other "internally tagged enum ItemJson")

variable {σ φ : Type} [IntervalSettings σ]

/-- The settings of an interval item, as its category reads them. -/
def settingsIn (category : Category σ φ) : Option Json → σ × Option Note
  | none | some .null => (category.defaultSettings, none)
  | some content => match category.settingsOfJson content with
      | .ok settings => (settings, none)
      | .error cause => (category.defaultSettings, some (.defaultSettings cause))

/-- What an item of the right shape contributes. -/
def contribution (registry : Registry σ φ) : Item → Contribution σ
  | group level name => .ofGroup level name
  | interval fields => match registry.category? fields.categoryName with
      | none => .skipped (.unregistered fields.categoryName)
      | some category =>
          let settings := settingsIn category fields.settings?
          ⟨some (.interval ⟨fields.duration, fields.task, category.name, fields.featureType,
            fields.arguments, settings.1⟩), settings.2⟩

def read (registry : Registry σ φ) (item : Json) : Contribution σ :=
  match ofJson item with
  | .ok shaped => shaped.contribution registry
  | .error cause => .skipped (.malformed cause)

/-- The name of a plan, which is empty when the member is no string. -/
def nameOf (members : List (String × Json)) : String :=
  match Json.member? "name" members with
  | some (.string name) => name
  | _ => ""

/-- Read the plan in a JSON value. -/
def readDocument (registry : Registry σ φ) : Json → Except FormatError (Report σ)
  | .object members => match Json.member? "items" members with
      | some (.array items) =>
          .ok (.ofPieces (nameOf members) .item 0 (read registry) items)
      | _ => .error .missingItems
  | _ => .error .notAnObject

def readPlan (registry : Registry σ φ) (text : String) : Except FormatError (Report σ) :=
  ((Json.ofText text).mapError .invalidJson).bind (readDocument registry)

/-! ## Writing -/

def ofRow : Row σ → Item
  | .group row => group row.level row.name
  | .interval row =>
      interval ⟨row.duration, row.task, row.categoryName, row.featureType, row.arguments,
        IntervalSettings.json? row.settings⟩

/-- Write an item.  Settings are left out when they are the default. -/
def toJson : Item → Json
  | group level name =>
      .object [(kindKey, .string "group"), ("level", .integer level.toNat), ("name", .string name)]
  | interval fields =>
      .object ([(kindKey, .string "interval"), ("duration", .string fields.duration),
          ("task", .string fields.task), ("categoryName", .string fields.categoryName),
          ("featureTypeName", .string fields.featureType),
          ("featureArgsList", .array (fields.arguments.map .string))] ++
        match fields.settings? with
        | some settings => [("intervalSettings", settings)]
        | none => [])

/-- The JSON value of a plan. -/
def documentOf (plan : Plan σ) : Json :=
  .object [("name", .string plan.name),
    ("items", .array (plan.rows.map fun row => (ofRow row).toJson))]

def writePlan (plan : Plan σ) : String :=
  (documentOf plan).indented

end Item
end Notation
end PracticePlan
