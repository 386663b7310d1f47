import PracticePlan.Json.PassOver

namespace PracticePlan

/-!
# Configuration

The configuration is a JSON object with three members, all of which may be
missing, or an array of at most three elements in their order.

It is read in one pass over the tokens, so of several mistakes the first in the
text counts.  A member that is named twice is a mistake, at its second name.
Members with other names are passed over.  A text that is no JSON is told apart
from JSON of another shape, as long as the first mistake shows it.
-/

/-- How the program is set up. -/
structure Config where
  defaultCategory : String
  maxTotalMinutes : UInt32
  storeFolder : Option String
deriving DecidableEq, Repr

/-- Why a text is not a configuration. -/
inductive ConfigFault where
  | json (fault : Json.Fault)
  | shape
deriving DecidableEq, Repr

namespace Config

/-- The configuration for which nothing has been set. -/
def standard : Config :=
  ⟨"Guitar", 180, none⟩

/-- The members. -/
inductive Member where
  | defaultCategory
  | maxTotalMinutes
  | storeFolder
deriving DecidableEq, Repr

namespace Member

/-- The members in the order of their elements, with their names. -/
def named : List (String × Member) :=
  [("default_category", .defaultCategory), ("max_total_minutes", .maxTotalMinutes),
   ("store_dir", .storeFolder)]

/-- The member at a place in an array. -/
def atPlace? (place : Nat) : Option Member :=
  (named[place]?).map Prod.snd

end Member

/-- What may come next. -/
inductive Expected where
  | start
  | firstKey
  | key
  | colon (member : Option Member)
  | value (member : Member)
  | passing (state : Json.PassOver.State)
  | comma
  | firstElement
  | element (member : Member)
  | elementComma (place : Nat)
  | nothing
deriving DecidableEq, Repr

/-- What has been read. -/
structure Progress where
  config : Config
  seen : List Member
  expected : Expected
deriving DecidableEq, Repr

def begun : Progress :=
  ⟨standard, [], .start⟩

/-- A token that may not stand where it does. -/
def misplaced {α : Type} : Except ConfigFault α :=
  .error (.json .malformed)

/-- The scalar or string of a token, which is misplaced if it is neither. -/
def scalarOf : Json.Token → Except ConfigFault Json
  | .string read _ => (read.map Json.string).mapError .json
  | .scalar read _ => read.mapError .json
  | .openArray | .openObject => .error .shape
  | _ => misplaced

/-- Set a member to a value of its shape. -/
def set (config : Config) : Member → Json → Except ConfigFault Config
  | .defaultCategory, .string category => .ok { config with defaultCategory := category }
  | .maxTotalMinutes, .integer minutes =>
      if 0 ≤ minutes ∧ minutes < 0x100000000 then
        .ok { config with maxTotalMinutes := UInt32.ofNat minutes.toNat }
      else .error .shape
  | .storeFolder, .null => .ok { config with storeFolder := none }
  | .storeFolder, .string folder => .ok { config with storeFolder := some folder }
  | _, _ => .error .shape

namespace Progress

def awaiting (progress : Progress) (expected : Expected) : Except ConfigFault Progress :=
  .ok { progress with expected }

def readValue (progress : Progress) (member : Member) (token : Json.Token) (expected : Expected) :
    Except ConfigFault Progress :=
  (scalarOf token).bind fun value =>
    (progress.config.set member value).map fun config => { progress with config, expected }

def readStart (progress : Progress) : Json.Token → Except ConfigFault Progress
  | .openObject => progress.awaiting .firstKey
  | .openArray => progress.awaiting .firstElement
  | token => (scalarOf token).bind fun _ => .error .shape

def readKey (progress : Progress) : Json.Token → Except ConfigFault Progress
  | .string read _ => (read.mapError .json).bind fun key =>
      match Member.named.lookup key with
      | some member =>
          if member ∈ progress.seen then .error .shape
          else .ok { progress with
            seen := member :: progress.seen
            expected := .colon (some member) }
      | none => progress.awaiting (.colon none)
  | _ => misplaced

/-- Pass over a token of a value that is not wanted. -/
def pass (progress : Progress) (state : Json.PassOver.State) (token : Json.Token) :
    Except ConfigFault Progress :=
  ((Json.PassOver.step state token).mapError .json).bind fun next => match next with
    | some state => progress.awaiting (.passing state)
    | none => progress.awaiting .comma

def readElement (progress : Progress) (member : Member) (token : Json.Token) :
    Except ConfigFault Progress :=
  progress.readValue member token (.elementComma (progress.seen.length + 1)) |>.map fun read =>
    { read with seen := member :: read.seen }

def step (progress : Progress) (token : Json.Token) : Except ConfigFault Progress :=
  match progress.expected, token with
  | .start, _ => progress.readStart token
  | .firstKey, .closeObject => progress.awaiting .nothing
  | .firstKey, _ => progress.readKey token
  | .key, _ => progress.readKey token
  | .colon (some member), .colon => progress.awaiting (.value member)
  | .colon none, .colon => progress.awaiting (.passing Json.PassOver.initial)
  | .colon _, _ => misplaced
  | .value member, _ => progress.readValue member token .comma
  | .passing state, _ => progress.pass state token
  | .comma, .comma => progress.awaiting .key
  | .comma, .closeObject => progress.awaiting .nothing
  | .comma, _ => misplaced
  | .firstElement, .closeArray => progress.awaiting .nothing
  | .firstElement, _ => progress.readElement .defaultCategory token
  | .element member, _ => progress.readElement member token
  | .elementComma _, .closeArray => progress.awaiting .nothing
  | .elementComma place, .comma => match Member.atPlace? place with
      | some member => progress.awaiting (.element member)
      | none => misplaced
  | .elementComma _, _ => misplaced
  | .nothing, _ => misplaced

end Progress

def ofText (text : String) : Except ConfigFault Config :=
  ((Json.Token.ofText text.toList).foldlM Progress.step begun).bind fun progress =>
    match progress.expected with
    | .nothing => .ok progress.config
    | _ => .error (.json .endOfText)

end Config
end PracticePlan
