import PracticePlan.Number.Binary64

namespace PracticePlan

/-!
# JSON values

Integers and floating point numbers are different values, since messages and
typed readers tell them apart.  The members of an object are kept as a list in
the order in which they are written.  A value that was read has its members
sorted by key, each key once.  `member?_withMember_self` and
`member?_withMember_of_ne` say what adding a member does to the look-up.

Equality of values compares floating point numbers numerically, so the two
zeros are equal and a number never equals an integer.
-/

/-- A JSON value. -/
inductive Json where
  | null
  | boolean (value : Bool)
  | integer (value : Int)
  | float (value : Binary64)
  | string (text : String)
  | array (elements : List Json)
  | object (members : List (String × Json))

namespace Json

instance : Inhabited Json :=
  ⟨null⟩

/-- The value of a key among the members of an object. -/
def member? (key : String) : List (String × Json) → Option Json
  | [] => none
  | (name, value) :: rest => if name = key then some value else member? key rest

/-- The value of a key, when the value is an object that has it. -/
def get? (key : String) : Json → Option Json
  | object members => member? key members
  | _ => none

/-- Add a member to members sorted by key.  A member with the same key is
replaced. -/
def withMember (key : String) (value : Json) : List (String × Json) → List (String × Json)
  | [] => [(key, value)]
  | (name, old) :: rest =>
      if key < name then (key, value) :: (name, old) :: rest
      else if key = name then (key, value) :: rest
      else (name, old) :: withMember key value rest

theorem member?_withMember_self (key : String) (value : Json) (members : List (String × Json)) :
    member? key (withMember key value members) = some value := by
  induction members with
  | nil => simp [withMember, member?]
  | cons member rest inductionHypothesis =>
      obtain ⟨name, old⟩ := member
      unfold withMember
      split
      · simp [member?]
      · split
        · simp [member?]
        · next different => simp [member?, Ne.symm different, inductionHypothesis]

theorem member?_withMember_of_ne {key other : String} (value : Json)
    (members : List (String × Json)) (different : other ≠ key) :
    member? key (withMember other value members) = member? key members := by
  induction members with
  | nil => simp [withMember, member?, different]
  | cons member rest inductionHypothesis =>
      obtain ⟨name, old⟩ := member
      unfold withMember
      split
      · simp [member?, different]
      · split
        · next same => subst same; simp [member?, different]
        · simp [member?, inductionHypothesis]

mutual

/-- Equality of values, numerical on floating point numbers. -/
def same : Json → Json → Bool
  | null, null => true
  | boolean first, boolean second => first == second
  | integer first, integer second => first == second
  | float first, float second => first.same second
  | string first, string second => first == second
  | array first, array second => sameElements first second
  | object first, object second => sameMembers first second
  | _, _ => false

/-- Equality of the elements of two arrays, place by place. -/
def sameElements : List Json → List Json → Bool
  | [], [] => true
  | first :: firsts, second :: seconds => same first second && sameElements firsts seconds
  | _, _ => false

/-- Equality of the members of two objects, place by place. -/
def sameMembers : List (String × Json) → List (String × Json) → Bool
  | [], [] => true
  | (key, first) :: firsts, (name, second) :: seconds =>
      key == name && same first second && sameMembers firsts seconds
  | _, _ => false

end

def sameOption : Option Json → Option Json → Bool
  | none, none => true
  | some first, some second => same first second
  | _, _ => false

end Json
end PracticePlan
