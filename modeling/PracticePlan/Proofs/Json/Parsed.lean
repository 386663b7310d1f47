import PracticePlan.Proofs.Json.ReadBack
import PracticePlan.Proofs.Number.Rounding
import PracticePlan.Proofs.Outcome

namespace PracticePlan
namespace Json

/-!
# Values that are read from texts

Not every JSON value can be read from a text.  The reader sorts the members of
an object by key and keeps each key once, it makes no integer that does not fit
64 bits, and it gives up when too many arrays and objects are open.  `IsParsed`
says the same of a value that stands inside some of them, and the reader makes
no other values (`isParsed_of_ofText`).

Whatever is read is therefore in its ordered form already
(`IsParsed.ordered_eq`), it equals itself (`IsParsed.same_self`), and without
floating point numbers it is legible where it stands (`IsParsed.legible`), so that
it can be printed and read again.
-/

/-- The keys of the members ascend, so each of them occurs once. -/
def AreSorted (members : List (String × Json)) : Prop :=
  (members.map Prod.fst).Pairwise (· < ·)

/-- A value as it is read when `depth` arrays and objects are open around it. -/
inductive IsParsed : Nat → Json → Prop
  | null (depth : Nat) : IsParsed depth .null
  | boolean (depth : Nat) (value : Bool) : IsParsed depth (.boolean value)
  | integer (depth : Nat) {value : Int} (least : -0x8000000000000000 ≤ value)
      (most : value < 0x10000000000000000) : IsParsed depth (.integer value)
  | float (depth : Nat) {value : Binary64} (isNumber : value.isNaN = false) :
      IsParsed depth (.float value)
  | string (depth : Nat) (text : String) : IsParsed depth (.string text)
  | array {depth : Nat} {elements : List Json} (shallow : depth < Reader.deepest)
      (each : ∀ element ∈ elements, IsParsed (depth + 1) element) : IsParsed depth (.array elements)
  | object {depth : Nat} {members : List (String × Json)} (shallow : depth < Reader.deepest)
      (sorted : AreSorted members) (each : ∀ member ∈ members, IsParsed (depth + 1) member.2) :
      IsParsed depth (.object members)

/-! ## Numbers -/

theorem gather_lt {value : Nat} (small : value < 0x10000000000000000) (digits : List Char) :
    (gather value digits).1 < 0x10000000000000000 := by
  induction digits generalizing value with
  | nil => exact small
  | cons c rest inductionHypothesis =>
      rw [gather]
      split
      · next fits => exact inductionHypothesis fits
      · exact small

theorem isParsed_integerValue (depth : Nat) (negative : Bool) {word : Nat}
    (small : word < 0x10000000000000000) :
    IsParsed depth (NumberText.integerValue negative word) := by
  unfold NumberText.integerValue
  split
  · exact .integer depth (by omega) (by omega)
  · split
    · exact .float depth (Binary64.isNaN_ofQuotient true word 1)
    · next fits => exact .integer depth (by omega) (by omega)

theorem isNaN_scaledDown {number : Binary64} (isNumber : number.isNaN = false) (places : Nat) :
    (scaledDown number places).isNaN = false := by
  fun_induction scaledDown number places with
  | case1 number places small => exact Binary64.isNaN_ofQuotient _ _ _
  | case2 number places large zero => exact isNumber
  | case3 number places large nonzero inductionHypothesis =>
      exact inductionHypothesis (Binary64.isNaN_ofQuotient _ _ _)

theorem isNaN_of_scaledUp? {number scaled : Binary64} (isNumber : number.isNaN = false)
    {places : Nat} (read : scaledUp? number places = some scaled) : scaled.isNaN = false := by
  unfold scaledUp? at read
  dsimp only at read
  split at read
  · split at read
    · rcases Option.some.inj read with rfl
      exact Binary64.isNaN_ofQuotient _ _ _
    · cases read
  · split at read
    · rcases Option.some.inj read with rfl
      exact isNumber
    · cases read

theorem isNaN_of_scaledWord? {negative : Bool} {word : Nat} {exponent : Int} {number : Binary64}
    (read : scaledWord? negative word exponent = some number) : number.isNaN = false := by
  have rounded := Binary64.isNaN_ofQuotient negative word 1
  unfold scaledWord? at read
  dsimp only at read
  split at read
  · exact isNaN_of_scaledUp? rounded read
  · rcases Option.some.inj read with rfl
    exact isNaN_scaledDown rounded _

theorem isParsed_of_value? {text : NumberText} {value : Json} (read : text.value? = some value)
    (depth : Nat) : IsParsed depth value := by
  unfold NumberText.value? at read
  dsimp only at read
  split at read
  · rcases Option.some.inj read with rfl
    exact isParsed_integerValue depth text.negative (gather_lt (by decide) text.whole)
  · rcases Option.map_eq_some_iff.mp read with ⟨number, scaled, rfl⟩
    exact .float depth (isNaN_of_scaledWord? scaled)

/-! ## Tokens -/

namespace Token

/-- The value of a scalar, if it has one, may stand anywhere. -/
def IsSound : Token → Prop
  | .scalar (.ok value) _ => ∀ depth, IsParsed depth value
  | _ => True

/-- The value of the word that is being read may stand anywhere. -/
def State.IsSound : State → Prop
  | .inWord _ value => ∀ depth, IsParsed depth value
  | _ => True

/-- Sound tokens and a sound state after them. -/
structure AreSound (outcome : List Token × State) : Prop where
  tokens : ∀ token ∈ outcome.1, token.IsSound
  state : outcome.2.IsSound

theorem areSound_nil {state : State} (sound : state.IsSound) : AreSound ([], state) :=
  ⟨fun _ member => absurd member List.not_mem_nil, sound⟩

theorem areSound_singleton {token : Token} {state : State} (first : token.IsSound)
    (sound : state.IsSound) : AreSound ([token], state) :=
  ⟨List.forall_mem_singleton.mpr first, sound⟩

theorem isSound_ofNumber (text : NumberText) : (ofNumber text).IsSound := by
  unfold ofNumber
  split
  · next read => exact isParsed_of_value? read
  · trivial

theorem areSound_start (c : Char) : AreSound (start c) := by
  unfold start
  split
  · exact areSound_singleton trivial trivial
  · exact areSound_singleton trivial trivial
  · exact areSound_singleton trivial trivial
  · exact areSound_singleton trivial trivial
  · exact areSound_singleton trivial trivial
  · exact areSound_singleton trivial trivial
  · exact areSound_nil trivial
  · exact areSound_nil .null
  · exact areSound_nil fun depth => .boolean depth true
  · exact areSound_nil fun depth => .boolean depth false
  · exact areSound_nil trivial
  · split
    · exact areSound_nil trivial
    split
    · exact areSound_nil trivial
    split
    · exact areSound_nil trivial
    · exact areSound_singleton trivial trivial

theorem areSound_stepPlain (content : Except Fault (List Char)) (c : Char) :
    AreSound (stepPlain content c) := by
  unfold stepPlain
  split
  · exact areSound_singleton trivial trivial
  split
  · exact areSound_nil trivial
  split
  · exact areSound_singleton trivial trivial
  · exact areSound_nil trivial

theorem areSound_stepBackslash (content : Except Fault (List Char)) (c : Char) :
    AreSound (stepBackslash content c) := by
  unfold stepBackslash
  split
  · exact areSound_nil trivial
  split
  · exact areSound_nil trivial
  · exact areSound_singleton trivial trivial

theorem isSound_endHex (content : Except Fault (List Char)) (pending : Option Nat) (value : Nat) :
    (endHex content pending value).IsSound := by
  unfold endHex
  dsimp only
  split
  · split <;> trivial
  · split
    · trivial
    · split <;> trivial

theorem areSound_stepHex (content : Except Fault (List Char)) (pending : Option Nat)
    (count value : Nat) (c : Char) : AreSound (stepHex content pending count value c) := by
  unfold stepHex
  split
  · split
    · exact areSound_nil (isSound_endHex content pending _)
    · exact areSound_nil trivial
  · dsimp only
    split
    · exact areSound_singleton trivial trivial
    · exact areSound_nil trivial

theorem areSound_stepString (content : Except Fault (List Char)) (escape : Escape) (c : Char) :
    AreSound (stepString content escape c) := by
  cases escape with
  | none => exact areSound_stepPlain content c
  | leading unit =>
      rw [stepString]
      split
      · exact areSound_nil trivial
      · exact areSound_stepPlain _ c
  | backslash pending =>
      cases pending with
      | none => exact areSound_stepBackslash content c
      | some unit =>
          rw [stepString]
          split
          · exact areSound_nil trivial
          · exact areSound_stepBackslash _ c
  | hex pending count value => exact areSound_stepHex content pending count value c
  | spoiled missing =>
      rw [stepString]
      split
      · exact areSound_singleton trivial trivial
      · exact areSound_nil trivial

theorem isSound_of_extend? {phase : NumberPhase} {text : NumberText} {c : Char} {state : State}
    (extended : extend? phase text c = some state) : state.IsSound := by
  cases phase <;> grind [extend?, State.IsSound]

theorem areSound_stepNumber (phase : NumberPhase) (text : NumberText) (c : Char) :
    AreSound (stepNumber phase text c) := by
  unfold stepNumber
  split
  · next extended => exact areSound_nil (isSound_of_extend? extended)
  · split
    · have next := areSound_start c
      exact ⟨List.forall_mem_cons.mpr ⟨isSound_ofNumber text, next.tokens⟩, next.state⟩
    · exact areSound_singleton trivial trivial

theorem areSound_stepWord {value : Json} (sound : ∀ depth, IsParsed depth value)
    (rest : List Char) (c : Char) : AreSound (stepWord rest value c) := by
  unfold stepWord
  split
  · split
    · exact areSound_singleton sound trivial
    · exact areSound_singleton trivial trivial
  · split
    · exact areSound_nil sound
    · exact areSound_singleton trivial trivial
  · exact areSound_singleton trivial trivial

theorem areSound_step {state : State} (sound : state.IsSound) (c : Char) :
    AreSound (step state c) := by
  cases state with
  | between => exact areSound_start c
  | inString content escape => exact areSound_stepString content escape c
  | inWord rest value => exact areSound_stepWord sound rest c
  | inNumber phase text => exact areSound_stepNumber phase text c
  | stopped => exact areSound_nil trivial

theorem isSound_of_mem_finish {state : State} {token : Token} (member : token ∈ finish state) :
    token.IsSound := by
  unfold finish at member
  split at member
  · cases member
  · cases member
  · rw [List.mem_singleton.mp member]
    trivial
  · rw [List.mem_singleton.mp member]
    trivial
  · split at member
    · rw [List.mem_singleton.mp member]
      exact isSound_ofNumber _
    · rw [List.mem_singleton.mp member]
      trivial

/-- Every token that a text is cut into is sound. -/
theorem isSound_of_mem_scan {state : State} (sound : state.IsSound) {text : List Char}
    {token : Token} (member : token ∈ scan state text) : token.IsSound := by
  induction text generalizing state with
  | nil => exact isSound_of_mem_finish member
  | cons c rest inductionHypothesis =>
      have here := areSound_step sound c
      rw [scan_cons, List.mem_append] at member
      exact member.elim (here.tokens token) (inductionHypothesis here.state)

end Token

/-! ## Members -/

theorem mem_of_member? {key : String} {value : Json} {members : List (String × Json)}
    (found : member? key members = some value) : (key, value) ∈ members := by
  induction members with
  | nil => cases found
  | cons first rest inductionHypothesis =>
      unfold member? at found
      split at found
      · next same =>
          rw [← same, ← Option.some.inj found]
          exact List.mem_cons_self
      · exact List.mem_cons_of_mem first (inductionHypothesis found)

theorem mem_of_mem_withMember {key : String} {value : Json} {members : List (String × Json)}
    {member : String × Json} (inside : member ∈ withMember key value members) :
    member = (key, value) ∨ member ∈ members := by
  induction members with
  | nil => exact .inl (List.mem_singleton.mp inside)
  | cons first rest inductionHypothesis =>
      unfold withMember at inside
      split at inside
      · exact List.mem_cons.mp inside
      · split at inside
        · exact (List.mem_cons.mp inside).imp_right (List.mem_cons_of_mem first)
        · rcases List.mem_cons.mp inside with rfl | later
          · exact .inr List.mem_cons_self
          · exact (inductionHypothesis later).imp_right (List.mem_cons_of_mem first)

/-- Adding a member leaves the members sorted. -/
theorem areSorted_withMember {members : List (String × Json)} (sorted : AreSorted members)
    (key : String) (value : Json) : AreSorted (withMember key value members) := by
  unfold AreSorted at *
  induction members with
  | nil => exact List.pairwise_singleton _ key
  | cons first rest inductionHypothesis =>
      rcases first with ⟨name, old⟩
      have behind := List.pairwise_cons.mp sorted
      unfold withMember
      split
      · next before =>
          refine List.pairwise_cons.mpr ⟨List.forall_mem_cons.mpr ⟨before, ?_⟩, sorted⟩
          exact fun other member => String.lt_trans before (behind.1 other member)
      · next notBefore =>
          split
          · next same => exact same ▸ sorted
          · next different =>
              have after : name < key :=
                ((Std.Trichotomous.rel_or_eq_or_rel_swap).resolve_left notBefore).resolve_left
                  different
              refine List.pairwise_cons.mpr ⟨?_, inductionHypothesis behind.2⟩
              intro other member
              rcases List.mem_map.mp member with ⟨entry, inside, rfl⟩
              rcases mem_of_mem_withMember inside with rfl | known
              · exact after
              · exact behind.1 entry.1 (List.mem_map_of_mem known)

theorem withMember_of_forall_lt {key : String} (value : Json) {members : List (String × Json)}
    (below : ∀ member ∈ members, member.1 < key) :
    withMember key value members = members ++ [(key, value)] := by
  induction members with
  | nil => rfl
  | cons first rest inductionHypothesis =>
      rcases List.forall_mem_cons.mp below with ⟨here, behind⟩
      have different : key ≠ first.1 := fun same => String.lt_irrefl _ (same ▸ here)
      rw [withMember, if_neg (String.lt_asymm here), if_neg different, inductionHypothesis behind]
      rfl

/-- Sorted members stay as they are when they are sorted again. -/
theorem orderedMembers_of_areSorted {before members : List (String × Json)}
    (sorted : AreSorted (before ++ members))
    (each : ∀ member ∈ members, ordered member.2 = member.2) :
    orderedMembers before members = before ++ members := by
  induction members generalizing before with
  | nil => exact (List.append_nil before).symm
  | cons first rest inductionHypothesis =>
      rcases first with ⟨key, value⟩
      rcases List.forall_mem_cons.mp each with ⟨here, behind⟩
      have below : ∀ member ∈ before, member.1 < key := by
        intro member inside
        rw [AreSorted, List.map_append, List.pairwise_append] at sorted
        exact sorted.2.2 _ (List.mem_map_of_mem inside) key List.mem_cons_self
      rw [orderedMembers, here, withMember_of_forall_lt value below,
        inductionHypothesis (by rwa [List.append_assoc]) behind, List.append_assoc]
      rfl

/-! ## The reader -/

/-- What is in a frame may be there when so many frames are open. -/
def Frame.IsSound (depth : Nat) : Frame → Prop
  | .array elements => ∀ element ∈ elements, IsParsed depth element
  | .object members _ => AreSorted members ∧ ∀ member ∈ members, IsParsed depth member.2

theorem Frame.isSound_array (depth : Nat) : (Frame.array []).IsSound depth :=
  fun _ member => absurd member List.not_mem_nil

theorem Frame.isSound_object (depth : Nat) (key : String) : (Frame.object [] key).IsSound depth :=
  ⟨List.Pairwise.nil, fun _ member => absurd member List.not_mem_nil⟩

/-- Frames that may be open one inside the other. -/
def AreOpen : List Frame → Prop
  | [] => True
  | frame :: outer =>
      outer.length < Reader.deepest ∧ frame.IsSound (outer.length + 1) ∧ AreOpen outer

namespace Reader

/-- What has been read so far can be part of what is read in the end. -/
structure State.IsSound (state : State) : Prop where
  stack : AreOpen state.stack
  value : ∀ value, state.expected = .nothing value → IsParsed 0 value

theorem isSound_initial : initial.IsSound :=
  ⟨trivial, nofun⟩

theorem isSound_complete {stack : List Frame} {value : Json} (opened : AreOpen stack)
    (parsed : IsParsed stack.length value) : (complete stack value).IsSound := by
  cases stack with
  | nil =>
      refine ⟨trivial, fun other known => ?_⟩
      cases known
      exact parsed
  | cons frame outer =>
      rcases opened with ⟨shallow, sound, around⟩
      cases frame with
      | array elements =>
          exact ⟨⟨shallow, List.forall_mem_cons.mpr ⟨parsed, sound⟩, around⟩, nofun⟩
      | object members key =>
          refine ⟨⟨shallow, ⟨areSorted_withMember sound.1 key value, ?_⟩, around⟩, nofun⟩
          intro member inside
          rcases mem_of_mem_withMember inside with rfl | known
          · exact parsed
          · exact sound.2 member known

theorem isSound_of_enter {stack : List Frame} {frame : Frame} {expected : Expected} {next : State}
    (entered : enter stack frame expected = .ok next) (opened : AreOpen stack)
    (sound : frame.IsSound (stack.length + 1)) (unfinished : ∀ value, expected ≠ .nothing value) :
    next.IsSound := by
  unfold enter at entered
  split at entered
  · next shallow =>
      rcases Except.ok.inj entered with rfl
      exact ⟨⟨shallow, sound, opened⟩, fun value known => absurd known (unfinished value)⟩
  · cases entered

theorem isSound_of_closeArray {stack : List Frame} {next : State} (opened : AreOpen stack)
    (closed : closeArray stack = .ok next) : next.IsSound := by
  unfold closeArray at closed
  split at closed
  · rcases Except.ok.inj closed with rfl
    rcases opened with ⟨shallow, sound, around⟩
    exact isSound_complete around
      (.array shallow fun element inside => sound element (List.mem_reverse.mp inside))
  · cases closed

theorem isSound_of_closeObject {stack : List Frame} {next : State} (opened : AreOpen stack)
    (closed : closeObject stack = .ok next) : next.IsSound := by
  unfold closeObject at closed
  split at closed
  · rcases Except.ok.inj closed with rfl
    rcases opened with ⟨shallow, sound, around⟩
    exact isSound_complete around (.object shallow sound.1 sound.2)
  · cases closed

theorem isSound_of_readValue {stack : List Frame} {token : Token} {next : State}
    (opened : AreOpen stack) (sound : token.IsSound) (read : readValue stack token = .ok next) :
    next.IsSound := by
  cases token with
  | string text passed =>
      rcases Except.map_eq_ok_iff.mp read with ⟨content, -, rfl⟩
      exact isSound_complete opened (.string _ content)
  | scalar value passed =>
      rcases Except.map_eq_ok_iff.mp read with ⟨content, rfl, rfl⟩
      exact isSound_complete opened (sound _)
  | openArray => exact isSound_of_enter read opened (Frame.isSound_array _) nofun
  | openObject => exact isSound_of_enter read opened (Frame.isSound_object _ _) nofun
  | _ => cases read

theorem isSound_of_readKey {stack : List Frame} {token : Token} {next : State}
    (opened : AreOpen stack) (read : readKey stack token = .ok next) : next.IsSound := by
  cases token with
  | string text passed =>
      rcases Except.bind_eq_ok_iff.mp read with ⟨key, -, placed⟩
      split at placed
      · rcases Except.ok.inj placed with rfl
        exact ⟨opened, nofun⟩
      · cases placed
  | _ => cases read

theorem isSound_of_readSeparator {stack : List Frame} {token : Token} {next : State}
    (opened : AreOpen stack) (read : readSeparator stack token = .ok next) : next.IsSound := by
  cases token with
  | comma =>
      unfold readSeparator at read
      dsimp only at read
      split at read
      · rcases Except.ok.inj read with rfl
        exact ⟨opened, nofun⟩
      · rcases Except.ok.inj read with rfl
        exact ⟨opened, nofun⟩
  | closeArray => exact isSound_of_closeArray opened read
  | closeObject => exact isSound_of_closeObject opened read
  | _ => cases read

theorem closeObject_or_readKey {stack : List Frame} {token : Token} {next : State}
    (read : step ⟨stack, .firstKey⟩ token = .ok next) :
    closeObject stack = .ok next ∨ readKey stack token = .ok next := by
  cases token with
  | closeObject => exact .inl read
  | _ => exact .inr read

/-- One token keeps the state of the reader sound. -/
theorem isSound_of_step {state next : State} {token : Token} (sound : state.IsSound)
    (isSound : token.IsSound) (read : step state token = .ok next) : next.IsSound := by
  rcases state with ⟨stack, expected⟩
  have opened : AreOpen stack := sound.stack
  cases expected with
  | value => exact isSound_of_readValue opened isSound read
  | firstElement =>
      cases token with
      | closeArray => exact isSound_of_closeArray opened read
      | _ => exact isSound_of_readValue opened isSound read
  | key => exact isSound_of_readKey opened read
  | firstKey =>
      exact (closeObject_or_readKey read).elim (isSound_of_closeObject opened)
        (isSound_of_readKey opened)
  | colon =>
      cases token with
      | colon =>
          rcases Except.ok.inj read with rfl
          exact ⟨opened, nofun⟩
      | _ => cases read
  | separator => exact isSound_of_readSeparator opened read
  | nothing value => cases read

end Reader

/-- Whatever is read from a text is a value that can be read. -/
theorem isParsed_of_ofText {text : String} {value : Json} (read : ofText text = .ok value) :
    IsParsed 0 value := by
  rcases Except.bind_eq_ok_iff.mp read with ⟨state, run, finished⟩
  have between : Token.State.IsSound .between := trivial
  have sound : state.IsSound := by
    refine Except.foldlM_preserves Reader.State.IsSound
      (fun token member before after held stepped => ?_) Reader.isSound_initial run
    exact Reader.isSound_of_step held (Token.isSound_of_mem_scan between member) stepped
  unfold Reader.finish at finished
  split at finished
  · next here =>
      rcases Except.ok.inj finished with rfl
      exact sound.value _ here
  · cases finished

/-! ## Printing what was read -/

theorem IsParsed.ordered_eq {depth : Nat} {value : Json} (parsed : IsParsed depth value) :
    value.ordered = value := by
  induction parsed with
  | array _ _ inductionHypothesis =>
      rw [ordered, orderedElements_eq_map, List.map_congr_left inductionHypothesis, List.map_id']
  | @object depth members _ sorted _ inductionHypothesis =>
      have same : orderedMembers [] members = [] ++ members :=
        orderedMembers_of_areSorted sorted inductionHypothesis
      exact congrArg Json.object same
  | _ => rfl

mutual

/-- Whether there are no floating point numbers in a value. -/
def isExact : Json → Bool
  | float _ => false
  | array elements => areExactElements elements
  | object members => areExactMembers members
  | _ => true

/-- Whether there are no floating point numbers in elements. -/
def areExactElements : List Json → Bool
  | [] => true
  | element :: rest => isExact element && areExactElements rest

/-- Whether there are no floating point numbers in the values of members. -/
def areExactMembers : List (String × Json) → Bool
  | [] => true
  | (_, value) :: rest => isExact value && areExactMembers rest

end

theorem areExactElements_iff {elements : List Json} :
    areExactElements elements = true ↔ ∀ element ∈ elements, element.isExact = true := by
  induction elements with
  | nil => exact iff_of_true rfl fun _ member => absurd member List.not_mem_nil
  | cons element rest inductionHypothesis =>
      rw [areExactElements, Bool.and_eq_true, inductionHypothesis, List.forall_mem_cons]

theorem areExactMembers_iff {members : List (String × Json)} :
    areExactMembers members = true ↔ ∀ member ∈ members, member.2.isExact = true := by
  induction members with
  | nil => exact iff_of_true rfl fun _ member => absurd member List.not_mem_nil
  | cons member rest inductionHypothesis =>
      rw [areExactMembers, Bool.and_eq_true, inductionHypothesis, List.forall_mem_cons]

theorem legibleMembers_of_forall {depth : Nat} {members : List (String × Json)}
    (legible : ∀ member ∈ members, Legible depth member.2) : LegibleMembers depth members := by
  induction members with
  | nil => trivial
  | cons member rest inductionHypothesis =>
      rcases List.forall_mem_cons.mp legible with ⟨here, behind⟩
      exact ⟨here, inductionHypothesis behind⟩

/-- An exact value can be printed where it was read. -/
theorem IsParsed.legible {depth : Nat} {value : Json} (parsed : IsParsed depth value)
    (exact : value.isExact = true) : Legible depth value := by
  induction parsed with
  | integer _ least most => exact ⟨least, most⟩
  | float depth number => cases exact
  | array shallow _ inductionHypothesis =>
      have each := areExactElements_iff.mp exact
      refine ⟨shallow, legibleElements_of_forall fun element member => ?_⟩
      exact inductionHypothesis element member (each element member)
  | object shallow _ _ inductionHypothesis =>
      have each := areExactMembers_iff.mp exact
      refine ⟨shallow, legibleMembers_of_forall fun member inside => ?_⟩
      exact inductionHypothesis member inside (each member inside)
  | _ => trivial

/-! ## Equality with itself -/

theorem sameElements_self {elements : List Json}
    (each : ∀ element ∈ elements, same element element = true) :
    sameElements elements elements = true := by
  induction elements with
  | nil => rfl
  | cons element rest inductionHypothesis =>
      rcases List.forall_mem_cons.mp each with ⟨here, behind⟩
      rw [sameElements, here, inductionHypothesis behind]
      rfl

theorem sameMembers_self {members : List (String × Json)}
    (each : ∀ member ∈ members, same member.2 member.2 = true) :
    sameMembers members members = true := by
  induction members with
  | nil => rfl
  | cons member rest inductionHypothesis =>
      rcases List.forall_mem_cons.mp each with ⟨here, behind⟩
      rw [sameMembers, here, inductionHypothesis behind, beq_self_eq_true]
      rfl

/-- What was read equals itself, since it holds no bits that are not a number. -/
theorem IsParsed.same_self {depth : Nat} {value : Json} (parsed : IsParsed depth value) :
    same value value = true := by
  induction parsed with
  | null depth => rfl
  | boolean depth value => exact beq_self_eq_true value
  | @integer depth value _ _ => exact beq_self_eq_true value
  | float depth isNumber => exact Binary64.same_self isNumber
  | string depth text => exact beq_self_eq_true text
  | array _ _ inductionHypothesis => exact sameElements_self inductionHypothesis
  | object _ _ _ inductionHypothesis => exact sameMembers_self inductionHypothesis

end Json
end PracticePlan
