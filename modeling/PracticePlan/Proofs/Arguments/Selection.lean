import PracticePlan.Proofs.Arguments.Values
import PracticePlan.Proofs.Text.Cutting

namespace PracticePlan
namespace ArgSpec

/-!
# What texts select

A toggle set is read from its texts by way of tokens.  What comes out can be
said without them.  A text selects the label that it is, apart from blanks
around it.  A text that stands alone may also be the old spelling, and then it
selects the labels between its hyphens.  The selection consists of the selected
labels in the order of the schema (`selectionOf_eq_iff`).

The labels must be distinct and have no hyphen.  A schema that passes its check
has no hyphen in its labels, and all tables of the catalog are distinct.
-/

/-- Whether texts select a label. -/
inductive IsSelected (texts : List String) (label : String) : Prop
  | token {text : String} (given : text ∈ texts) (same : Text.trimmed text = label)
  | part {single : String} {piece : List Char} (only : texts = [single])
      (between : piece ∈ Text.pieces '-' single.toList) (same : Text.trim piece = label.toList)

/-- Whether a list holds exactly the selected labels, in their order. -/
structure IsSelection (labels texts selected : List String) : Prop where
  ordered : selected.Sublist labels
  mem_iff : ∀ label ∈ labels, label ∈ selected ↔ IsSelected texts label

/-- A hyphen in a text is still there when the blanks around the text are gone. -/
theorem hyphen_mem_trimmed {text : String} (hyphenated : '-' ∈ text.toList) :
    '-' ∈ (Text.trimmed text).toList := by
  rw [Text.trimmed, String.toList_ofList]
  exact Text.mem_trim_of_mem hyphenated (by decide)

/-- The tokens hold a label exactly when the texts select it. -/
theorem mem_tokensOf_iff {texts : List String} {label : String} (plain : '-' ∉ label.toList) :
    label ∈ tokensOf texts ↔ IsSelected texts label := by
  constructor
  · intro member
    unfold tokensOf at member
    split at member
    · next single =>
        split at member
        · rcases List.mem_map.mp member with ⟨piece, between, same⟩
          refine .part rfl between ?_
          rw [← same, String.toList_ofList]
        · exact .token List.mem_cons_self (List.mem_singleton.mp member).symm
    · rcases List.mem_map.mp member with ⟨text, given, same⟩
      exact .token given same
  · intro selected
    cases selected with
    | part only between same =>
        next single piece =>
          subst only
          rw [tokensOf]
          split
          · refine List.mem_map.mpr ⟨piece, between, ?_⟩
            rw [same, String.ofList_toList]
          · next unhyphenated =>
              have absent : '-' ∉ single.toList := by simpa using unhyphenated
              rw [Text.pieces_of_not_mem absent, List.mem_singleton] at between
              rw [List.mem_singleton, Text.trimmed, ← between, same, String.ofList_toList]
    | token given same =>
        next text =>
          unfold tokensOf
          split
          · rw [List.mem_singleton] at given
            subst given
            have absent : '-' ∉ text.toList := fun hyphenated =>
              plain (same ▸ hyphen_mem_trimmed hyphenated)
            rw [if_neg (by simpa using absent), List.mem_singleton]
            exact same.symm
          · exact List.mem_map.mpr ⟨text, given, same⟩

/-- Reading a toggle set gives the selected labels in the order of the schema. -/
theorem selectionOf_eq_iff {spec : ArgSpec} {texts selected : List String}
    (distinct : spec.labels.Nodup) (plain : ∀ label ∈ spec.labels, '-' ∉ label.toList) :
    spec.selectionOf texts = selected ↔ IsSelection spec.labels texts selected := by
  unfold selectionOf
  constructor
  · rintro rfl
    refine ⟨List.filter_sublist, fun label known => ?_⟩
    rw [← mem_tokensOf_iff (plain label known), List.mem_filter, List.contains_iff_mem]
    exact and_iff_right known
  · rintro ⟨ordered, agrees⟩
    refine Eq.trans (List.filter_congr fun label known => ?_)
      (filter_contains_of_sublist distinct ordered)
    rw [Bool.eq_iff_iff, List.contains_iff_mem, List.contains_iff_mem, agrees label known]
    exact mem_tokensOf_iff (plain label known)

end ArgSpec

namespace Arguments

/-- A schema has a place for every text exactly when one of its arguments takes
all that follow, or there are no more texts than arguments. -/
theorem checkArity_eq_ok_iff {schema : Schema} {texts : List String} :
    checkArity schema texts = .ok () ↔
      Schema.hasVariadic schema = true ∨ texts.length ≤ Schema.singleSlots schema := by
  unfold checkArity
  cases Schema.hasVariadic schema with
  | true => simp
  | false =>
      by_cases fits : texts.length ≤ Schema.singleSlots schema
      · simp [fits]
      · simp [fits]

end Arguments
end PracticePlan
