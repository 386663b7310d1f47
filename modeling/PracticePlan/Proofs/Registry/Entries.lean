import Mathlib.Data.List.Induction
import Mathlib.Data.List.Nodup
import PracticePlan.Named

namespace PracticePlan
namespace Named

/-!
# Entries put one after the other

A list that starts empty and has entries put into it one after the other
remembers two things of them.  A name finds the last entry that was put under
it (`find?_replaceAll`), and the names are listed in the order in which each was
put first (`names_replaceAll`), so that none is listed twice.
-/

variable {α : Type} {nameOf : α → String}

/-- The last entry with a name. -/
def last? (nameOf : α → String) (name : String) (entries : List α) : Option α :=
  find? nameOf name entries.reverse

/-- Put entries into a list, one after the other. -/
def replaceAll (nameOf : α → String) (entries known : List α) : List α :=
  entries.foldl (fun listed entry => replace nameOf entry listed) known

theorem last?_cons (entry : α) (entries : List α) (name : String) :
    last? nameOf name (entry :: entries) =
      (last? nameOf name entries).or (if nameOf entry = name then some entry else none) := by
  rw [last?, find?, List.reverse_cons, List.find?_append]
  congr 1
  by_cases same : nameOf entry = name
  · rw [if_pos same, List.find?_cons_of_pos (by simpa using same)]
  · rw [if_neg same, List.find?_cons_of_neg (by simpa using same), List.find?_nil]

theorem mem_of_last? {name : String} {entries : List α} {entry : α}
    (last : last? nameOf name entries = some entry) : entry ∈ entries :=
  List.mem_reverse.mp (List.mem_of_find?_eq_some last)

/-- A name finds the last entry put under it, and what was there before if there is none. -/
theorem find?_replaceAll_append (entries known : List α) (name : String) :
    find? nameOf name (replaceAll nameOf entries known) =
      (last? nameOf name entries).or (find? nameOf name known) := by
  induction entries generalizing known with
  | nil => rfl
  | cons entry rest inductionHypothesis =>
      rw [replaceAll, List.foldl_cons, ← replaceAll, inductionHypothesis, last?_cons,
        Option.or_assoc]
      congr 1
      by_cases same : nameOf entry = name
      · rw [if_pos same, ← same, find?_replace_self, Option.some_or]
      · rw [if_neg same, find?_replace_of_ne nameOf entry known same, Option.none_or]

theorem find?_replaceAll (entries : List α) (name : String) :
    find? nameOf name (replaceAll nameOf entries []) = last? nameOf name entries := by
  rw [find?_replaceAll_append, find?, List.find?_nil, Option.or_none]

/-- The names are listed in the order in which each was put first. -/
theorem names_replaceAll (entries : List α) :
    (replaceAll nameOf entries []).map nameOf = (entries.map nameOf).eraseDups := by
  induction entries using List.reverseRecOn with
  | nil => rfl
  | append_singleton front entry inductionHypothesis =>
      have added : [nameOf entry].removeAll (front.map nameOf) =
          if nameOf entry ∈ front.map nameOf then [] else [nameOf entry] := by
        rw [List.removeAll, List.filter_singleton]
        by_cases known : nameOf entry ∈ front.map nameOf
        · rw [if_pos known, List.elem_eq_true_of_mem known]
          rfl
        · rw [if_neg known, Bool.eq_false_iff.mpr (mt List.mem_of_elem_eq_true known)]
          rfl
      rw [replaceAll, List.foldl_append, List.foldl_cons, List.foldl_nil, ← replaceAll,
        names_replace, inductionHypothesis, List.map_append, List.map_singleton,
        List.eraseDups_append, added]
      by_cases known : nameOf entry ∈ front.map nameOf
      · rw [if_pos (List.mem_eraseDups.mpr known), if_pos known, List.eraseDups_nil,
          List.append_nil]
      · rw [if_neg (mt List.mem_eraseDups.mp known), if_neg known]
        rfl

theorem nodup_names_replace {entry : α} {entries : List α}
    (distinct : (entries.map nameOf).Nodup) :
    ((replace nameOf entry entries).map nameOf).Nodup := by
  rw [names_replace]
  split
  · exact distinct
  · next fresh =>
      rw [← List.concat_eq_append]
      exact distinct.concat fresh

theorem nodup_names_replaceAll (entries : List α) :
    ((replaceAll nameOf entries []).map nameOf).Nodup := by
  induction entries using List.reverseRecOn with
  | nil => exact List.nodup_nil
  | append_singleton front entry inductionHypothesis =>
      rw [replaceAll, List.foldl_append]
      exact nodup_names_replace inductionHypothesis

/-- Among distinct names every entry is found under its own. -/
theorem find?_of_mem {entries : List α} (distinct : (entries.map nameOf).Nodup) {entry : α}
    (member : entry ∈ entries) : find? nameOf (nameOf entry) entries = some entry := by
  cases found : find? nameOf (nameOf entry) entries with
  | none =>
      have absent := List.find?_eq_none.mp found entry member
      exact absurd (decide_eq_true rfl) absent
  | some other =>
      have listed : other ∈ entries := List.mem_of_find?_eq_some found
      rw [List.inj_on_of_nodup_map distinct listed member (nameOf_of_find? found)]

end Named
end PracticePlan
