namespace PracticePlan
namespace Named

/-!
# Lists of named entries

Categories, feature types, arguments and stored texts are kept in lists in
which each name occurs once and the order is that of first appearance.  An
entry put under a known name takes the place of the old one, and an entry under
a new name goes to the end.

The two statements that describe a list under such changes are
`find?_replace_self` and `find?_replace_of_ne`: the name that was put finds the
new entry, and every other name finds what it found before.  They hold of every
list, whether or not its names are distinct.  `names_replace` says what happens
to the names.  In a list of distinct names every entry is found under its name
(`value?_map`).
-/

variable {α β : Type}

/-- Put an entry in the place of the first one with its name, or at the end. -/
def replace (nameOf : α → String) (entry : α) : List α → List α
  | [] => [entry]
  | existing :: rest =>
      if nameOf existing = nameOf entry then entry :: rest
      else existing :: replace nameOf entry rest

def find? (nameOf : α → String) (name : String) (entries : List α) : Option α :=
  entries.find? fun entry => nameOf entry = name

/-- Give a name a value in a list of names with values. -/
def put (name : String) (value : β) (entries : List (String × β)) : List (String × β) :=
  replace Prod.fst (name, value) entries

def value? (name : String) (entries : List (String × β)) : Option β :=
  (find? Prod.fst name entries).map Prod.snd

theorem find?_replace_self (nameOf : α → String) (entry : α) (entries : List α) :
    find? nameOf (nameOf entry) (replace nameOf entry entries) = some entry := by
  induction entries with
  | nil => simp [replace, find?]
  | cons existing rest inductionHypothesis =>
      by_cases known : nameOf existing = nameOf entry
      · simp [replace, find?, known]
      · have found : List.find? (fun other => decide (nameOf other = nameOf entry))
            (replace nameOf entry rest) = some entry := inductionHypothesis
        simp [replace, find?, known, found]

theorem find?_replace_of_ne (nameOf : α → String) (entry : α) (entries : List α) {name : String}
    (other : nameOf entry ≠ name) :
    find? nameOf name (replace nameOf entry entries) = find? nameOf name entries := by
  induction entries with
  | nil => simp [replace, find?, other]
  | cons existing rest inductionHypothesis =>
      by_cases known : nameOf existing = nameOf entry
      · have away : nameOf existing ≠ name := fun same => other (known ▸ same)
        simp [replace, find?, known, other]
      · have unchanged : List.find? (fun candidate => decide (nameOf candidate = name))
            (replace nameOf entry rest) =
              List.find? (fun candidate => decide (nameOf candidate = name)) rest :=
          inductionHypothesis
        simp [replace, find?, known, unchanged, List.find?_cons]

/-- What is found under a name has that name. -/
theorem nameOf_of_find? {nameOf : α → String} {name : String} {entries : List α} {entry : α}
    (found : find? nameOf name entries = some entry) : nameOf entry = name :=
  of_decide_eq_true (List.find?_some (p := fun other => decide (nameOf other = name)) found)

/-- A known name keeps its place and a new one goes to the end. -/
theorem names_replace (nameOf : α → String) (entry : α) (entries : List α) :
    (replace nameOf entry entries).map nameOf =
      if nameOf entry ∈ entries.map nameOf then entries.map nameOf
      else entries.map nameOf ++ [nameOf entry] := by
  induction entries with
  | nil => simp [replace]
  | cons existing rest inductionHypothesis =>
      by_cases known : nameOf existing = nameOf entry
      · simp [replace, known]
      · have fresh : nameOf entry ≠ nameOf existing := fun same => known same.symm
        simp only [replace, known, if_false, List.map_cons, List.mem_cons, fresh, false_or,
          inductionHypothesis]
        split <;> simp

theorem value?_put_self (name : String) (value : β) (entries : List (String × β)) :
    value? name (put name value entries) = some value := by
  have found := find?_replace_self Prod.fst (name, value) entries
  simpa [value?, put] using congrArg (Option.map Prod.snd) found

theorem value?_put_of_ne {name other : String} (value : β) (entries : List (String × β))
    (different : other ≠ name) :
    value? name (put other value entries) = value? name entries := by
  have unchanged := find?_replace_of_ne Prod.fst (other, value) entries different
  simpa [value?, put] using congrArg (Option.map Prod.snd) unchanged

theorem put_of_fresh {name : String} (value : β) {entries : List (String × β)}
    (fresh : name ∉ entries.map Prod.fst) : put name value entries = entries ++ [(name, value)] := by
  unfold put
  induction entries with
  | nil => rfl
  | cons entry rest inductionHypothesis =>
      rw [List.map_cons, List.mem_cons, not_or] at fresh
      rw [replace, if_neg (Ne.symm fresh.1), inductionHypothesis fresh.2, List.cons_append]

/-- A name finds its value among the values of distinct names. -/
theorem value?_map {nameOf : α → String} {entries : List α} (valueOf : α → β)
    (distinct : (entries.map nameOf).Nodup) {entry : α} (member : entry ∈ entries) :
    value? (nameOf entry) (entries.map fun other => (nameOf other, valueOf other)) =
      some (valueOf entry) := by
  induction entries with
  | nil => cases member
  | cons first rest inductionHypothesis =>
      rw [List.map_cons, List.nodup_cons] at distinct
      rw [value?, find?, List.map_cons]
      by_cases here : nameOf first = nameOf entry
      · rcases List.mem_cons.mp member with rfl | behind
        · rw [List.find?_cons_of_pos (by simp)]
          rfl
        · exact absurd (List.mem_map.mpr ⟨entry, behind, here.symm⟩) distinct.1
      · have behind : entry ∈ rest := by
          rcases List.mem_cons.mp member with same | behind
          · exact absurd (congrArg nameOf same.symm) here
          · exact behind
        rw [List.find?_cons_of_neg (by simpa using here)]
        exact inductionHypothesis distinct.2 behind

end Named
end PracticePlan
