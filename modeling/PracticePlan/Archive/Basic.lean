import PracticePlan.Archive.Store
import PracticePlan.Notation.Item

namespace PracticePlan

/-!
# The archive

The archive remembers one plan, the one that was built last.  It keeps the plan
as JSON under a fixed key of a store, so a remembered plan is read with the
registry of the day and may come back with warnings.
-/

/-- Why the archive cannot be used. -/
inductive ArchiveError where
  | store (error : StoreError)
  | committing (error : StoreError)
  | reading (error : Notation.FormatError)
deriving DecidableEq, Repr

namespace ArchiveError

/-- What went wrong, followed by its causes. -/
def chain : ArchiveError → List String
  | store error => error.chain
  | committing error => "committing schedule" :: error.chain
  | reading error => ["reading the last committed schedule", error.message]

end ArchiveError

namespace Archive

def key : String :=
  "last_schedule"

variable {m : Type → Type} [Monad m] {σ φ : Type} [IntervalSettings σ]

/-- Remember a plan in place of the one before. -/
def commit (store : Store m) (plan : Plan σ) : ExceptT ArchiveError m Unit :=
  (store.put key (Notation.Item.writePlan plan)).adapt ArchiveError.committing

/-- The plan that is remembered, if there is one. -/
def restore (store : Store m) (registry : Registry σ φ) :
    ExceptT ArchiveError m (Option (Notation.Report σ)) := do
  match ← (store.get key).adapt ArchiveError.store with
  | none => return none
  | some text => match Notation.Item.readPlan registry text with
      | .ok report => return some report
      | .error error => throw (.reading error)

end Archive
end PracticePlan
