import PracticePlan.Files.Folder
import PracticePlan.Proofs.Archive.Map

namespace PracticePlan

/-!
# A desk

A desk has a folder of files and a store in memory, which have nothing to do
with each other.  Whatever is done with the files, the store on the desk is a
map that only the archive changes.
-/

/-- A folder of files and a store in memory. -/
structure Desk where
  folder : Folder
  memory : Memory

namespace Desk

variable {α : Type}

/-- Do something with the files on a desk. -/
def withFolder (step : StateM Folder α) : StateM Desk α := do
  let desk ← get
  set { desk with folder := (step.run desk.folder).2 }
  return (step.run desk.folder).1

/-- Do something with the memory of a desk. -/
def withMemory (step : StateM Memory α) : StateM Desk α := do
  let desk ← get
  set { desk with memory := (step.run desk.memory).2 }
  return (step.run desk.memory).1

instance : Files (StateM Desk) where
  read path := ExceptT.mk (withFolder (ExceptT.run (Files.read path)))
  write path text := ExceptT.mk (withFolder (ExceptT.run (Files.write path text)))
  makeFolder path := ExceptT.mk (withFolder (ExceptT.run (Files.makeFolder path)))
  isFolder path := withFolder (Files.isFolder path)

def store : Store (StateM Desk) where
  get key := ExceptT.mk (withMemory (Memory.store.get key).run)
  put key text := ExceptT.mk (withMemory (Memory.store.put key text).run)

/-- The texts in the memory of a desk. -/
def contents (desk : Desk) (key : String) : Option String :=
  Named.value? key desk.memory

theorem isMap_store : store.IsMap contents where
  get _ _ := rfl
  spares _ _ := rfl
  put key text desk := Memory.isMap_store.put key text desk.memory

/-- Nothing that is done with the files touches the store. -/
theorem spares_withFolder (step : StateM Folder α) : Spares contents (withFolder step) :=
  fun _ => rfl

end Desk
end PracticePlan
