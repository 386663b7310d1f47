import PracticePlan.Catalog.Basic
import PracticePlan.Command.Run

namespace PracticePlan

/-!
# The program

The program runs the request of its command line with the catalog, on the files
of the machine.  This module holds the only effects of the library: it reads
and writes files, asks for the folder of the user's configurations, and prints.
-/

namespace Disk

/-- The fault that an error of the machine stands for. -/
def faultOf : IO.Error → FileFault
  | .noFileOrDirectory _ _ _ => .missing
  | .alreadyExists _ _ _ => .alreadyThere
  | .inappropriateType _ code details =>
      if code = 20 then .notFolder else if code = 21 then .isFolder else .other details
  | .invalidArgument _ code details => if code = 36 then .nameTooLong else .other details
  | error => .other (toString error)

/-- Carry out an action, keeping its error as a fault. -/
def guarded {α : Type} (action : IO α) : ExceptT FileFault IO α :=
  ExceptT.mk do
    match ← action.toBaseIO with
    | .ok value => return .ok value
    | .error error => return .error (faultOf error)

instance : Files IO where
  read path := guarded (IO.FS.readFile path)
  write path text := guarded (IO.FS.writeFile path text)
  makeFolder path := guarded (IO.FS.createDir path)
  isFolder path := do
    match ← (IO.FS.realPath (Files.inside path ".")).toBaseIO with
    | .ok _ => return true
    | .error _ => return false

def configFolder : IO (Option String) := do
  match ← IO.getEnv "XDG_CONFIG_HOME" with
  | some folder =>
      if folder.startsWith "/" then return some folder
      else return (← IO.getEnv "HOME").map fun home => Files.inside home ".config"
  | none => return (← IO.getEnv "HOME").map fun home => Files.inside home ".config"

end Disk
end PracticePlan

/-- Run the request of the command line. -/
def main (words : List String) : IO UInt32 := do
  let environment : PracticePlan.Environment := ⟨← PracticePlan.Disk.configFolder⟩
  let outcome ← (PracticePlan.Run.request environment PracticePlan.Catalog.registry
    (.ofWords words) : IO PracticePlan.Outcome)
  IO.print outcome.printed.output
  IO.eprint outcome.printed.errors
  return UInt32.ofNat outcome.code
