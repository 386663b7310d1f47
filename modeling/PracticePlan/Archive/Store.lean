import PracticePlan.Files.Basic
import PracticePlan.Named
import PracticePlan.Text.Quoted

namespace PracticePlan

/-!
# Stores

A store keeps texts under keys.  Two kinds are provided.  The memory store is
an association list and takes any key.  The file store keeps each text in a
file of a folder, which is made when it is first needed, and takes only keys
that are safe as file names: ASCII letters, digits, hyphens and underscores, at
least one.
-/

/-- Why a store cannot be used. -/
inductive StoreError where
  | invalidKey (key : String)
  | reading (path : String) (fault : FileFault)
  | making (path : String) (fault : FileFault)
  | writing (path : String) (fault : FileFault)
deriving DecidableEq, Repr

namespace StoreError

/-- What went wrong, followed by its causes. -/
def chain : StoreError → List String
  | invalidKey key => ["invalid store key " ++ Text.quoted key]
  | reading path fault => ["reading " ++ path, fault.message]
  | making path fault => ["creating " ++ path, fault.message]
  | writing path fault => ["writing " ++ path, fault.message]

end StoreError

/-- Texts under keys. -/
structure Store (m : Type → Type) where
  get : String → ExceptT StoreError m (Option String)
  put : String → String → ExceptT StoreError m Unit

/-- The texts of a store in memory. -/
abbrev Memory : Type :=
  List (String × String)

namespace Memory

def store : Store (StateM Memory) where
  get key := do
    let memory ← getThe Memory
    return Named.value? key memory
  put key text := modifyThe Memory (Named.put key text)

end Memory

namespace Store

/-- Whether a key is safe as a file name. -/
def isFileKey (key : String) : Bool :=
  !key.isEmpty && key.toList.all fun c => c.isAlphanum || c = '_' || c = '-'

variable {m : Type → Type} [Monad m] [Files m]

/-- The path of the file for a key. -/
def fileOf (folder key : String) : ExceptT StoreError m String :=
  if isFileKey key then pure (Files.inside folder (key ++ ".json"))
  else throw (.invalidKey key)

/-- The text of a file, or nothing when there is no file. -/
def readFile (path : String) : ExceptT StoreError m (Option String) :=
  ExceptT.mk do
    match ← (Files.read path).run with
    | .ok text => return .ok (some text)
    | .error .missing => return .ok none
    | .error fault => return .error (.reading path fault)

/-- The store that keeps its texts in the files of a folder. -/
def inFolder (folder : String) : Store m where
  get key := do
    let path ← fileOf folder key
    readFile path
  put key text := do
    let path ← fileOf folder key
    (Files.makeFolders folder).adapt (StoreError.making folder)
    (Files.write path text).adapt (StoreError.writing path)

end Store
end PracticePlan
