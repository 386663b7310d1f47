import PracticePlan.Files.Name

namespace PracticePlan

/-!
# Files

The program reads texts, writes texts and makes folders, and it names files by
paths.  Everything else about files is left to a monad that has these
operations, so that a run can be followed on a folder in memory as well as on a
disk.

The monad makes one folder at a time.  `makeFolders` makes a folder together
with those around it, from the innermost that can be made inward.  A path whose
last piece is a single dot can be made only where the folder in front of the dot
is there already, since the folders around it do not include that one.  Folders
that were made before a fault stay.
-/

/-- Why a file cannot be read or written. -/
inductive FileFault where
  | missing
  | alreadyThere
  | notFolder
  | isFolder
  | nameTooLong
  | nullInName
  | other (message : String)
deriving DecidableEq, Repr

namespace FileFault

def message : FileFault → String
  | missing => "No such file or directory (os error 2)"
  | alreadyThere => "File exists (os error 17)"
  | notFolder => "Not a directory (os error 20)"
  | isFolder => "Is a directory (os error 21)"
  | nameTooLong => "File name too long (os error 36)"
  | nullInName => "file name contained an unexpected NUL byte"
  | other message => message

end FileFault

/-- A monad in which files can be read and written. -/
class Files (m : Type → Type) where
  /-- The text of a file. -/
  read : String → ExceptT FileFault m String
  /-- Replace the text of a file, or make a file with a text. -/
  write : String → String → ExceptT FileFault m Unit
  /-- Make a folder in a folder that is there. -/
  makeFolder : String → ExceptT FileFault m Unit
  /-- Whether a path leads to a folder. -/
  isFolder : String → m Bool

namespace Files

/-- The path of a name inside a folder. -/
def inside (folder name : String) : String :=
  if folder.isEmpty || folder.toList.getLast? = some '/' then folder ++ name
  else folder ++ "/" ++ name

variable {m : Type → Type} [Monad m] [Files m]

/-- Make a folder unless it is there. -/
def ensureFolder (path : String) : ExceptT FileFault m Unit :=
  tryCatch (Files.makeFolder path) fun fault => do
    let there ← (Files.isFolder path : m Bool)
    if fault = .alreadyThere ∧ there = true then pure () else throw fault

/-- Make a folder unless it is there, after the folders around it if one of them
is missing.  These are given innermost first. -/
def ensureInside (path : String) : List String → ExceptT FileFault m Unit
  | [] => ensureFolder path
  | inner :: outer => tryCatch (ensureFolder path) fun fault =>
      if fault = .missing then do
        ensureInside inner outer
        ensureFolder path
      else throw fault

/-- Make a folder and all folders around it, unless they are there.  An empty
path asks for none. -/
def makeFolders (path : String) : ExceptT FileFault m Unit :=
  if path.isEmpty then pure ()
  else ensureInside path ((FileName.around path.toList).map String.ofList)

end Files
end PracticePlan
