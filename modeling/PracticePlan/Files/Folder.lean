import PracticePlan.Files.Basic
import PracticePlan.Named
import PracticePlan.Text.Pieces

namespace PracticePlan

/-!
# Folders in memory

A folder in memory is a tree of named nodes.  A path is followed one piece at a
time.  A piece of two dots leads to the folder around, a piece of one dot and an
empty piece stay where they are, and all three need a folder to stand in.

The tree has a name and lies under this name in an outer folder, where nothing
else is at first.  Relative paths start in the tree, and so do paths that start
with its name.  Other absolute paths start in the outer folder, and two dots do
not lead out of it.
-/

/-- A file with its text, or a folder with its named nodes. -/
inductive Node where
  | file (text : String)
  | folder (entries : List (String × Node))

namespace Node

def empty : Node :=
  folder []

/-- The greatest number of bytes in a name. -/
def longestName : Nat :=
  255

/-- The node with a name inside a node. -/
def child (name : String) : Node → Except FileFault Node
  | folder entries =>
      if longestName < name.utf8ByteSize then .error .nameTooLong
      else match Named.value? name entries with
        | some node => .ok node
        | none => .error .missing
  | file _ => .error .notFolder

/-- The node at the end of names. -/
def find (root : Node) (names : List String) : Except FileFault Node :=
  names.foldlM (fun node name => node.child name) root

/-- Put a node at the end of names, the last of which may be new. -/
def putAt (node : Node) : List String → Node → Except FileFault Node
  | [], _ => .ok node
  | [name], folder entries => .ok (folder (Named.put name node entries))
  | name :: rest, folder entries => match Named.value? name entries with
      | some inner =>
          (putAt node rest inner).map fun changed => folder (Named.put name changed entries)
      | none => .error .missing
  | _ :: _, file _ => .error .notFolder

/-- Fail unless a node is a folder. -/
def requireFolder : Node → Except FileFault Unit
  | folder _ => .ok ()
  | file _ => .error .notFolder

/-- Fail unless names lead to a folder. -/
def requireFolderAt (root : Node) (names : List String) : Except FileFault Unit :=
  (root.find names).bind requireFolder

/-- The names that lead from the root to the end of a path, last name first,
when `walked` has been followed. -/
def follow (root : Node) (walked : List String) :
    List (List Char) → Except FileFault (List String)
  | [] => .ok walked
  | piece :: rest =>
      if piece = ['.', '.'] then
        (root.requireFolderAt walked.reverse).bind fun _ => follow root walked.tail rest
      else if piece = [] ∨ piece = ['.'] then
        (root.requireFolderAt walked.reverse).bind fun _ => follow root walked rest
      else follow root (String.ofList piece :: walked) rest

/-- The text at the end of names. -/
def textAt (root : Node) (names : List String) : Except FileFault String :=
  (root.find names).bind fun node => match node with
    | file text => .ok text
    | folder _ => .error .isFolder

/-- Write a text at the end of names. -/
def writeAt (root : Node) (names : List String) (text : String) : Except FileFault Node :=
  match root.find names with
  | .ok (folder _) => .error .isFolder
  | .ok (file _) | .error .missing => putAt (file text) names root
  | .error fault => .error fault

/-- Make a folder at the end of names. -/
def makeFolderAt (root : Node) (names : List String) : Except FileFault Node :=
  match root.find names with
  | .ok _ => .error .alreadyThere
  | .error .missing => putAt empty names root
  | .error fault => .error fault

end Node

/-- A path cut into pieces, with the names of the folder in which it starts. -/
structure Route where
  start : List String
  pieces : List (List Char)

/-- The end of a path: the folder around it, the last piece, and whether slashes
follow that piece. -/
structure RouteEnd where
  around : List String
  last : List Char
  slashed : Bool

namespace Route

/-- The greatest number of bytes in a path. -/
def longestPath : Nat :=
  4095

/-- What follows a name at the front of a path, which may be nothing. -/
def afterName? : List Char → List Char → Option (List Char)
  | [], [] => some []
  | [], '/' :: rest => some rest
  | [], _ => none
  | _ :: _, [] => none
  | c :: name, d :: path => if c = d then afterName? name path else none

/-- The route of a path in the tree with a name. -/
def ofPath (treeName path : String) : Except FileFault Route :=
  if path.toList.contains (Char.ofNat 0) then .error .nullInName
  else if path.isEmpty then .error .missing
  else if longestPath < path.utf8ByteSize then .error .nameTooLong
  else match afterName? treeName.toList path.toList with
    | some rest => .ok ⟨[treeName], Text.pieces '/' rest⟩
    | none =>
        let pieces := Text.pieces '/' path.toList
        .ok ⟨if pieces.head? = some [] then [] else [treeName], pieces⟩

/-- The names to which a route leads. -/
def locate (root : Node) (route : Route) : Except FileFault (List String) :=
  (root.follow route.start.reverse route.pieces).map List.reverse

/-- The end of a route, when the folder around it is there.  A route without any
piece but empty ones ends where it starts. -/
def findEnd (root : Node) (route : Route) : Except FileFault RouteEnd :=
  match route.pieces.reverse.dropWhile List.isEmpty with
  | [] => .ok ⟨route.start, ['.'], true⟩
  | last :: before =>
      (locate root ⟨route.start, before.reverse⟩).bind fun around =>
        (root.requireFolderAt around).map fun _ =>
          ⟨around, last, route.pieces.getLast? = some []⟩

end Route

namespace RouteEnd

/-- Whether the last piece is a piece of dots, which always leads to a folder. -/
def isDots (routeEnd : RouteEnd) : Bool :=
  routeEnd.last = ['.'] || routeEnd.last = ['.', '.']

/-- The names of the node at the end, when the last piece is a name. -/
def names (routeEnd : RouteEnd) : List String :=
  routeEnd.around ++ [String.ofList routeEnd.last]

end RouteEnd

/-- A tree of files with its name.  The root is the folder around the tree. -/
structure Folder where
  name : String
  root : Node

namespace Folder

def empty (name : String) : Folder :=
  ⟨name, .folder [(name, .empty)]⟩

def read (tree : Folder) (path : String) : Except FileFault String :=
  (Route.ofPath tree.name path).bind fun route =>
    (route.locate tree.root).bind tree.root.textAt

/-- Write a text to a file.  A path that ends with dots or a slash names no file. -/
def write (tree : Folder) (path text : String) : Except FileFault Folder :=
  (Route.ofPath tree.name path).bind fun route =>
    (route.findEnd tree.root).bind fun found =>
      if found.isDots || found.slashed then .error .isFolder
      else (tree.root.writeAt found.names text).map fun root => { tree with root }

/-- Make a folder.  Slashes may follow its name. -/
def makeFolder (tree : Folder) (path : String) : Except FileFault Folder :=
  (Route.ofPath tree.name path).bind fun route =>
    (route.findEnd tree.root).bind fun found =>
      if found.isDots then .error .alreadyThere
      else (tree.root.makeFolderAt found.names).map fun root => { tree with root }

/-- Whether a path leads to a folder. -/
def hasFolder (tree : Folder) (path : String) : Bool :=
  ((Route.ofPath tree.name path).bind fun route =>
    (route.locate tree.root).bind tree.root.requireFolderAt).isOk

/-- Replace the tree, or keep it and report the fault. -/
def replace (outcome : Except FileFault Folder) : ExceptT FileFault (StateM Folder) Unit :=
  match outcome with
  | .ok tree => set tree
  | .error fault => throw fault

instance : Files (StateM Folder) where
  read path := do
    let tree ← get
    ExceptT.mk (pure (tree.read path))
  write path text := do
    let tree ← get
    replace (tree.write path text)
  makeFolder path := do
    let tree ← get
    replace (tree.makeFolder path)
  isFolder path := do
    let tree ← get
    return tree.hasFolder path

end Folder
end PracticePlan
