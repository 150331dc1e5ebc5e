import FleetControl.Text

/-!
# File trees

A file tree has folders and files, each at a location: the names on the way
from the root.  A path is a text of names between slashes; it starts at the
root if it begins with a slash and otherwise at the working folder, `.` and
empty names stay where they are and `..` goes one folder up.  A path ends at
its first zero byte.

Each step of a path has to start from a folder, so a path through a file or a
missing folder leads nowhere.
-/

namespace FleetControl

/-- The names on the way from the root. -/
abbrev Location := List Text

/-- What may stand at a location. -/
inductive FileNode where
  | folder
  | file (content : Text)
deriving DecidableEq

/-- Folders and files, and the working folder. -/
structure FileTree where
  home : Location
  nodes : List (Location × FileNode)

namespace FileTree

/-- The tree that only has its working folder. -/
def empty : FileTree :=
  ⟨[text "home"], [([text "home"], .folder)]⟩

/-- What stands at a location; the root is a folder. -/
def node? (tree : FileTree) (location : Location) : Option FileNode :=
  if location.isEmpty then some .folder
  else (tree.nodes.find? fun entry => entry.1 = location).map (·.2)

/-- A folder stands at the location. -/
def isFolder (tree : FileTree) (location : Location) : Bool :=
  tree.node? location = some .folder

/-- The tree with something put at a location, in place of what was there. -/
def put (tree : FileTree) (location : Location) (node : FileNode) : FileTree :=
  { tree with
    nodes :=
      (location, node) :: tree.nodes.filter fun entry => entry.1 ≠ location }

/-- The names of a path. -/
def names (path : Text) : List Text :=
  Text.pieces Text.slash path

/-- Where a path starts. -/
def start (tree : FileTree) (path : Text) : Location :=
  if path.head? = some Text.slash then [] else tree.home

/-- Where a name leads from a location. -/
def enter (location : Location) (name : Text) : Location :=
  if name.isEmpty || name = text "." then location
  else if name = text ".." then location.dropLast
  else location ++ [name]

/-- Where names lead from a location; each has to start from a folder. -/
def walk? (tree : FileTree) : Location → List Text → Option Location
  | location, [] => some location
  | location, name :: rest =>
    if tree.isFolder location then walk? tree (enter location name) rest
    else none

/-- The location that a path leads to, where something may stand or not. -/
def locate? (tree : FileTree) (path : Text) : Option Location :=
  let path := path.cut
  if path.isEmpty then none else tree.walk? (tree.start path) (names path)

/-- The content of what a path leads to; a folder can be opened,
but has none. -/
def read? (tree : FileTree) (path : Text) : Option Text :=
  match (tree.locate? path).bind tree.node? with
  | some (.file content) => some content
  | some .folder => some []
  | none => none

/-- The content of the file that a path leads to. -/
def file? (tree : FileTree) (path : Text) : Option Text :=
  match (tree.locate? path).bind tree.node? with
  | some (.file content) => some content
  | _ => none

/-- The tree with more content at the end of a file, which is made if nothing
stands there. -/
def append? (tree : FileTree) (path more : Text) : Option FileTree := do
  let location ← tree.locate? path
  match tree.node? location with
  | some .folder => none
  | some (.file content) => return tree.put location (.file (content ++ more))
  | none => return tree.put location (.file more)

/-- Whether all names led from folder to folder, and the tree with the missing
folders made. -/
def makeFolders (tree : FileTree) : Location → List Text → Bool × FileTree
  | location, [] => (tree.isFolder location, tree)
  | location, name :: rest =>
    let next := enter location name
    match tree.node? next with
    | some .folder => tree.makeFolders next rest
    | some (.file _) => (false, tree)
    | none => (tree.put next .folder).makeFolders next rest

/-- Whether a path leads to a folder, and the tree with the missing folders on
the path made. -/
def createFolders (tree : FileTree) (path : Text) : Bool × FileTree :=
  let path := path.cut
  tree.makeFolders (tree.start path) (names path)

/-- The path without its last name. -/
def parent (path : Text) : Text :=
  let folders := (path.reverse.dropWhile (· ≠ Text.slash)).reverse
  let trimmed := (folders.reverse.dropWhile (· = Text.slash)).reverse
  if trimmed.isEmpty then folders.take 1 else trimmed

end FileTree
end FleetControl
