/-
# Trees of files

A tree of files lists files under their components, and directories that need not hold any.  A
location is resolved component by component; locations outside the tree lead nowhere.
-/
import DataBinding.Files.Location
import DataBinding.Text.Utf8

namespace DataBinding

/-- Files with their contents, and directories, all under their components from the top of the
tree. -/
structure FileTree where
  files : List (List Text × Bytes)
  directories : List (List Text)

namespace FileTree

/-! ## Looking -/

/-- The contents of the file at a place. -/
def read? (tree : FileTree) (place : List Text) : Option Bytes :=
  (tree.files.find? (·.1 == place)).map (·.2)

/-- A file is at a place. -/
def isFile (tree : FileTree) (place : List Text) : Bool :=
  (tree.read? place).isSome

/-- A directory is at a place: the top, a listed one, or one with something below it. -/
def isDirectory (tree : FileTree) (place : List Text) : Bool :=
  place.isEmpty || tree.directories.any (place.isPrefixOf ·) ||
    tree.files.any fun (file, _) => place.isPrefixOf file && file != place

/-- Goes from a place one component further. -/
def enter (tree : FileTree) (place : List Text) (part : Text) : Option (List Text) :=
  if part != "..".toList then some (place ++ [part])
  else if place.isEmpty || !tree.isDirectory place then none
  else some place.dropLast

/-- The place that a location leads to. -/
def resolve? (tree : FileTree) (l : Location) : Option (List Text) :=
  if l.root.isEmpty then l.parts.foldlM tree.enter [] else none

/-- A location as it is written can only name a directory: it ends in a slash, or in a slash and a
dot. -/
def asksForDirectory (t : Text) : Bool :=
  match t.reverse with
  | '/' :: _ | '.' :: '/' :: _ => true
  | _ => false

/-- A written location names a file. -/
def namesFile (tree : FileTree) (t : Text) : Bool :=
  !asksForDirectory t && (tree.resolve? (.parse t)).any tree.isFile

/-- A written location names a file or a directory. -/
def namesEntry (tree : FileTree) (t : Text) : Bool :=
  tree.namesFile t || (!t.isEmpty && (tree.resolve? (.parse t)).any tree.isDirectory)

/-- The files below a place: the components from there on, with the contents. -/
def below (tree : FileTree) (place : List Text) : List (List Text × Bytes) :=
  tree.files.filterMap fun (file, bytes) =>
    if place.isPrefixOf file && file != place then some (file.drop place.length, bytes) else none

/-! ## Changes -/

/-- Puts contents at a place among files, in the place of a file that is there. -/
def putFile (place : List Text) (bytes : Bytes) :
    List (List Text × Bytes) → List (List Text × Bytes)
  | [] => [(place, bytes)]
  | file :: files =>
    if file.1 == place then (place, bytes) :: files else file :: putFile place bytes files

/-- The tree with a directory at a place, unless a file is there. -/
def makeDirectory? (tree : FileTree) (place : List Text) : Option FileTree :=
  if tree.isFile place then none
  else if tree.isDirectory place then some tree
  else some { tree with directories := tree.directories ++ [place] }

/-- Goes one component further, into a directory that is made if it is missing. -/
def makeEntered? (reached : FileTree × List Text) (part : Text) :
    Option (FileTree × List Text) := do
  let place ← reached.1.enter reached.2 part
  let tree ← reached.1.makeDirectory? place
  return (tree, place)

/-- The tree with all directories that a location leads through, unless a file is in the way.  What
is behind two dots counts as well: it must be there before one can turn back. -/
def makeDirectories? (tree : FileTree) (l : Location) : Option FileTree :=
  if l.root.isEmpty then (l.parts.foldlM makeEntered? (tree, [])).map (·.1) else none

/-- The tree with contents at a place. -/
def put (tree : FileTree) (place : List Text) (bytes : Bytes) : FileTree :=
  { tree with files := putFile place bytes tree.files }

/-- The tree with contents at a place, unless a directory is there. -/
def write? (tree : FileTree) (place : List Text) (bytes : Bytes) : Option FileTree :=
  if tree.isDirectory place then none else some (tree.put place bytes)

end FileTree
end DataBinding
