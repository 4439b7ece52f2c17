/-
# Source files

A source file is a unit of work: where it is, what it holds, and the base it was found under, which
decides its relative location when results are written elsewhere.
-/
import DataBinding.Files.Tree
import DataBinding.Text.LowerCase

namespace DataBinding

/-- What a source file holds: nothing, bytes, or a stream, which cannot be processed. -/
inductive Contents where
  | absent
  | bytes (bytes : Bytes)
  | stream
  deriving DecidableEq

/-- One unit of work. -/
structure SourceFile where
  path : Location
  contents : Contents
  base : Option Location

namespace SourceFile

/-- There are no contents. -/
def isNull (file : SourceFile) : Bool :=
  file.contents == .absent

/-- The components of the relative location: those below the base if the file lies there, else the
name alone. -/
def relativeParts (file : SourceFile) : List Text :=
  match file.base.bind file.path.partsBelow? with
  | some parts => parts
  | none => if file.path.name.isEmpty then [] else [file.path.name]

/-! ## Loading -/

/-- The name of a file that counts as markup, by its ending in any case. -/
def isSourceName (name : Text) : Bool :=
  let ending := (Location.ending name).lowerCase
  ending == ".html".toList || ending == ".htm".toList

/-- The components name a file of markup that no leading dot hides. -/
def isVisibleSource (parts : List Text) : Bool :=
  !(parts.any fun part => part.head? == some '.') && isSourceName (parts.getLast?.getD [])

/-- The source files in a directory and the directories below it, in order. -/
def inDirectory (tree : FileTree) (path : Location) (place : List Text) : List SourceFile :=
  let found := (tree.below place).filter (isVisibleSource ·.1)
  let ordered := found.mergeSort fun f g => Location.partsPrecede f.1 g.1
  ordered.map fun (parts, bytes) => ⟨path.append parts, .bytes bytes, some path⟩

/-- The source files that a location names: all in a directory, or a file whatever its name is. -/
def load? (tree : FileTree) (path : Location) : Option (List SourceFile) :=
  (tree.resolve? path).bind fun place =>
    if tree.isDirectory place then some (inDirectory tree path place)
    else (tree.read? place).map fun bytes => [⟨path, .bytes bytes, some path.parent⟩]

/-- The source files that several locations name, or the first location that names nothing. -/
def loadAll (tree : FileTree) : List Location → Except Location (List SourceFile)
  | [] => .ok []
  | path :: paths =>
    match load? tree path with
    | none => .error path
    | some files => (files ++ ·) <$> loadAll tree paths

/-- The report on a location that names nothing. -/
def notFoundMessage (path : Location) : String :=
  s!"No such file or directory: {String.ofList path.write}"

/-! ## Storing -/

/-- Where a file is written: to its own place, or under another directory by its relative
location. -/
def target (file : SourceFile) (outDir : Option Location) : Location :=
  match outDir with
  | none => file.path
  | some directory => directory.append file.relativeParts

/-- The tree with a file written, if nothing is in the way.  Only bytes are written, but the
directories are made for every file. -/
def store? (tree : FileTree) (file : SourceFile) (outDir : Option Location) : Option FileTree := do
  let target := file.target outDir
  let tree ← tree.makeDirectories? target.parent
  match file.contents with
  | .bytes bytes => (tree.resolve? target).bind (tree.write? · bytes)
  | _ => some tree

end SourceFile
end DataBinding
