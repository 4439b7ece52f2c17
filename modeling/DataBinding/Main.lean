/-
# Command line

The outer layer of the command: it reads files into a tree, runs the command line on the tree,
prints what there is to say, and writes back the files that changed.  Sources that are files are
read by their names; the files in directories are named on standard input, one on each line.
-/
import DataBinding.Command.Run

namespace DataBinding.Command

/-- A name and the contents of a file with that name, if it can be read. -/
def readNamed? (name : String) : IO (Option (List Text × Bytes)) := do
  try
    let bytes ← IO.FS.readBinFile name
    return some ((Location.parse name.toList).parts, bytes.toList)
  catch _ => return none

/-- The lines of standard input without their ends. -/
def inputLines : IO (List String) := do
  let input ← IO.getStdin
  let mut lines := []
  repeat
    let line ← input.getLine
    if line.isEmpty then break
    lines := String.ofList (Text.trim line.toList) :: lines
  return lines.reverse

/-- The tree of the named sources; where one of them is no file, standard input names the files. -/
def readTree (sources : List String) : IO FileTree := do
  let named ← sources.mapM readNamed?
  let listed ← if named.all Option.isSome then pure [] else inputLines
  let found ← listed.mapM readNamed?
  return ⟨(named ++ found).filterMap id, []⟩

/-- Writes the files of a tree that another tree does not hold as they are. -/
def writeChanged (before after : FileTree) : IO Unit := do
  for (place, bytes) in after.files do
    unless before.read? place == some bytes do
      let directory := String.ofList (Location.writeParts place.dropLast)
      IO.FS.createDirAll directory
      IO.FS.writeBinFile (String.ofList (Location.writeParts place)) (ByteArray.mk bytes.toArray)

/-- Says that a command line is refused. -/
def printRefusal : IO Unit := do
  let errors ← IO.getStderr
  errors.putStrLn "usage: (build | check) [--global NAME] [--register NAME] [--no-strict] SOURCES"

/-- Runs a command line on the files it names. -/
def runOnFiles (arguments : List Text) : IO UInt32 := do
  let sources := ((readLine arguments).map (·.sources)).getD []
  let before ← readTree (sources.map String.ofList)
  let outcome := run before arguments
  match outcome.output with
  | some lines => lines.forM IO.println
  | none => printRefusal
  writeChanged before outcome.tree
  return outcome.exitCode.toUInt32

end DataBinding.Command

/-- Runs the command line. -/
def main (arguments : List String) : IO UInt32 :=
  DataBinding.Command.runOnFiles (arguments.map String.toList)
