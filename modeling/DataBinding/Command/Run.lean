/-
# Running commands

A command works on a tree of files.  It answers with an exit code, with lines of output unless the
command line is refused, and with the tree it leaves behind.
-/
import DataBinding.Command.Arguments
import DataBinding.Files.Process

namespace DataBinding.Command

/-- What a run leaves behind. -/
structure Outcome where
  exitCode : Nat
  output : Option (List String)
  tree : FileTree

/-! ## Requests against files -/

/-- The sources of a request all exist, and its output directory is no file. -/
def Request.fits (request : Request) (tree : FileTree) : Bool :=
  request.sources.all tree.namesEntry && !request.outDir.any tree.namesFile

/-- The options of the transform that a request asks for. -/
def Request.options (request : Request) : Options :=
  { globals := request.globals, register := request.register, strict := request.strict }

/-- The directory to write to, unless sources are rewritten in place. -/
def Request.target? (request : Request) : Option Location :=
  (request.outDir.filter (!·.isEmpty)).map Location.parse

/-! ## Lines -/

/-- A location as it is shown. -/
def shown (l : Location) : String :=
  String.ofList l.write

/-- The lines about a file that failed, with advice where a declaration is missing. -/
def faultLines (path : Location) (fault : FileFault) : List String :=
  match fault with
  | .transform (.missingDeclaration ..) =>
    [s!"❌ {shown path}: {fault.message}",
      "   Add a declaration script or pass --no-strict."]
  | fault => [s!"❌ {shown path}: {fault.messageFor path}"]

/-! ## Building -/

/-- What a build has done so far. -/
structure Progress where
  tree : FileTree
  lines : List String
  failed : Nat
  functions : Nat

/-- Writes a file that was processed.  In place, only files that changed are written. -/
def Progress.write (progress : Progress) (outDir : Option Location) (processed : ProcessedFile) :
    Except Progress Progress :=
  if outDir.isNone && !processed.changed then .ok progress
  else
    match processed.file.store? progress.tree outDir with
    | none => .error progress
    | some tree =>
      let note := s!"   ✏️  {shown (processed.file.target outDir)}"
      .ok { progress with
        tree
        lines := if processed.changed then progress.lines ++ [note] else progress.lines }

/-- Takes one processed file; stops where a result cannot be written. -/
def Progress.take (progress : Progress) (outDir : Option Location) (processed : ProcessedFile) :
    Except Progress Progress :=
  match processed.outcome with
  | .error fault =>
    .ok { progress with
      lines := progress.lines ++ faultLines processed.file.path fault
      failed := progress.failed + 1 }
  | .ok result =>
    let generated := (result.map (·.functions.length)).getD 0
    { progress with functions := progress.functions + generated }.write outDir processed

/-- Builds files that were loaded. -/
def build (request : Request) (files : List SourceFile) (tree : FileTree) : Outcome :=
  let start : Progress := ⟨tree, [s!"🔨 Transforming {files.length} file(s)..."], 0, 0⟩
  let processed := (SourceFile.processAll request.options files).1
  match processed.foldlM (·.take request.target? ·) start with
  | .error stuck => ⟨1, some stuck.lines, stuck.tree⟩
  | .ok done =>
    if 0 < done.failed then
      ⟨1, some (done.lines ++ [s!"💥 Build failed for {done.failed} file(s)"]), done.tree⟩
    else
      let summary :=
        s!"✅ Build complete (files={files.length}, computed bindings={done.functions})"
      ⟨0, some (done.lines ++ [summary]), done.tree⟩

/-! ## Checking -/

/-- The lines of a check about one file. -/
def checkLines (processed : ProcessedFile) : List String :=
  let path := processed.file.path
  match processed.outcome with
  | .error fault => faultLines path fault
  | .ok (some result) =>
    if result.changed then
      [s!"🔍 {shown path}: {result.functions.length} binding(s) to compute"]
    else []
  | .ok none => []

/-- Checks files that were loaded. -/
def check (request : Request) (files : List SourceFile) (tree : FileTree) : Outcome :=
  let processed := (SourceFile.processAll request.options files).1
  let pending := (processed.filter (·.changed)).length
  let failed := (processed.filter (!·.ok)).length
  let lines := processed.flatMap checkLines
  if pending == 0 && failed == 0 then
    ⟨0, some (lines ++ [s!"✅ {files.length} file(s) up to date"]), tree⟩
  else
    let summary := s!"⚠️  {pending} file(s) would change, {failed} file(s) failed"
    ⟨1, some (lines ++ [summary]), tree⟩

/-! ## Running -/

/-- A command line that is refused. -/
def refused (tree : FileTree) : Outcome :=
  ⟨2, none, tree⟩

/-- Runs a request. -/
def Request.run (request : Request) (tree : FileTree) : Outcome :=
  match SourceFile.loadAll tree (request.sources.map Location.parse) with
  | .error _ => refused tree
  | .ok files =>
    match request.verb with
    | .build => build request files tree
    | .check => check request files tree

/-- Runs a command line. -/
def run (tree : FileTree) (arguments : List Text) : Outcome :=
  match readLine arguments with
  | none => refused tree
  | some request => if request.fits tree then request.run tree else refused tree

end DataBinding.Command
