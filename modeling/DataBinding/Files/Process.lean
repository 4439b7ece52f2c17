/-
# Processing source files

Each file is decoded, transformed and encoded again by itself, so that a failure leaves the other
files alone.  A file that fails keeps its contents.
-/
import DataBinding.Files.Source
import DataBinding.Transform

namespace DataBinding

/-- Why a file cannot be processed. -/
inductive FileFault where
  | streaming
  | encoding (fault : Text.DecodeFault)
  | transform (fault : Transform.Fault)

namespace FileFault

/-- The report on a stream. -/
def streamingMessage : String :=
  "Streaming not supported"

/-- The kind of a fault that is named in front of its report, for faults of foreign origin. -/
def kindName? : FileFault → Option String
  | .streaming => none
  | .encoding _ => some "UnicodeDecodeError"
  | .transform (.markup (.overlongReference _)) => some "ValueError"
  | .transform (.markup _) => some "AssertionError"
  | .transform (.stopped (.overlongReference _)) => some "ValueError"
  | .transform (.stopped (.noRoom _)) => some "RecursionError"
  | .transform (.missingDeclaration ..) => none

/-- The report on a fault alone. -/
def plainMessage : FileFault → String
  | .streaming => streamingMessage
  | .encoding fault => fault.message
  | .transform fault => fault.message

/-- A fault in words. -/
def message (fault : FileFault) : String :=
  match fault.kindName? with
  | some kind => kind ++ ": " ++ fault.plainMessage
  | none => fault.plainMessage

/-- A fault in words, behind the file it is about. -/
def messageFor (fault : FileFault) (path : Location) : String :=
  Scope.located path.write fault.message

end FileFault

/-- A file behind its processing, with the result unless there were no contents. -/
structure ProcessedFile where
  file : SourceFile
  outcome : Except FileFault (Option Transform.Result)

namespace ProcessedFile

/-- The result of a transform. -/
def result? (processed : ProcessedFile) : Option Transform.Result :=
  match processed.outcome with
  | .ok result => result
  | .error _ => none

/-- The fault of a file that failed. -/
def fault? (processed : ProcessedFile) : Option FileFault :=
  match processed.outcome with
  | .ok _ => none
  | .error fault => some fault

/-- Processing did not fail. -/
def ok (processed : ProcessedFile) : Bool :=
  processed.fault?.isNone

/-- Something was generated for the file. -/
def changed (processed : ProcessedFile) : Bool :=
  processed.result?.any (·.changed)

end ProcessedFile

namespace SourceFile

/-- The result for the bytes of a file, with the journal of the transform. -/
def transformBytes (options : Options) (path : Location) (bytes : Bytes) :
    Except FileFault Transform.Result × List Journal.Entry :=
  match Text.decode bytes with
  | .error fault => (.error (.encoding fault), [])
  | .ok t =>
    let (outcome, journal) := transform options path.write t
    (outcome.mapError .transform, journal)

/-- The note on a file that failed. -/
def failedMessage (path : Location) (fault : FileFault) : String :=
  "Failed: " ++ fault.messageFor path

/-- A file that failed, with a note behind the journal so far. -/
def failed (file : SourceFile) (fault : FileFault) (journal : List Journal.Entry) :
    ProcessedFile × List Journal.Entry :=
  (⟨file, .error fault⟩,
    journal ++ [⟨.detail, .processing, failedMessage file.path fault⟩])

/-- Processes a file. -/
def process (options : Options) (file : SourceFile) : ProcessedFile × List Journal.Entry :=
  match file.contents with
  | .absent => (⟨file, .ok none⟩, [])
  | .stream => file.failed .streaming []
  | .bytes bytes =>
    match transformBytes options file.path bytes with
    | (.error fault, journal) => file.failed fault journal
    | (.ok result, journal) =>
      (⟨{ file with contents := .bytes (Text.encode result.text) }, .ok (some result)⟩, journal)

/-- Processes files one after the other. -/
def processAll (options : Options) (files : List SourceFile) :
    List ProcessedFile × List Journal.Entry :=
  let processed := files.map (process options)
  (processed.map (·.1), processed.flatMap (·.2))

end SourceFile
end DataBinding
