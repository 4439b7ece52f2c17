/-
# Arguments of the command line

A command line names a command, source locations and options, in any order behind the command.  A
double dash ends the options.  Whatever else starts with a dash must be a known option, and a line
that breaks these rules is refused as a whole.
-/
import DataBinding.Text.Basic

namespace DataBinding.Command

/-- The commands: to rewrite sources, or to tell what would be rewritten. -/
inductive Verb where
  | build
  | check
  deriving DecidableEq, Repr

/-- What is asked for. -/
structure Request where
  verb : Verb
  sources : List Text := []
  globals : List Text := []
  register : Text := "Polymer".toList
  strict : Bool := true
  outDir : Option Text := none

/-- The options that take a value. -/
inductive ValueOption where
  | global
  | register
  | outDir
  deriving DecidableEq, Repr

/-- The options that take none. -/
inductive Flag where
  | noStrict
  | verbose
  deriving DecidableEq, Repr

/-! ## Options -/

/-- The value option with a name; only a build writes elsewhere. -/
def valueOption? (verb : Verb) (name : Text) : Option ValueOption :=
  if name == "--global".toList then some .global
  else if name == "--register".toList then some .register
  else if name == "--out-dir".toList && verb == .build then some .outDir
  else none

/-- The flag with a name in full. -/
def flag? (name : Text) : Option Flag :=
  if name == "--no-strict".toList then some .noStrict
  else if name == "--verbose".toList then some .verbose
  else none

/-- The argument is one dash and letters of flags. -/
def isShortFlags : Text → Bool
  | '-' :: letters => !letters.isEmpty && letters.all (· == 'v')
  | _ => false

namespace Request

/-- The request with a value for an option. -/
def setValue (request : Request) (option : ValueOption) (value : Text) : Request :=
  match option with
  | .global => { request with globals := request.globals ++ [value] }
  | .register => { request with register := value }
  | .outDir => { request with outDir := some value }

/-- The request with a flag. -/
def setFlag (request : Request) : Flag → Request
  | .noStrict => { request with strict := false }
  | .verbose => request

/-- The request with one more source. -/
def addSource (request : Request) (source : Text) : Request :=
  { request with sources := request.sources ++ [source] }

end Request

/-! ## Reading -/

/-- Where the reading of a command line stands: before any argument, before the value of an option,
or behind the end of the options. -/
inductive Stage where
  | open
  | value (option : ValueOption)
  | literal

/-- An option with its value or without. -/
def readOption (request : Request) (argument : Text) : Option (Stage × Request) :=
  match Text.splitFirst '=' argument with
  | some (name, value) =>
    (valueOption? request.verb name).map fun option => (.open, request.setValue option value)
  | none =>
    match valueOption? request.verb argument with
    | some option => some (.value option, request)
    | none =>
      if isShortFlags argument then some (.open, request)
      else (flag? argument).map fun flag => (.open, request.setFlag flag)

/-- One argument. -/
def readArgument (reached : Stage × Request) (argument : Text) : Option (Stage × Request) :=
  let (stage, request) := reached
  match stage with
  | .literal => some (.literal, request.addSource argument)
  | .value option => some (.open, request.setValue option argument)
  | .open =>
    if argument == "--".toList then some (.literal, request)
    else if argument.head? == some '-' && 1 < argument.length then readOption request argument
    else some (.open, request.addSource argument)

/-- The command with a name. -/
def verb? (name : Text) : Option Verb :=
  if name == "build".toList then some .build
  else if name == "check".toList then some .check
  else none

/-- Reads the arguments behind a command; an option must not lack its value, and there must be a
source. -/
def readArguments (verb : Verb) (arguments : List Text) : Option Request :=
  match arguments.foldlM readArgument (.open, { verb }) with
  | some (.value _, _) | none => none
  | some (_, request) => if request.sources.isEmpty then none else some request

/-- Reads a command line. -/
def readLine : List Text → Option Request
  | [] => none
  | first :: rest =>
    if first == "--".toList then
      match rest with
      | [] => none
      | name :: arguments => (verb? name).bind (readArguments · arguments)
    else (verb? first).bind (readArguments · rest)

end DataBinding.Command
