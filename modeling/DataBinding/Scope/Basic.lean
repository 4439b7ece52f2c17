/-
# Scope of a transform

The state of one transform: the component it works on, the identifiers known as component state, the
functions generated so far and the problems found.  Functions are kept under their names in the
order of their generation.
-/
import DataBinding.Expression.Path
import DataBinding.Scope.Journal
import DataBinding.Scope.Options

namespace DataBinding

/-! ## Functions -/

/-- A generated pure function. -/
structure FunctionDefinition where
  name : Text
  parameters : List Text
  body : Text
  deriving DecidableEq, Repr

namespace FunctionDefinition

/-- The function as a declaration. -/
def source (f : FunctionDefinition) : Text :=
  "function ".toList ++ f.name ++ ['('] ++ Text.join [','] f.parameters ++
    ")\x7b return ".toList ++ f.body ++ "; \x7d".toList

/-- The function as a property of the component. -/
def property (f : FunctionDefinition) : Text :=
  ['\''] ++ f.name ++ "': ".toList ++ f.source ++ [',']

end FunctionDefinition

/-! ## Diagnostics -/

/-- The kinds of problems that do not end a transform. -/
inductive DiagnosticKind where
  | invalidExpression
  | twoWayNotAdmissible
  | unresolvedIdentifier
  | moduleMismatch
  | missingDeclaration
  | scriptSyntax
  deriving DecidableEq, Repr

namespace DiagnosticKind

/-- The kind as it is written in answers. -/
def label : DiagnosticKind → String
  | invalidExpression => "invalid-expression"
  | twoWayNotAdmissible => "two-way-not-admissible"
  | unresolvedIdentifier => "unresolved-identifier"
  | moduleMismatch => "module-mismatch"
  | missingDeclaration => "missing-declaration"
  | scriptSyntax => "script-syntax"

/-- All kinds. -/
def all : List DiagnosticKind :=
  [invalidExpression, twoWayNotAdmissible, unresolvedIdentifier, moduleMismatch,
    missingDeclaration, scriptSyntax]

/-- The kind that is written in the given way. -/
def ofLabel? (label : String) : Option DiagnosticKind :=
  all.find? fun kind => kind.label == label

/-- The report on a label that no kind has. -/
def unknownLabel (label : Text) : String :=
  s!"{String.ofList label.quoted} is not a valid DiagnosticKind"

end DiagnosticKind

/-- A problem found, with the expression it is about. -/
structure Diagnostic where
  kind : DiagnosticKind
  message : String
  expression : Text
  deriving DecidableEq, Repr

/-! ## Scopes -/

/-- The globals that every binding may use. -/
def sandboxGlobals : List Text :=
  ["Array", "Date", "JSON", "Math", "NaN", "RegExp", "decodeURI", "decodeURIComponent",
    "encodeURI", "encodeURIComponent", "isFinite", "isNaN", "null", "parseFloat", "parseInt",
    "undefined"].map String.toList

/-- The identifier is a global, one of every binding or one of the given ones. -/
def isGlobal (identifier : Text) (extra : List Text) : Bool :=
  sandboxGlobals.contains identifier || extra.contains identifier

/-- The state of a transform. -/
structure Scope where
  moduleId : Text
  globals : List Text := []
  functionPrefix : Text := "__c_".toList
  separator : Text := "__".toList
  counter : Nat := 0
  bindings : List Text := []
  functions : List FunctionDefinition := []
  diagnostics : List Diagnostic := []
  filePath : Text := []
  room : Nat := 960
  journal : List Journal.Entry := []

namespace Scope

/-- The scope at the start of a transform with options. -/
def ofOptions (moduleId : Text) (options : Options) (filePath : Text) : Scope :=
  { moduleId
    globals := options.globals
    functionPrefix := options.functionPrefix
    separator := options.separator
    filePath
    room := options.room }

/-- A number in base ten. -/
def numeral (n : Nat) : Text :=
  Nat.toDigits 10 n

/-- The next function name, and the scope that has used it up. -/
def nextFunctionName (scope : Scope) : Text × Scope :=
  (scope.functionPrefix ++ numeral scope.counter, { scope with counter := scope.counter + 1 })

/-- Functions with one more, in the place of one that has its name. -/
def putFunction (f : FunctionDefinition) : List FunctionDefinition → List FunctionDefinition
  | [] => [f]
  | g :: fs => if g.name == f.name then f :: fs else g :: putFunction f fs

/-- Keeps a function. -/
def addFunction (scope : Scope) (f : FunctionDefinition) : Scope :=
  { scope with functions := putFunction f scope.functions }

/-- The identifier is component state. -/
def isBound (scope : Scope) (identifier : Text) : Bool :=
  scope.bindings.contains identifier

/-- The identifier is a global. -/
def isGlobal (scope : Scope) (identifier : Text) : Bool :=
  DataBinding.isGlobal identifier scope.globals

/-- Makes an identifier component state. -/
def bind (scope : Scope) (identifier : Text) : Scope :=
  if scope.isBound identifier then scope
  else { scope with bindings := scope.bindings ++ [identifier] }

/-- Makes several identifiers component state. -/
def bindAll (scope : Scope) (identifiers : List Text) : Scope :=
  identifiers.foldl bind scope

/-- Notes something in the journal. -/
def note (scope : Scope) (level : Journal.Level) (activity : Journal.Activity) (message : String) :
    Scope :=
  { scope with journal := scope.journal ++ [⟨level, activity, message⟩] }

/-- A module as messages show it. -/
def shownModule (moduleId : Text) : String :=
  s!"<dom-module id=\"{String.ofList moduleId}\">"

/-- The place of a document in front of a message. -/
def located (filePath : Text) (message : String) : String :=
  if filePath.isEmpty then message else s!"{String.ofList filePath}: {message}"

/-- Keeps a problem and warns about it. -/
def report (scope : Scope) (kind : DiagnosticKind) (message : String) (expression : Text) : Scope :=
  let noted := scope.note .warning .reporting (located scope.filePath message)
  { noted with diagnostics := noted.diagnostics ++ [⟨kind, message, expression⟩] }

end Scope
end DataBinding
