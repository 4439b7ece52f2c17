/-
# Transform of a document

A document is a module with templates and a script.  The transform learns the component's state,
replaces the bindings that are not evaluated natively by calls of generated functions, and injects
the functions into the component's declaration.  A document without a module that has an identifier
is left as it is.  A binding that cannot be visited to the end stops the transform.
-/
import DataBinding.Component.Injection
import DataBinding.Markup.Tree
import DataBinding.Markup.Write
import DataBinding.Template.Rewrite

namespace DataBinding

namespace Transform

/-- What a transform yields: the new text, the module if the document has one, and what was
generated and found on the way. -/
structure Result where
  text : Text
  moduleId : Option Text
  functions : List FunctionDefinition
  diagnostics : List Diagnostic

namespace Result

/-- Something was generated. -/
def changed (result : Result) : Bool :=
  !result.functions.isEmpty

/-- A text that is left as it is. -/
def unchanged (t : Text) : Result :=
  ⟨t, none, [], []⟩

/-- The result for a module: its document as it is written, with what its scope has gathered. -/
def ofModule (document : Markup.Document) (scope : Scope) : Result :=
  ⟨document.write, some scope.moduleId, scope.functions, scope.diagnostics⟩

end Result

/-- Why a document cannot be transformed: it is no markup, a visit to its bindings cannot be finished,
or functions were generated that no declaration can hold. -/
inductive Fault where
  | markup (fault : Markup.Fault)
  | stopped (obstacle : Obstacle)
  | missingDeclaration (moduleId : Text) (functions : Nat) (register : Text)

/-- A call of the registration function as messages show it. -/
def shownCall (register : Text) : String :=
  String.ofList register ++ "(\x7b...\x7d)"

/-- The report on functions without a declaration. -/
def missingMessage (moduleId : Text) (functions : Nat) (register : Text) : String :=
  s!"{Scope.shownModule moduleId} needs {functions} synthesized binding function(s) but no " ++
    shownCall register ++ " declaration was found"

/-- A fault in words. -/
def Fault.message : Fault → String
  | .markup fault => fault.message
  | .stopped obstacle => obstacle.message
  | .missingDeclaration moduleId functions register =>
    missingMessage moduleId functions register

/-- The warning about functions without a declaration where that is no fault. -/
def notInjectedMessage (scope : Scope) (register : Text) : String :=
  s!"No {shownCall register} declaration for {Scope.shownModule scope.moduleId}; " ++
    s!"{scope.functions.length} computed binding(s) were not injected"

/-- The note on a script that mentions a declaration and holds none. -/
def noCallMessage (register : Text) : String :=
  s!"No {shownCall register} call in script despite textual match"

/-- The note on a document that is left as it is. -/
def skippedMessage (filePath : Text) : String :=
  let place := if filePath.isEmpty then "<input>" else String.ofList filePath
  place ++ ": no <dom-module id=...>, skipping"

/-- The scope with a note for each script that was read in vain. -/
def noteMissed (register : Text) : Nat → Scope → Scope
  | 0, scope => scope
  | missed + 1, scope =>
    noteMissed register missed (scope.note .detail .injecting (noCallMessage register))

/-- The identifier of the first module in a document, if it has one that is not empty. -/
def moduleId? (document : Markup.Document) : Option Text :=
  let modules := document.nodes.filter (·.2.isNamed "dom-module".toList)
  (modules.head?.bind (·.2.tag?)).bind (·.filled? "id")

/-- Rewrites the bindings of a module; its scope then holds the generated functions. -/
def rewriteModule (declaration : Option Declaration) (document : Markup.Document) (scope : Scope) :
    Except Stop (Markup.Document × Scope) := do
  let declared := (declaration.map (·.properties)).getD []
  let scope ← ComponentState.collect document declared scope
  Rewrite.document document scope

/-- Brings the generated functions into the declaration.  Without one this is a fault in strict
mode and a warning else. -/
def place (options : Options) (declaration : Option Declaration) (document : Markup.Document)
    (scope : Scope) : Except Fault Result × List Journal.Entry :=
  let finish (document : Markup.Document) (scope : Scope) :=
    (Except.ok (Result.ofModule document scope), scope.journal)
  if scope.functions.isEmpty then finish document scope
  else
    match declaration with
    | some declaration =>
      let (document, scope) := declaration.inject document scope
      finish document scope
    | none =>
      if options.strict then
        (.error (.missingDeclaration scope.moduleId scope.functions.length options.register),
          scope.journal)
      else
        finish document
          (scope.report .missingDeclaration (notInjectedMessage scope options.register) [])

/-- Transforms the module of a document. -/
def transformModule (options : Options) (filePath moduleId : Text) (document : Markup.Document) :
    Except Fault Result × List Journal.Entry :=
  let (declaration, missed) := Declaration.locate document options.register
  let scope := noteMissed options.register missed (Scope.ofOptions moduleId options filePath)
  match rewriteModule declaration document scope with
  | .error stop => (.error (.stopped stop.obstacle), stop.scope.journal)
  | .ok (document, scope) => place options declaration document scope

end Transform

/-- Transforms a text, which is known under a path, and keeps a journal. -/
def transform (options : Options) (filePath : Text) (t : Text) :
    Except Transform.Fault Transform.Result × List Journal.Entry :=
  match Markup.Document.parse t with
  | .error fault => (.error (.markup fault), [])
  | .ok document =>
    match Transform.moduleId? document with
    | none =>
      (.ok (.unchanged t), [⟨.detail, .transforming, Transform.skippedMessage filePath⟩])
    | some moduleId => Transform.transformModule options filePath moduleId document

end DataBinding
