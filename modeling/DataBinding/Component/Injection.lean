/-
# Injection of functions

The generated functions become the first members of the object literal that declares the component,
between two marking lines.  Nothing else of the script changes.
-/
import DataBinding.Component.Declaration
import DataBinding.Scope.Basic

namespace DataBinding

/-- The text with another one put in at a byte, which must not lie inside a character. -/
def Text.insertAt (t : Text) (offset : Nat) (inserted : Text) : Text :=
  match t, offset with
  | t, 0 => inserted ++ t
  | [], _ + 1 => inserted
  | c :: t, offset + 1 => c :: insertAt t (offset + 1 - c.utf8Size) inserted

namespace Injection

/-- The lines that are injected for a scope's functions. -/
def lines (scope : Scope) : List Text :=
  "//### auto-generated *Computed Bindings*".toList ::
    (scope.functions.map (·.property) ++ ["//###".toList])

/-- The injected text, on lines of its own. -/
def render (scope : Scope) : Text :=
  '\n' :: (Text.join ['\n'] (lines scope) ++ ['\n'])

/-- The report on a script with unreadable parts. -/
def syntaxMessage (scope : Scope) : String :=
  s!"Declaration script of {Scope.shownModule scope.moduleId} contains syntax errors"

/-- The report on a declaration of another component than the document's. -/
def mismatchMessage (scope : Scope) (componentId : Option Text) : String :=
  let found := (componentId.map String.ofList).getD "None"
  s!"Unexpected DOM module: {String.ofList scope.moduleId} with Polymer component: {found}"

/-- The note on a completed injection. -/
def injectedMessage (scope : Scope) : String :=
  s!"Injected {scope.functions.length} computed binding(s) into " ++
    Scope.shownModule scope.moduleId

/-- The scope with reports on what is suspicious about a declaration. -/
def inspect (declaration : Declaration) (scope : Scope) : Scope :=
  let scope :=
    if declaration.hasErrors then scope.report .scriptSyntax (syntaxMessage scope) [] else scope
  if declaration.componentId == some scope.moduleId then scope
  else scope.report .moduleMismatch (mismatchMessage scope declaration.componentId) []

/-- A text node with the functions of a scope injected at a byte. -/
def intoNode (insertAt : Nat) (scope : Scope) : Markup.Node → Markup.Node
  | .text t => .text (t.insertAt insertAt (render scope))
  | node => node

end Injection

namespace Declaration

/-- Inspects a declaration and injects the functions of a scope, if there are any. -/
def inject (declaration : Declaration) (document : Markup.Document) (scope : Scope) :
    Markup.Document × Scope :=
  let scope := Injection.inspect declaration scope
  if scope.functions.isEmpty then (document, scope)
  else
    (document.modifyNode declaration.address (Injection.intoNode declaration.insertAt scope),
      scope.note .detail .injecting (Injection.injectedMessage scope))

end Declaration
end DataBinding
