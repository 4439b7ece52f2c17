/-
# Synthesis of computed bindings

A binding that is not evaluated natively is replaced by a call of a generated function.  The paths
that are rooted in component state or in a variable of an enclosing repeat become the arguments of
the call and the parameters of the function; all else stays in the function's body.
-/
import DataBinding.Expression.Reference
import DataBinding.Scope.Basic
import DataBinding.Synthesis.ParameterNames
import DataBinding.Synthesis.Rename
import DataBinding.Text.Blank

namespace DataBinding.Synthesis

/-- The reference is passed as an argument: its root is component state or one of the given names of
enclosing repeats. -/
def isKept (scope : Scope) (repeats : List Text) (r : Reference) : Bool :=
  scope.isBound r.root || repeats.contains r.root

/-- The distinct roots of references that are neither passed nor known as globals. -/
def unresolvedRoots (scope : Scope) (repeats : List Text) (references : List Reference) :
    List Text :=
  let free := (references.filter (!isKept scope repeats ·)).map (·.root)
  (free.filter fun root => root != Expr.thisName && !scope.isGlobal root).eraseDups

/-- The warning about an identifier that nothing declares. -/
def unresolvedMessage (scope : Scope) (root text : Text) : String :=
  s!"'{String.ofList root}' in [[{String.ofList text}]] is neither a declared property nor a " ++
    s!"repeat variable of {Scope.shownModule scope.moduleId}; treating it as a global"

/-- The scope with a warning for each unresolved root. -/
def reportUnresolved (scope : Scope) (roots : List Text) (text : Text) : Scope :=
  roots.foldl
    (fun s root => s.report .unresolvedIdentifier (unresolvedMessage scope root text) text) scope

/-- The parameters of a binding: each path that is passed, with its name. -/
def parameters (scope : Scope) (repeats : List Text) (references : List Reference) :
    List (Text × Text) :=
  let kept := references.filter (isKept scope repeats)
  let free := references.filter (!isKept scope repeats ·)
  ParameterNames.assign (kept.map (·.path)) scope.separator (free.map (·.root))

/-- The text of a binding with its passed paths renamed.  The spans of an expression's references
never cut a character apart, so the renamed text can always be read back. -/
def renamedBody (scope : Scope) (repeats : List Text) (references : List Reference) (text : Text) :
    Text :=
  let names := parameters scope repeats references
  let kept := references.filter (isKept scope repeats)
  let renamings := kept.map fun r => (⟨r.span, ParameterNames.nameOf names r.path⟩ : Renaming)
  (Renaming.applyAll text renamings).toOption.getD text

/-- The call of a function with the given arguments. -/
def callText (name : Text) (arguments : List Text) : Text :=
  name ++ ['('] ++ Text.join [','] arguments ++ [')']

/-- Generates the function for a binding, and gives the call that replaces its expression. -/
def synthesize (text : Text) (expression : Expr) (repeats : List Text) (scope : Scope) :
    Text × Scope :=
  let text := text.trim
  let references := expression.references
  let names := parameters scope repeats references
  let body := renamedBody scope repeats references text
  let scope := reportUnresolved scope (unresolvedRoots scope repeats references) text
  let (name, scope) := scope.nextFunctionName
  (callText name (names.map (·.1)), scope.addFunction ⟨name, names.map (·.2), body⟩)

end DataBinding.Synthesis
