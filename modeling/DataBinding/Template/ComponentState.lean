/-
# Learning component state

Which identifiers are component state is learned before anything is rewritten: the properties that
the component declares, and the roots of whatever a two-way binding may write to.
-/
import DataBinding.Binding.Kind
import DataBinding.Binding.Occurrence
import DataBinding.Expression.Diagnosis
import DataBinding.Expression.Reference
import DataBinding.Scope.Stop
import DataBinding.Template.Walk

namespace DataBinding

namespace Occurrence

/-- The expression of a binding, read without the blanks around it. -/
def read (o : Occurrence) : Except Expression.Fault Expr :=
  Expression.parse o.expression.trim

/-- The identifiers at the roots of what a two-way binding writes to.  A path with an accessor is no
expression, but starts with such an identifier too. -/
def writtenRoots (o : Occurrence) : List Text :=
  match o.read with
  | .ok e => if e.kind.isAdmissible true then e.paths.map Path.root else []
  | .error _ =>
    if Path.hasAccessor o.expression then (Path.leadingName? o.expression).toList else []

end Occurrence

namespace ComponentState

/-- The identifier can be component state: it is no name of a repeat, no global, and not the object
itself. -/
def mayHold (scope : Scope) (repeats : List Text) (identifier : Text) : Bool :=
  !(repeats.contains identifier || scope.isGlobal identifier || identifier == Expr.thisName)

/-- The component state that some bindings show: the roots of what the two-way ones write to. -/
def identifiersOf (found : List Occurrence) (repeats : List Text) (scope : Scope) : List Text :=
  ((found.filter (·.isTwoWay)).flatMap (·.writtenRoots)).filter (mayHold scope repeats)

/-- Learns the component state that a place shows, and leaves the place as it is.  A place without the
opening of a two-way binding shows none. -/
def visit : Attempt Stop Scope := fun site scope =>
  if Text.holds Direction.twoWay.opening site.text then
    match Occurrence.find site.raw site.text with
    | .error digits => .error ⟨.overlongReference digits, scope⟩
    | .ok found => .ok (none, scope.bindAll (identifiersOf found site.repeats scope))
  else .ok (none, scope)

/-- Learns the component state of a document whose component declares the given properties. -/
def collect (document : Markup.Document) (declared : List Text) (scope : Scope) :
    Except Stop Scope :=
  (document.attempt visit (scope.bindAll declared)).map (·.2)

end ComponentState
end DataBinding
