/-
# Rewriting bindings

Each binding of a place is judged by itself: it is kept, reported and kept, or computed, which
replaces it by a call of a generated function.  Bindings are taken from left to right, and one that
starts inside another is passed over.  A binding that cannot be judged stops all that follows.
-/
import DataBinding.Synthesis.Basic
import DataBinding.Template.ComponentState

namespace DataBinding.Rewrite

/-! ## One binding -/

/-- What becomes of a binding. -/
inductive Verdict where
  | keep
  | invalid (cause : Expression.Cause)
  | inadmissible
  | compute (expression : Expr)

/-- The verdict on a binding, unless there is no room to read it.  A text that is no expression is kept
if it is legitimate otherwise; an expression is kept if it is evaluated natively, and else computed,
for which a two-way binding has no use. -/
def judge (room : Nat) (o : Occurrence) : Except Text.Json.Bracket Verdict :=
  match o.read with
  | .error fault => do
    if ← o.isLiteral room then return .keep
    return .invalid fault.cause
  | .ok e =>
    if e.kind.isAdmissible o.isTwoWay then .ok .keep
    else if o.isTwoWay then .ok .inadmissible
    else .ok (.compute e)

/-- The report on a binding that is no expression. -/
def invalidMessage (o : Occurrence) (cause : Expression.Cause) : String :=
  s!"Invalid data binding expression {String.ofList o.written}: {cause.message}"

/-- The report on a two-way binding that would have to be computed. -/
def inadmissibleMessage (o : Occurrence) : String :=
  s!"Complex expression {String.ofList o.written} is not allowed in a two-way binding; " ++
    "use a property path or [[...]]"

/-- The note on a binding that was replaced by a call. -/
def computedMessage (o : Occurrence) (call : Text) : String :=
  s!"{String.ofList o.written} -> [[{String.ofList call}]]"

/-- The text that stands in for a binding by the verdict on it, and the scope behind it. -/
def carryOut (repeats : List Text) (o : Occurrence) (scope : Scope) : Verdict → Text × Scope
  | .keep => (o.written, scope)
  | .invalid cause =>
    (o.written, scope.report .invalidExpression (invalidMessage o cause) o.expression)
  | .inadmissible =>
    (o.written, scope.report .twoWayNotAdmissible (inadmissibleMessage o) o.expression)
  | .compute expression =>
    let (call, scope) := Synthesis.synthesize o.expression expression repeats scope
    (o.render call, scope.note .detail .rewriting (computedMessage o call))

/-- The text that stands in for a binding, and the scope behind it, unless there is no room to judge
the binding. -/
def process (repeats : List Text) (o : Occurrence) (scope : Scope) : Except Stop (Text × Scope) :=
  match judge scope.room o with
  | .error bracket => .error ⟨.noRoom bracket, scope⟩
  | .ok verdict => .ok (carryOut repeats o scope verdict)

/-! ## All bindings of a place -/

/-- The bindings that are processed when everything before `position` is done with. -/
def selectFrom (position : Nat) : List Occurrence → List Occurrence
  | [] => []
  | o :: os => if o.start < position then selectFrom position os else o :: selectFrom o.stop os

/-- The text from `position` on with its bindings processed. -/
def rewriteFrom (repeats : List Text) (position : Nat) (t : Text) :
    List Occurrence → Scope → Except Stop (Text × Scope)
  | [], scope => .ok (t, scope)
  | o :: os, scope => do
    let (replacement, scope) ← process repeats o scope
    let (rest, scope) ← rewriteFrom repeats o.stop (t.drop (o.stop - position)) os scope
    return (t.take (o.start - position) ++ replacement ++ rest, scope)

/-- Processes the bindings of a place, which is left as it is if it has no opening of one. -/
def visit : Attempt Stop Scope := fun site scope =>
  if Occurrence.mayHold site.text then
    match Occurrence.find site.raw site.text with
    | .error digits => .error ⟨.overlongReference digits, scope⟩
    | .ok found =>
      (rewriteFrom site.repeats 0 site.text (selectFrom 0 found) scope).map fun (t, scope) =>
        (some t, scope)
  else .ok (none, scope)

/-- Rewrites the bindings of a document. -/
def document (document : Markup.Document) (scope : Scope) :
    Except Stop (Markup.Document × Scope) :=
  document.attempt visit scope

end DataBinding.Rewrite
