/-
# References

What an expression reads: the dotted paths in it, each with its place.  A chain of named members
over an identifier is one path; at a computed or an optional member the path ends, and a method
keeps its receiver as the path instead of itself.
-/
import DataBinding.Expression.Basic
import DataBinding.Expression.Path

namespace DataBinding

/-- One place where an expression reads a path. -/
structure Reference where
  path : Text
  span : Span
  deriving DecidableEq, Repr

namespace Reference

/-- The identifier that the path starts at. -/
def root (r : Reference) : Text :=
  Path.root r.path

end Reference

namespace Expr

/-- The name of the object that an expression belongs to. -/
def thisName : Text :=
  "this".toList

/-- The dotted path of an identifier, of `this`, or of a chain of named members over one. -/
def path? : Expr → Option Text
  | identifier _ name => some name
  | this _ => some thisName
  | member _ object property false => (path? object).map fun head => head ++ '.' :: property
  | _ => none

mutual

/-- The references of an expression in source order. -/
def references (e : Expr) : List Reference :=
  match path? e with
  | some path => if path == thisName then [] else [⟨path, e.span⟩]
  | none =>
    match e with
    | identifier _ _ | this _ | literal _ _ => []
    | member _ object _ _ => references object
    | index _ object position _ => references object ++ references position
    | call _ (member _ object _ _) arguments => references object ++ referencesAll arguments
    | call _ callee arguments => references callee ++ referencesAll arguments
    | unary _ _ argument => references argument
    | binary _ _ left right => references left ++ references right
    | conditional _ test consequent alternate =>
      references test ++ references consequent ++ references alternate
    | array _ elements => referencesAll elements

/-- The references of several expressions in order. -/
def referencesAll : List Expr → List Reference
  | [] => []
  | e :: es => references e ++ referencesAll es

end

/-- The distinct paths of an expression, in the order of their first references. -/
def paths (e : Expr) : List Text :=
  (e.references.map (·.path)).eraseDups

end Expr
end DataBinding
