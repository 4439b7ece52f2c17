/-
# Kinds of bindings

Bindings are evaluated natively only in three forms: a path, a call of a named function, and either
of them negated.  A two-way binding also writes to its target, which a call does not offer.
-/
import DataBinding.Expression.Basic

namespace DataBinding

/-- The forms of binding expressions. -/
inductive BindingKind where
  | propertyPath
  | computedCall
  | negatedPropertyPath
  | other
  deriving DecidableEq, Repr

namespace Expr

/-- An identifier, or a chain of named members over one. -/
def isPropertyPath : Expr → Bool
  | identifier _ _ => true
  | member _ object _ false => isPropertyPath object
  | _ => false

/-- A call of a named function. -/
def isComputedCall : Expr → Bool
  | call _ (identifier _ _) _ => true
  | _ => false

/-- A negated path or call. -/
def isNegated : Expr → Bool
  | unary _ .not argument => isPropertyPath argument || isComputedCall argument
  | _ => false

/-- The form of an expression. -/
def kind (e : Expr) : BindingKind :=
  if e.isPropertyPath then .propertyPath
  else if e.isComputedCall then .computedCall
  else if e.isNegated then .negatedPropertyPath
  else .other

end Expr

namespace BindingKind

/-- A binding of this form is evaluated natively in the given direction. -/
def isAdmissible (k : BindingKind) (twoWay : Bool) : Bool :=
  match k with
  | propertyPath | negatedPropertyPath => true
  | computedCall => !twoWay
  | other => false

/-- The form as it is written in answers. -/
def label : BindingKind → String
  | propertyPath => "property-path"
  | computedCall => "computed-call"
  | negatedPropertyPath => "negated-property-path"
  | other => "other"

end BindingKind
end DataBinding
