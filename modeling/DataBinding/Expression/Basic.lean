/-
# Binding expressions

The expressions that a binding may hold: names, literals, member and index access, calls, unary and
binary operations, conditionals and arrays.  Every expression carries its span, in bytes of the
UTF-8 form of the text it was read from.  Parentheses leave no trace besides the spans of the
expressions that start with one.
-/
import DataBinding.Text.Basic
import DataBinding.Expression.Operator

namespace DataBinding

/-- A stretch of a text, in bytes. -/
structure Span where
  start : Nat
  stop : Nat
  deriving DecidableEq, Repr

/-- An expression with its span. -/
inductive Expr where
  | identifier (span : Span) (name : Text)
  | this (span : Span)
  | literal (span : Span) (raw : Text)
  | member (span : Span) (object : Expr) (property : Text) (optional : Bool)
  | index (span : Span) (object position : Expr) (optional : Bool)
  | call (span : Span) (callee : Expr) (arguments : List Expr)
  | unary (span : Span) (op : Expression.UnaryOperator) (argument : Expr)
  | binary (span : Span) (op : Expression.BinaryOperator) (left right : Expr)
  | conditional (span : Span) (test consequent alternate : Expr)
  | array (span : Span) (elements : List Expr)
  deriving Repr

namespace Expr

/-- The stretch of text that the expression was read from. -/
def span : Expr → Span
  | identifier s _ | this s | literal s _ | member s _ _ _ | index s _ _ _ | call s _ _
  | unary s _ _ | binary s _ _ _ | conditional s _ _ _ | array s _ => s

end Expr
end DataBinding
