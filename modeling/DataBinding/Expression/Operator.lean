/-
# Operators

The operators of binding expressions.  Each binary operator has a `rank`; of two operators beside an
operand the one with the higher rank takes it, and of two with one rank the left one does, except
that powers group to the right.  Every unary operator ranks above every binary one.
-/

namespace DataBinding.Expression

/-- An operator with one operand. -/
inductive UnaryOperator where
  | not
  | complement
  | plus
  | minus
  | typeof
  | void
  | delete
  deriving DecidableEq, Repr

/-- An operator with two operands. -/
inductive BinaryOperator where
  | coalesce
  | or
  | and
  | bitOr
  | bitXor
  | bitAnd
  | equal
  | unequal
  | identical
  | distinct
  | less
  | lessEqual
  | greater
  | greaterEqual
  | instanceOf
  | inside
  | shiftLeft
  | shiftRight
  | shiftRightZero
  | add
  | subtract
  | multiply
  | divide
  | remainder
  | power
  deriving DecidableEq, Repr

namespace UnaryOperator

/-- The operator as written. -/
def symbol : UnaryOperator → String
  | not => "!"
  | complement => "~"
  | plus => "+"
  | minus => "-"
  | typeof => "typeof"
  | void => "void"
  | delete => "delete"

end UnaryOperator

namespace BinaryOperator

/-- The operator as written. -/
def symbol : BinaryOperator → String
  | coalesce => "??"
  | or => "||"
  | and => "&&"
  | bitOr => "|"
  | bitXor => "^"
  | bitAnd => "&"
  | equal => "=="
  | unequal => "!="
  | identical => "==="
  | distinct => "!=="
  | less => "<"
  | lessEqual => "<="
  | greater => ">"
  | greaterEqual => ">="
  | instanceOf => "instanceof"
  | inside => "in"
  | shiftLeft => "<<"
  | shiftRight => ">>"
  | shiftRightZero => ">>>"
  | add => "+"
  | subtract => "-"
  | multiply => "*"
  | divide => "/"
  | remainder => "%"
  | power => "**"

/-- How strongly the operator takes its operands. -/
def rank : BinaryOperator → Nat
  | coalesce => 0
  | or => 1
  | and => 2
  | bitOr => 3
  | bitXor => 4
  | bitAnd => 5
  | equal | unequal | identical | distinct => 6
  | less | lessEqual | greater | greaterEqual | instanceOf | inside => 7
  | shiftLeft | shiftRight | shiftRightZero => 8
  | add | subtract => 9
  | multiply | divide | remainder => 10
  | power => 11

/-- The operator chooses one of its operands by the value of the first. -/
def isLogical : BinaryOperator → Bool
  | coalesce | or | and => true
  | _ => false

/-- The operator at the left of an operand takes it from a following operator of rank `next`. -/
def holdsAgainst (op : BinaryOperator) (next : Nat) : Bool :=
  next < op.rank || (next == op.rank && op != power)

end BinaryOperator
end DataBinding.Expression
