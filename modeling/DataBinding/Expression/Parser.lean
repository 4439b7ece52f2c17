/-
# Reading expressions

`parse?` reads a token list as one expression.  It keeps a stack of started constructs, each waiting
for an operand, and takes one token at a time: an operator first completes the constructs that take
the operand before it, and a closing mark completes all of them up to the bracket it closes.  An
operand also carries the number of nesting levels below it, where a pair of parentheses counts as a
level although it leaves no expression.
-/
import DataBinding.Expression.Token

namespace DataBinding.Expression

/-! ## Operands -/

/-- An expression with the span of its text, parentheses around it included, and the number of
levels below its outermost one. -/
structure Operand where
  expr : Expr
  span : Span
  levels : Nat

namespace Operand

/-- An operand without parts. -/
def leaf (expr : Expr) : Operand :=
  ⟨expr, expr.span, 0⟩

/-- The levels of a construct with the given parts. -/
def above (parts : List Operand) : Nat :=
  parts.foldl (fun n part => max n part.levels) 0 + 1

/-- An operand that is a construct with parts. -/
def compound (expr : Expr) (parts : List Operand) : Operand :=
  ⟨expr, expr.span, above parts⟩

/-- The operand in parentheses. -/
def parenthesized (span : Span) (inner : Operand) : Operand :=
  ⟨inner.expr, span, inner.levels + 1⟩

/-- A unary operation. -/
def unary (op : UnaryOperator) (start : Nat) (argument : Operand) : Operand :=
  compound (.unary ⟨start, argument.span.stop⟩ op argument.expr) [argument]

/-- A binary operation. -/
def binary (op : BinaryOperator) (left right : Operand) : Operand :=
  compound (.binary ⟨left.span.start, right.span.stop⟩ op left.expr right.expr) [left, right]

/-- A conditional. -/
def conditional (test consequent alternate : Operand) : Operand :=
  compound
    (.conditional ⟨test.span.start, alternate.span.stop⟩ test.expr consequent.expr alternate.expr)
    [test, consequent, alternate]

/-- Access to a named member. -/
def member (object : Operand) (name : Text) (stop : Nat) (optional : Bool) : Operand :=
  compound (.member ⟨object.span.start, stop⟩ object.expr name optional) [object]

/-- Access by a computed position. -/
def index (object position : Operand) (stop : Nat) (optional : Bool) : Operand :=
  compound (.index ⟨object.span.start, stop⟩ object.expr position.expr optional)
    [object, position]

/-- A call. -/
def call (callee : Operand) (arguments : List Operand) (stop : Nat) : Operand :=
  compound (.call ⟨callee.span.start, stop⟩ callee.expr (arguments.map (·.expr)))
    (callee :: arguments)

/-- An array. -/
def array (elements : List Operand) (span : Span) : Operand :=
  compound (.array span (elements.map (·.expr))) elements

/-- The operand is the bare word `await`, which is a name only where no operand can follow it. -/
def isAwait (o : Operand) : Bool :=
  match o.expr with
  | .identifier span name => name == "await".toList && o.span == span
  | _ => false

end Operand

/-! ## Started constructs -/

/-- A construct that waits for an operand.  Items of lists are kept last first. -/
inductive Frame where
  | unary (op : UnaryOperator) (start : Nat)
  | binary (op : BinaryOperator) (left : Operand)
  | consequent (test : Operand)
  | alternate (test consequent : Operand)
  | paren (start : Nat)
  | array (start : Nat) (elements : List Operand)
  | arguments (callee : Operand) (arguments : List Operand)
  | index (object : Operand) (optional : Bool)

/-- Completes the operations that take the operand from an operator of rank `next`. -/
def settle (next : Nat) : List Frame → Operand → List Frame × Operand
  | .unary op start :: frames, last => settle next frames (.unary op start last)
  | .binary op left :: frames, last =>
    if op.holdsAgainst next then settle next frames (.binary op left last)
    else (.binary op left :: frames, last)
  | frames, last => (frames, last)

/-- Completes all constructs up to the innermost bracket or the first half of a conditional. -/
def close : List Frame → Operand → List Frame × Operand
  | .unary op start :: frames, last => close frames (.unary op start last)
  | .binary op left :: frames, last => close frames (.binary op left last)
  | .alternate test consequent :: frames, last =>
    close frames (.conditional test consequent last)
  | frames, last => (frames, last)

/-! ## Taking tokens -/

/-- Where the reading stands: before an operand, behind one, before a member's name, or behind the
mark of an optional access. -/
inductive State where
  | operand (frames : List Frame)
  | operator (frames : List Frame) (last : Operand)
  | property (frames : List Frame) (object : Operand) (optional : Bool)
  | chain (frames : List Frame) (object : Operand)

/-- A word as an operand, unless it is reserved for something else. -/
def wordOperand? (name : Text) (span : Span) : Option Operand :=
  if name == "this".toList then some (.leaf (.this span))
  else if ["true", "false", "null"].contains (String.ofList name) then
    some (.leaf (.literal span name))
  else if Lexeme.isReserved name then none
  else some (.leaf (.identifier span name))

/-- A sign before an operand. -/
def signOperator? : BinaryOperator → Option UnaryOperator
  | .add => some .plus
  | .subtract => some .minus
  | _ => none

/-- A line set aside may stand inside an operation, but not as an item of a bracket. -/
def allowsRemark : List Frame → Bool
  | .unary _ _ :: _ | .binary _ _ :: _ | .consequent _ :: _ | .alternate _ _ :: _
  | .index _ _ :: _ => true
  | _ => false

/-- A token where an operand must come.  Empty places in arrays and arguments are passed over. -/
def stepOperand (frames : List Frame) (token : Token) : Option State :=
  match token.shape with
  | .word name => (wordOperand? name token.span).map (.operator frames)
  | .literal raw => some (.operator frames (.leaf (.literal token.span raw)))
  | .remark => if allowsRemark frames then some (.operand frames) else none
  | .mark (.unary op) => some (.operand (.unary op token.span.start :: frames))
  | .mark (.binary op) =>
    (signOperator? op).map fun sign => .operand (.unary sign token.span.start :: frames)
  | .mark .openParen => some (.operand (.paren token.span.start :: frames))
  | .mark .openBracket => some (.operand (.array token.span.start [] :: frames))
  | .mark .comma =>
    match frames with
    | .array _ _ :: _ | .arguments _ _ :: _ => some (.operand frames)
    | _ => none
  | .mark .closeParen =>
    match frames with
    | .arguments callee arguments :: frames =>
      some (.operator frames (.call callee arguments.reverse token.span.stop))
    | _ => none
  | .mark .closeBracket =>
    match frames with
    | .array start elements :: frames =>
      some (.operator frames (.array elements.reverse ⟨start, token.span.stop⟩))
    | _ => none
  | _ => none

/-- A mark behind a bare `await` that starts an operand instead. -/
def startsOperand : Mark → Bool
  | .openParen | .openBracket | .binary .add | .binary .subtract => true
  | _ => false

/-- A mark behind an operand. -/
def stepMark (frames : List Frame) (last : Operand) (m : Mark) (span : Span) : Option State :=
  match m with
  | .dot => some (.property frames last false)
  | .chain => some (.chain frames last)
  | .openParen => some (.operand (.arguments last [] :: frames))
  | .openBracket => some (.operand (.index last false :: frames))
  | .binary op =>
    let (frames, left) := settle op.rank frames last
    some (.operand (.binary op left :: frames))
  | .question =>
    let (frames, test) := settle 0 frames last
    some (.operand (.consequent test :: frames))
  | .colon =>
    match close frames last with
    | (.consequent test :: frames, last) => some (.operand (.alternate test last :: frames))
    | _ => none
  | .comma =>
    match close frames last with
    | (.array start elements :: frames, last) =>
      some (.operand (.array start (last :: elements) :: frames))
    | (.arguments callee arguments :: frames, last) =>
      some (.operand (.arguments callee (last :: arguments) :: frames))
    | _ => none
  | .closeParen =>
    match close frames last with
    | (.paren start :: frames, last) =>
      some (.operator frames (.parenthesized ⟨start, span.stop⟩ last))
    | (.arguments callee arguments :: frames, last) =>
      some (.operator frames (.call callee (last :: arguments).reverse span.stop))
    | _ => none
  | .closeBracket =>
    match close frames last with
    | (.array start elements :: frames, last) =>
      some (.operator frames (.array (last :: elements).reverse ⟨start, span.stop⟩))
    | (.index object optional :: frames, last) =>
      some (.operator frames (.index object last span.stop optional))
    | _ => none
  | .unary _ => none

/-- One token. -/
def step (state : State) (token : Token) : Option State :=
  match state with
  | .operand frames => stepOperand frames token
  | .operator frames last =>
    match token.shape with
    | .mark m =>
      if last.isAwait && startsOperand m then none else stepMark frames last m token.span
    | _ => none
  | .property frames object optional =>
    match token.shape with
    | .word name => some (.operator frames (.member object name token.span.stop optional))
    | .remark => some state
    | _ => none
  | .chain frames object =>
    match token.shape with
    | .word name => some (.operator frames (.member object name token.span.stop true))
    | .mark .openBracket => some (.operand (.index object true :: frames))
    | .remark => some state
    | _ => none

/-- The operand that was read, if nothing is left open. -/
def State.finish? : State → Option Operand
  | .operator frames last =>
    match close frames last with
    | ([], last) => some last
    | _ => none
  | _ => none

/-- Reads tokens as one operand. -/
def parse? (tokens : List Token) : Option Operand :=
  (tokens.foldlM step (.operand [])).bind State.finish?

/-- Reads a text as one operand. -/
def read? (t : Text) : Option Operand :=
  (tokens? t).bind parse?

end DataBinding.Expression
