/-
# Tokens of binding expressions

`tokens?` cuts a text into the tokens of the expression language, each with its span in bytes.  It
fails on whatever no supported expression can hold.  What may come next decides how some characters
are read, so the cutting keeps track of it: an operand, an operator, or the name of a member.
-/
import DataBinding.Lexeme.Number
import DataBinding.Lexeme.Quotation
import DataBinding.Expression.Basic
import DataBinding.Text.Utf8

namespace DataBinding.Expression

/-! ## Tokens -/

/-- A punctuation mark of the expression language. -/
inductive Mark where
  | dot
  | chain
  | comma
  | question
  | colon
  | openParen
  | closeParen
  | openBracket
  | closeBracket
  | unary (op : UnaryOperator)
  | binary (op : BinaryOperator)
  deriving DecidableEq, Repr

/-- What a token is: a word, a number or a quotation as written, a mark, or a line set aside. -/
inductive Shape where
  | word (name : Text)
  | literal (raw : Text)
  | mark (m : Mark)
  | remark
  deriving DecidableEq, Repr

/-- A token with its span. -/
structure Token where
  shape : Shape
  span : Span
  deriving DecidableEq, Repr

/-- What may come next. -/
inductive Expecting where
  | operand
  | operator
  | name
  deriving DecidableEq, Repr

/-- What may come after a token. -/
def Expecting.next (now : Expecting) : Shape → Expecting
  | .word _ | .literal _ => .operator
  | .mark .dot | .mark .chain => .name
  | .mark .closeParen | .mark .closeBracket => .operator
  | .mark _ => .operand
  | .remark => now

/-! ## Reading one token -/

/-- The marks as written, longer ones before their beginnings.  Marks of the script language that
belong to no supported expression stand without a meaning. -/
def markTable : List (Text × Option Mark) :=
  let op (o : BinaryOperator) := (o.symbol.toList, some (Mark.binary o))
  let other (s : String) := (s.toList, none)
  [other ">>>=",
    op .identical, op .distinct, op .shiftRightZero, other "**=", other "<<=", other ">>=",
    other "&&=", other "||=", other "??=",
    op .equal, op .unequal, op .lessEqual, op .greaterEqual, op .shiftLeft, op .shiftRight,
    op .and, op .or, op .coalesce, op .power, other "++", other "--", other "+=", other "-=",
    other "*=", other "/=", other "%=", other "&=", other "|=", other "^=",
    ("?.".toList, some .chain),
    op .less, op .greater, op .add, op .subtract, op .multiply, op .divide, op .remainder,
    op .bitAnd, op .bitOr, op .bitXor,
    ("!".toList, some (.unary .not)), ("~".toList, some (.unary .complement)),
    (".".toList, some .dot), (",".toList, some .comma), ("?".toList, some .question),
    (":".toList, some .colon), ("(".toList, some .openParen), (")".toList, some .closeParen),
    ("[".toList, some .openBracket), ("]".toList, some .closeBracket)]

/-- The mark at the head of a text, with its length. -/
def markAt? (t : Text) : Option (Mark × Nat) :=
  match t with
  | '?' :: '.' :: d :: _ =>
    if d.isDigit then some (.question, 1) else some (.chain, 2)
  | _ =>
    match markTable.find? fun entry => t.startsWith entry.1 with
    | some (spelling, some m) => some (m, spelling.length)
    | _ => none

/-- The words that are operators before an operand. -/
def unaryWord? (word : Text) : Option UnaryOperator :=
  [UnaryOperator.typeof, .void, .delete].find? fun op => op.symbol.toList == word

/-- The words that are operators between operands. -/
def binaryWord? (word : Text) : Option BinaryOperator :=
  [BinaryOperator.instanceOf, .inside].find? fun op => op.symbol.toList == word

/-- The meaning of a word by its place. -/
def wordShape (now : Expecting) (word : Text) : Shape :=
  match now with
  | .name => .word word
  | .operand => ((unaryWord? word).map fun op => .mark (.unary op)).getD (.word word)
  | .operator => ((binaryWord? word).map fun op => .mark (.binary op)).getD (.word word)

/-- The token at the head of a text, with its length.  `wide` says that only wide blanks precede
it, which a line set aside and the mark of a conditional need. -/
def shapeAt? (now : Expecting) (wide : Bool) (t : Text) : Option (Shape × Nat) :=
  match if now != .operator && wide then Lexeme.markupRemark? t else none with
  | some n => if n < t.length then some (.remark, n) else none
  | none =>
    match Lexeme.number? t with
    | some n => some (.literal (t.take n), n)
    | none =>
      match Lexeme.quotation? t with
      | some n => some (.literal (t.take n), n)
      | none =>
        match Lexeme.word? t with
        | some n => some (wordShape now (t.take n), n)
        | none =>
          match markAt? t with
          | some (.question, n) => if wide then some (.mark .question, n) else none
          | some (m, n) => some (.mark m, n)
          | none => none

/-! ## Reading all tokens -/

/-- A line comment that runs to the end of the text, where it would hide what follows the text. -/
def isOpenComment (t : Text) (length : Nat) : Bool :=
  t.startsWith ['/', '/'] && length == t.length

/-- The tokens of a text whose first byte has the given position.  The first `skip` characters
belong to the token or comment before. -/
def tokensFrom : (skip position : Nat) → Expecting → (wide : Bool) → Text → Option (List Token)
  | _, _, _, _, [] => some []
  | skip + 1, position, now, wide, c :: t =>
    tokensFrom skip (position + c.utf8Size) now wide t
  | 0, position, now, wide, c :: t =>
    if Lexeme.isSpacing c then
      tokensFrom 0 (position + c.utf8Size) now (wide && Lexeme.isWide c) t
    else
      match Lexeme.comment? (c :: t) with
      | some n =>
        if isOpenComment (c :: t) n then none
        else tokensFrom (n - 1) (position + c.utf8Size) now true t
      | none =>
        match shapeAt? now wide (c :: t) with
        | some (shape, n) =>
          (tokensFrom (n - 1) (position + c.utf8Size) (now.next shape) true t).map
            (⟨shape, position, position + Text.byteLength ((c :: t).take n)⟩ :: ·)
        | none => none

/-- The tokens of a text, if it holds nothing but tokens of supported expressions. -/
def tokens? (t : Text) : Option (List Token) :=
  tokensFrom 0 0 .operand true t

end DataBinding.Expression
