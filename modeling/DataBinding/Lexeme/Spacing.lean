/-
# Spacing between tokens

Script text separates its tokens by blanks and comments.  This file says which characters are blanks
and how far a comment reaches.  A second, smaller class of *wide* blanks matters where a token is
recognised by what stands directly before it: the mark of a conditional, and the end of a statement
without a semicolon.
-/
import DataBinding.Text.Basic

namespace DataBinding.Lexeme

/-! ## Blanks -/

/-- A line end that closes a line comment and may end a statement. -/
def isLineEnd (c : Char) : Bool :=
  c == '\n' || c == '\u2028' || c == '\u2029'

/-- A wide blank: white space at which a line may be broken. -/
def isWide (c : Char) : Bool :=
  let n := c.toNat
  (0x09 ≤ n && n ≤ 0x0D) || n == 0x20 || n == 0x1680 || (0x2000 ≤ n && n ≤ 0x2006) ||
    (0x2008 ≤ n && n ≤ 0x200A) || n == 0x2028 || n == 0x2029 || n == 0x205F || n == 0x3000

/-- A blank between tokens: white space and the invisible joining characters. -/
def isSpacing (c : Char) : Bool :=
  let n := c.toNat
  isWide c || n == 0xA0 || n == 0x2007 || n == 0x202F || n == 0xFEFF || n == 0x2060 || n == 0x200B

/-! ## Comments -/

/-- The number of characters up to the end of a block comment, its closing mark included. -/
def blockEnd? : Text → Option Nat
  | [] => none
  | '*' :: '/' :: _ => some 2
  | _ :: t => (blockEnd? t).map (· + 1)

/-- The number of characters on the rest of a line. -/
def lineLength (t : Text) : Nat :=
  (t.takeWhile fun c => !(isLineEnd c || c == '\r')).length

/-- The length of the comment at the head of a text. -/
def comment? : Text → Option Nat
  | '/' :: '/' :: t => some (2 + lineLength t)
  | '/' :: '*' :: t => (blockEnd? t).map (· + 2)
  | _ => none

/-- The length of a line that is set aside by the comment marks of markup.  Such a line is read only
where an operand may start. -/
def markupRemark? : Text → Option Nat
  | '<' :: '!' :: '-' :: '-' :: t => some (4 + (t.takeWhile (!isLineEnd ·)).length)
  | '-' :: '-' :: '>' :: t => some (3 + (t.takeWhile (!isLineEnd ·)).length)
  | _ => none

end DataBinding.Lexeme
