/-
# Quotations

A quotation is a string in single or double quotes with backslash escapes.  A raw line end closes
its contents: only blanks and comments may follow, up to the closing quote or to a comment after
which contents resume.
-/
import DataBinding.Lexeme.Word

namespace DataBinding.Lexeme

/-! ## Escapes -/

/-- The length of an escape after its backslash. -/
def escape? : Text → Option Nat
  | 'x' :: a :: b :: _ => if isHexDigit a && isHexDigit b then some 3 else none
  | c :: t =>
    if c == 'u' then characterCode? (c :: t)
    else if c == 'x' then none
    else if (c == '\r' || c == '?') && (t.head?.map isLineEnd).getD false then some 2
    else some 1
  | [] => none

/-! ## Quotations -/

/-- The number of characters up to the closing quote, which is included.  The first `skip` are part
of an escape or a comment, and `live` says that contents may stand here. -/
def quotationRest (quote : Char) : (skip : Nat) → (live : Bool) → Text → Option Nat
  | _, _, [] => none
  | skip + 1, live, _ :: t => (quotationRest quote skip live t).map (· + 1)
  | 0, true, c :: t =>
    if c == quote then some 1
    else if c == '\\' then
      match escape? t with
      | some n => (quotationRest quote n true t).map (· + 1)
      | none => none
    else (quotationRest quote 0 (c != '\r' && c != '\n') t).map (· + 1)
  | 0, false, c :: t =>
    if c == quote then some 1
    else if isSpacing c then (quotationRest quote 0 false t).map (· + 1)
    else
      match comment? (c :: t) with
      | some n => (quotationRest quote (n - 1) true t).map (· + 1)
      | none => none

/-- The length of the quotation at the head of a text. -/
def quotation? : Text → Option Nat
  | c :: t => if c == '"' || c == '\'' then (quotationRest c 0 true t).map (· + 1) else none
  | [] => none

end DataBinding.Lexeme
