/-
# Words

A word is an identifier or a keyword: a run of characters that are neither blanks nor marks, not
starting with a digit.  A character of a word may be written as a `\u` escape; escapes are kept as
written.  A reserved word is no identifier.
-/
import DataBinding.Lexeme.Spacing

namespace DataBinding.Lexeme

/-! ## Characters -/

/-- The marks, which end a word. -/
def marks : Text :=
  ":;\x60\"'@#.,|^&<=>+-*/\\%?!~()[]\x7b\x7d".toList

/-- A character that continues a word. -/
def isWordPart (c : Char) : Bool :=
  0x20 ≤ c.toNat && !isSpacing c && !marks.contains c

/-- A character that starts a word. -/
def isWordStart (c : Char) : Bool :=
  isWordPart c && !c.isDigit

/-- A hexadecimal digit. -/
def isHexDigit (c : Char) : Bool :=
  c.isDigit || ('a' ≤ c && c ≤ 'f') || ('A' ≤ c && c ≤ 'F')

/-- The length of a braced code after its opening brace, the closing brace included. -/
def bracedCode? (t : Text) : Option Nat :=
  let digits := (t.takeWhile isHexDigit).length
  if digits == 0 then none
  else if (t.drop digits).head? == some '\x7d' then some (digits + 1) else none

/-- The length of the character code that follows a backslash. -/
def characterCode? : Text → Option Nat
  | 'u' :: '\x7b' :: t => (bracedCode? t).map (· + 2)
  | 'u' :: a :: b :: c :: d :: _ => if [a, b, c, d].all isHexDigit then some 5 else none
  | _ => none

/-! ## Words -/

/-- The number of further characters of a word; the first `skip` are part of an escape. -/
def wordRest : (skip : Nat) → Text → Nat
  | _, [] => 0
  | skip + 1, _ :: t => 1 + wordRest skip t
  | 0, c :: t =>
    if isWordPart c then 1 + wordRest 0 t
    else if c == '\\' then
      match characterCode? t with
      | some n => 1 + wordRest n t
      | none => 0
    else 0

/-- The length of the word at the head of a text. -/
def word? : Text → Option Nat
  | [] => none
  | c :: t =>
    if isWordStart c then some (1 + wordRest 0 t)
    else if c == '\\' then (characterCode? t).map fun n => 1 + wordRest n t
    else none

/-! ## Reserved words -/

/-- The words that are never identifiers. -/
def reservedWords : List Text :=
  ["break", "case", "catch", "class", "const", "continue", "debugger", "default", "delete", "do",
    "else", "extends", "false", "finally", "for", "function", "if", "import", "in", "instanceof",
    "new", "null", "return", "super", "switch", "this", "throw", "true", "try", "typeof", "var",
    "void", "while", "with", "yield"].map String.toList

/-- The word is reserved. -/
def isReserved (word : Text) : Bool :=
  reservedWords.contains word

end DataBinding.Lexeme
