/-
# Readers of script text

A reader takes constructs off the head of a script.  It stands at a place in the text, always
directly behind the last token; it moves on past the next token, or fails with the place of the
token that cannot be taken.  A failed reader moves nowhere, so another one can be tried instead.
-/
import DataBinding.Lexeme.Number
import DataBinding.Lexeme.Quotation
import DataBinding.Text.Utf8
import DataBinding.Script.Node

namespace DataBinding.Script

/-! ## Places -/

/-- A place in a script: the text ahead, the number of bytes before it, and whether an enclosing
bracket keeps statements from ending here. -/
structure Cursor where
  rest : Text
  position : Nat
  bracketed : Bool

/-- The place `n` characters ahead. -/
def Cursor.skip (c : Cursor) (n : Nat) : Cursor :=
  { c with rest := c.rest.drop n, position := c.position + Text.byteLength (c.rest.take n) }

/-- The number of blanks and comments ahead, in characters, and whether only wide blanks stand after
the last comment.  The first `skip` characters belong to a comment. -/
def gapLength : (skip : Nat) → (wide : Bool) → Text → Nat × Bool
  | _, wide, [] => (0, wide)
  | skip + 1, wide, _ :: t =>
    let (n, w) := gapLength skip wide t
    (n + 1, w)
  | 0, wide, c :: t =>
    if Lexeme.isSpacing c then
      let (n, w) := gapLength 0 (wide && Lexeme.isWide c) t
      (n + 1, w)
    else
      match Lexeme.comment? (c :: t) with
      | some k =>
        let (n, w) := gapLength (k - 1) true t
        (n + 1, w)
      | none => (0, wide)

/-- The place of the next token. -/
def Cursor.next (c : Cursor) : Cursor :=
  c.skip (gapLength 0 true c.rest).1

/-! ## Readers -/

/-- Reads something off a script, or fails with a place. -/
abbrev Reader := StateT Cursor (Except Nat)

namespace Reader

variable {α β : Type}

/-- Fails at the next token. -/
def refuse : Reader α := fun c => .error c.next.position

/-- The place of the next token. -/
def ahead : Reader Cursor := fun c => .ok (c.next, c)

/-- Moves to a place. -/
def moveTo (c : Cursor) : Reader Unit := fun _ => .ok ((), c)

/-- The first reader, or the second from the same place if the first one fails. -/
def orTry (first second : Reader α) : Reader α := fun c =>
  match first c with
  | .ok r => .ok r
  | .error place =>
    match second c with
    | .ok r => .ok r
    | .error later => .error (max place later)

/-- Runs a reader that, if it fails, fails at its first token. -/
def whole (reader : Reader α) : Reader α := fun c =>
  match reader c with
  | .ok r => .ok r
  | .error _ => .error c.next.position

/-- Runs a reader with the given bracketing, and restores it afterwards. -/
def withBrackets (bracketed : Bool) (reader : Reader α) : Reader α := do
  let outer := (← get).bracketed
  modify fun c => { c with bracketed }
  let a ← reader
  modify fun c => { c with bracketed := outer }
  pure a

/-- Repeats a step for as long as it gives something, at most `fuel` times. -/
def manyUpTo : (fuel : Nat) → Reader (Option α) → Reader (List α)
  | 0, _ => pure []
  | fuel + 1, step => do
    match ← step with
    | none => pure []
    | some a => (a :: ·) <$> manyUpTo fuel step

/-- Repeats a step that takes something off the text whenever it gives something. -/
def many (step : Reader (Option α)) : Reader (List α) := do
  manyUpTo ((← get).rest.length + 1) step

/-- Extends a value for as long as the step does, at most `fuel` times. -/
def extendUpTo : (fuel : Nat) → (α → Reader (Option α)) → α → Reader α
  | 0, _, a => pure a
  | fuel + 1, step, a => do
    match ← step a with
    | none => pure a
    | some b => extendUpTo fuel step b

/-- Extends a value by steps that take something off the text. -/
def extend (step : α → Reader (Option α)) (a : α) : Reader α := do
  extendUpTo ((← get).rest.length + 1) step a

/-! ## Tokens -/

/-- The next token starts with the given characters. -/
def startsWith (lead : String) : Reader Bool := do
  return (← ahead).rest.startsWith lead.toList

/-- Takes the given characters if the next token starts with them. -/
def take? (lead : String) : Reader Bool := do
  let c ← ahead
  if c.rest.startsWith lead.toList then
    moveTo (c.skip lead.length)
    return true
  else return false

/-- Takes the given characters. -/
def expect (lead : String) : Reader Unit := do
  unless ← take? lead do refuse

/-- The next token if it is a word. -/
def peekWord? : Reader (Option Text) := do
  let c ← ahead
  return (Lexeme.word? c.rest).map c.rest.take

/-- The next token is the given word. -/
def atWord (word : String) : Reader Bool := do
  return (← peekWord?) == some word.toList

/-- Takes the given word if it is next. -/
def takeWord? (word : String) : Reader Bool := do
  if ← atWord word then
    let c ← ahead
    moveTo (c.skip word.length)
    return true
  else return false

/-- Takes the given word. -/
def expectWord (word : String) : Reader Unit := do
  unless ← takeWord? word do refuse

/-- Takes the token ahead that has the given length. -/
def leaf (construct : Construct) (length : Nat) : Reader Node := do
  let c ← ahead
  let stop := c.skip length
  moveTo stop
  return .mk construct ⟨c.position, stop.position⟩ (c.rest.take length) []

/-- The span from the given byte to the last token. -/
def spanFrom (start : Nat) : Reader Span := do
  return ⟨start, (← get).position⟩

/-- A node from the given byte to the last token. -/
def nodeFrom (construct : Construct) (start : Nat) (parts : List Node) : Reader Node := do
  return .group construct (← spanFrom start) parts

/-- Takes the lines set aside before an operand. -/
def remarks : Reader (List Node) :=
  many do
    let c ← get
    let (n, wide) := gapLength 0 true c.rest
    let c := c.skip n
    match if wide then Lexeme.markupRemark? c.rest else none with
    | some length =>
      moveTo c
      some <$> leaf .remark length
    | none => pure none

end Reader
end DataBinding.Script
