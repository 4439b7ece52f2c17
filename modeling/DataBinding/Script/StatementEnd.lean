/-
# Ends of statements

A statement ends at a semicolon, or without one at the end of a block or of the script, or at a line
end that the next token cannot continue.
-/
import DataBinding.Script.Reader

namespace DataBinding.Script

/-! ## Looking over comments -/

/-- What a look over blanks and comments found. -/
inductive Gap where
  | refused
  | sameLine (rest : Text)
  | clear (rest : Text)

/-- The text after a block comment's opening, and whether the comment holds a line end. -/
def pastBlock (broken : Bool) : Text → Bool × Text
  | [] => (broken, [])
  | '*' :: '/' :: t => (broken, t)
  | c :: t => pastBlock (broken || Lexeme.isLineEnd c) t

/-- Looks over blanks and comments.  Unless `through` is set the look stops behind the first block
comment that no slash follows. -/
def lookOver (through : Bool) : (fuel : Nat) → Text → Gap
  | 0, _ => .refused
  | fuel + 1, t =>
    match t.dropWhile Lexeme.isWide with
    | '/' :: '/' :: t => lookOver through fuel (t.dropWhile (!Lexeme.isLineEnd ·))
    | '/' :: '*' :: t =>
      let (broken, t) := pastBlock false t
      if !through && t.head? != some '/' then
        if broken then .clear t else .sameLine t
      else lookOver through fuel t
    | '/' :: _ => .refused
    | t => .clear t

/-! ## The end of a line -/

/-- The token at the head of the next line does not continue the statement. -/
def startsStatement : Text → Bool
  | '.' :: t => (t.head?.map Char.isDigit).getD false
  | '+' :: t => t.head? == some '+'
  | '-' :: t => t.head? == some '-'
  | '!' :: t => t.head? != some '='
  | 'i' :: 'n' :: t =>
    if !(t.head?.map Char.isAlpha).getD false then false
    else
      match Text.dropLead? "stanceof".toList t with
      | some t => (t.head?.map Char.isAlpha).getD false
      | none => true
  | c :: _ => !("\x60,:;*%></=[(?^|&".toList.contains c)
  | [] => true

/-- The text is at the end of a block, a script or a line, or `beyond` holds past a blank. -/
def atEnd (beyond : Text → Bool) : Text → Bool
  | [] => true
  | c :: t =>
    if c == '\x7d' then true
    else if Lexeme.isLineEnd c then
      match lookOver true (t.length + 2) t with
      | .clear rest => startsStatement rest
      | _ => false
    else if Lexeme.isWide c then beyond t
    else false

/-- The statement ends without a semicolon directly behind the last token or comment.  `closed` says
that no operator could follow there, so that a comment may end it too. -/
def endsBefore (closed : Bool) : (fuel : Nat) → Text → Bool
  | 0, _ => false
  | fuel + 1, '/' :: t =>
    match lookOver false (t.length + 2) ('/' :: t) with
    | .refused => false
    | .clear rest =>
      closed && rest.head? != some ',' && rest.head? != some '=' ||
        atEnd (endsBefore closed fuel) rest
    | .sameLine rest => atEnd (endsBefore closed fuel) rest
  | fuel + 1, t => atEnd (endsBefore closed fuel) t

/-- The statement ends without a semicolon, here or behind one of the comments that follow. -/
def endsHere (closed : Bool) : (fuel : Nat) → Text → Bool
  | 0, _ => false
  | fuel + 1, t =>
    endsBefore closed (t.length + 2) t ||
      let t := t.dropWhile Lexeme.isSpacing
      match Lexeme.comment? t with
      | some n => endsHere closed fuel (t.drop n)
      | none => false

namespace Reader

/-- The statement ends here without a semicolon. -/
def atStatementEnd (closed : Bool) : Reader Bool := do
  let rest := (← get).rest
  return endsHere closed (rest.length + 1) rest

/-- Takes the end of a statement. -/
def endStatement (closed : Bool) : Reader Unit := do
  unless ← atStatementEnd closed do expect ";"

end Reader
end DataBinding.Script
