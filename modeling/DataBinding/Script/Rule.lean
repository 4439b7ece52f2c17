/-
# Rules of the script grammar

The grammar is a family of readers, one for each rule, that call one another.  Every production is
written against a given family, and the family itself is tied together in one place by a bound on
the depth of calls.
-/
import DataBinding.Script.StatementEnd

namespace DataBinding.Script

/-- The rules that productions call: expressions separated by commas, an expression whose operators
have at least a rank, an operand of an operator, the target of an assignment, the callee of `new`, a
pattern that binds names, an element of markup, and a statement. -/
inductive Rule where
  | sequence
  | expression (rank : Nat)
  | operand
  | target
  | constructed
  | pattern
  | element
  | statement

/-- A reader for each rule. -/
abbrev Grammar := Rule → Reader Node

namespace Reader

/-- Takes the mark of an assignment if it is next. -/
def takeAssign? : Reader Bool := do
  let c ← ahead
  match c.rest with
  | '=' :: '=' :: _ | '=' :: '>' :: _ => return false
  | '=' :: _ =>
    moveTo (c.skip 1)
    return true
  | _ => return false

/-- Takes an identifier. -/
def identifier : Reader Node := do
  match ← peekWord? with
  | some word =>
    if Lexeme.isReserved word then refuse
    else leaf (if word == "undefined".toList then .undefined else .identifier) word.length
  | none => refuse

/-- Takes a quotation. -/
def quotation : Reader Node := do
  match Lexeme.quotation? (← ahead).rest with
  | some n => leaf .string n
  | none => refuse

/-- Takes any word as a name. -/
def anyWord (construct : Construct) : Reader Node := do
  match ← peekWord? with
  | some word => leaf construct word.length
  | none => refuse

/-- Takes a private name. -/
def privateName : Reader Node := do
  let c ← ahead
  match c.rest with
  | '#' :: t =>
    match Lexeme.word? t with
    | some n => leaf .privateName (n + 1)
    | none => refuse
  | _ => refuse

/-- Items between brackets, separated by commas; places may be empty.  Lines set aside are kept as
items.  Stands behind the opening bracket and takes the closing one. -/
def items (closer : String) (item : Reader Node) : Reader (List Node) := do
  let groups ← many do
    let set ← remarks
    if !set.isEmpty then return some set
    else if ← startsWith closer then return none
    else if ← take? "," then return some []
    else
      let node ← item
      unless (← startsWith ",") || (← startsWith closer) do refuse
      return some [node]
  expect closer
  return groups.flatten

/-- One or more items separated by commas. -/
def separated (item : Reader Node) : Reader (List Node) := do
  let first ← item
  let rest ← many do
    if ← take? "," then some <$> item else return none
  return first :: rest

/-- A part that is there if its mark is. -/
def optionalPart (mark : Reader Bool) (part : Reader Node) : Reader (List Node) := do
  if ← mark then return [← part] else return []

/-- The value behind three dots. -/
def spread (g : Grammar) : Reader Node := do
  let c ← ahead
  expect "..."
  let value ← g (.expression 0)
  nodeFrom .spread c.position [value]

/-- An expression, or three dots and an expression. -/
def expressionOrSpread (g : Grammar) : Reader Node := do
  if ← startsWith "..." then spread g else g (.expression 0)

/-- Expressions in parentheses. -/
def parenthesized (g : Grammar) : Reader Node := do
  let c ← ahead
  expect "("
  let parts ← withBrackets true do
    let set ← remarks
    let inner ← g .sequence
    expect ")"
    return set ++ [inner]
  nodeFrom .parenthesized c.position parts

/-- Statements in braces, as a list. -/
def block (g : Grammar) : Reader (List Node) := do
  expect "\x7b"
  let body ← withBrackets false do
    let body ← many do
      let _ ← remarks
      if ← startsWith "\x7d" then return none
      if (← ahead).rest.isEmpty then return none
      some <$> g .statement
    expect "\x7d"
    return body
  return body

end Reader
end DataBinding.Script
