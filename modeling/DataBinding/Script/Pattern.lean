/-
# Patterns

Patterns bind names: parameters, declared names and the targets of assignments that take a value
apart.  A pattern is a target, a list of patterns in brackets, a map of patterns in braces, or the
rest of a list; items may have a default value.
-/
import DataBinding.Script.Rule

namespace DataBinding.Script.Reader

/-- The constructs that a pattern may bind. -/
def isTarget (node : Node) : Bool :=
  match node.construct with
  | .identifier | .undefined | .member | .privateMember | .subscript => true
  | _ => false

/-- An item with its default value, if it has one. -/
def withDefault (g : Grammar) (item : Reader Node) : Reader Node := do
  let c ← ahead
  let node ← item
  if ← takeAssign? then
    let value ← g (.expression 0)
    nodeFrom .pattern c.position [node, value]
  else return node

/-- The name of a property in braces, as a word, a quotation, a number, a private name or an
expression in brackets. -/
def propertyName (g : Grammar) : Reader Node := do
  let c ← ahead
  match c.rest with
  | '[' :: _ =>
    expect "["
    let inner ← withBrackets true do
      let inner ← g (.expression 0)
      expect "]"
      return inner
    nodeFrom .computedName c.position [inner]
  | '#' :: _ => privateName
  | '"' :: _ | '\'' :: _ => quotation
  | rest =>
    match Lexeme.number? rest with
    | some n => leaf .number n
    | none => anyWord .propertyName

/-- An item of a pattern in braces. -/
def propertyPattern (g : Grammar) : Reader Node := do
  if ← startsWith "..." then g .pattern
  else
    let c ← ahead
    let name ← propertyName g
    if ← take? ":" then
      let value ← withDefault g (g .pattern)
      nodeFrom .pattern c.position [name, value]
    else if name.construct == .propertyName && !Lexeme.isReserved name.wording then
      if ← takeAssign? then
        let value ← g (.expression 0)
        nodeFrom .pattern c.position [value]
      else nodeFrom .pattern c.position []
    else refuse

/-- A pattern. -/
def pattern (g : Grammar) : Reader Node := do
  let _ ← remarks
  let c ← ahead
  match c.rest with
  | '.' :: '.' :: '.' :: _ =>
    expect "..."
    let inner ← g .pattern
    nodeFrom .pattern c.position [inner]
  | '[' :: _ =>
    expect "["
    let parts ← withBrackets true (items "]" (withDefault g (g .pattern)))
    nodeFrom .pattern c.position parts
  | '\x7b' :: _ =>
    expect "\x7b"
    let parts ← withBrackets true (items "\x7d" (propertyPattern g))
    nodeFrom .pattern c.position parts
  | _ =>
    let node ← g .target
    if isTarget node then return node else refuse

/-- A declared name or a pattern in brackets or braces. -/
def binding (g : Grammar) : Reader Node := do
  if (← startsWith "[") || (← startsWith "\x7b") then g .pattern else identifier

/-- Decorations before a class or a member. -/
def decorators (g : Grammar) : Reader (List Node) :=
  many do
    if ← take? "@" then
      if ← startsWith "(" then some <$> parenthesized g else some <$> g .target
    else return none

/-- Parameters in parentheses; a comma may follow the last one. -/
def parameters (g : Grammar) : Reader (List Node) := do
  expect "("
  withBrackets true do
    let groups ← many do
      let _ ← remarks
      if ← startsWith ")" then return none
      let parameter ← withDefault g (g .pattern)
      unless ← startsWith ")" do expect ","
      return some parameter
    expect ")"
    return groups

end DataBinding.Script.Reader
