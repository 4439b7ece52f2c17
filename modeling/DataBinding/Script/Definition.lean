/-
# Functions, objects and classes

The constructs with a body of members: function expressions, object literals and classes.
-/
import DataBinding.Script.Pattern

namespace DataBinding.Script.Reader

/-! ## Functions -/

/-- Parameters and a body. -/
def functionRest (g : Grammar) : Reader (List Node) := do
  let parameters ← parameters g
  let body ← block g
  return parameters ++ body

/-- A function with optional name, behind any `async`.  `start` is its first byte. -/
def function (g : Grammar) (start : Nat) (named : Bool) : Reader Node := do
  expectWord "function"
  let generator ← take? "*"
  if named then
    let _ ← identifier
  else
    unless ← startsWith "(" do
      let _ ← identifier
  let parts ← functionRest g
  nodeFrom (if generator then .generator else .function) start parts

/-! ## Members -/

/-- Another name or mark of a member follows, so that the word before was a modifier. -/
def memberFollows : Reader Bool := do
  let c ← ahead
  match c.rest with
  | '[' :: _ | '#' :: _ | '"' :: _ | '\'' :: _ | '*' :: _ => return true
  | rest => return (Lexeme.word? rest).isSome || (Lexeme.number? rest).isSome

/-- Takes a word that stands before a member as its modifier. -/
def modifier? (word : String) : Reader Bool :=
  orTry
    (do
      expectWord word
      unless ← memberFollows do refuse
      return true)
    (return false)

/-- The modifiers of a member; says whether there are any. -/
def modifiers : Reader Bool := do
  let isStatic ← modifier? "static"
  let isAsync ← modifier? "async"
  let isGetter ← modifier? "get"
  let isSetter ← if isGetter then pure false else modifier? "set"
  let isGenerator ← take? "*"
  return isStatic || isAsync || isGetter || isSetter || isGenerator

/-- A member of an object literal. -/
def objectMember (g : Grammar) : Reader Node := do
  let c ← ahead
  if ← startsWith "..." then spread g
  else
    let decorated ← decorators g
    let modified ← modifiers
    let name ← propertyName g
    if ← startsWith "(" then
      let rest ← functionRest g
      nodeFrom .definition c.position (decorated ++ name :: rest)
    else if modified || !decorated.isEmpty then refuse
    else if ← take? ":" then
      let value ← g (.expression 0)
      nodeFrom .pair c.position [name, value]
    else if name.construct == .propertyName && !Lexeme.isReserved name.wording then
      return .mk .shorthand name.span name.wording []
    else refuse

/-- An object literal. -/
def object (g : Grammar) : Reader Node := do
  let c ← ahead
  expect "\x7b"
  let members ← withBrackets true (items "\x7d" (objectMember g))
  nodeFrom .object c.position members

/-- A member of a class: a method, a field, or a block that runs once. -/
def classMember (g : Grammar) : Reader Node := do
  let c ← ahead
  let staticBlock : Reader Node := do
    expectWord "static"
    let body ← block g
    nodeFrom .definition c.position body
  let member : Reader Node := do
    let decorated ← decorators g
    let _ ← modifiers
    let name ← propertyName g
    if ← startsWith "(" then
      let rest ← functionRest g
      nodeFrom .definition c.position (decorated ++ name :: rest)
    else
      let value ← optionalPart takeAssign? (g (.expression 0))
      endStatement false
      nodeFrom .definition c.position (decorated ++ name :: value)
  orTry staticBlock member

/-- A class, behind its decorations.  `start` is its first byte. -/
def classLiteral (g : Grammar) (start : Nat) (decorated : List Node) (named : Bool) :
    Reader Node := do
  expectWord "class"
  let anonymous := (← startsWith "\x7b") || (← atWord "extends")
  if named || !anonymous then
    let _ ← identifier
  let base ← optionalPart (takeWord? "extends") (g (.expression 0))
  expect "\x7b"
  let members ← withBrackets false do
    let members ← many do
      let _ ← remarks
      if ← startsWith "\x7d" then return none
      if ← take? ";" then return some []
      return some [← classMember g]
    expect "\x7d"
    return members
  nodeFrom .classLiteral start (decorated ++ base ++ members.flatten)

end DataBinding.Script.Reader
