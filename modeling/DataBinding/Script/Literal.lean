/-
# Literals with a lexical body

Regular expressions, templates and elements of markup are read character by character, apart from
the expressions that templates and elements hold.
-/
import DataBinding.Script.Rule

namespace DataBinding.Script.Reader

/-! ## Regular expressions -/

/-- The number of characters up to the slash that ends a regular expression, which is included. -/
def regexRest? : (inClass : Bool) → Text → Option Nat
  | _, [] => none
  | inClass, '\\' :: c :: t => if c == '\n' then none else (regexRest? inClass t).map (· + 2)
  | inClass, c :: t =>
    if c == '\n' || c == '\\' then none
    else if c == '/' && !inClass then some 1
    else (regexRest? (if c == '[' then true else if c == ']' then false else inClass) t).map (· + 1)

/-- A regular expression with its flags. -/
def regex : Reader Node := do
  let c ← ahead
  let t := c.rest.drop 1
  match regexRest? false t with
  | some n =>
    if n == 1 then refuse
    else
      let flags := (t.drop n).takeWhile fun ch => 'a' ≤ ch && ch ≤ 'z'
      leaf .regex (1 + n + flags.length)
  | none => refuse

/-! ## Templates -/

/-- A template: characters, escapes, and expressions in marked braces. -/
def template (g : Grammar) : Reader Node := do
  let c ← ahead
  expect "\x60"
  let parts ← many do
    let c ← get
    match c.rest with
    | [] => refuse
    | '\x60' :: _ => return none
    | '$' :: '\x7b' :: _ =>
      moveTo (c.skip 2)
      let inner ← withBrackets true do
        let inner ← g .sequence
        expect "\x7d"
        return inner
      return some [inner]
    | '\\' :: t =>
      match Lexeme.escape? t with
      | some n =>
        moveTo (c.skip (n + 1))
        return some []
      | none => refuse
    | _ =>
      moveTo (c.skip 1)
      return some []
  moveTo ((← get).skip 1)
  nodeFrom .template c.position parts.flatten

/-! ## Elements of markup -/

/-- The name of an element or an attribute: words joined by dashes, dots or a colon. -/
def elementName : Reader Unit := do
  let _ ← anyWord .propertyName
  let _ ← many do
    let c ← get
    match c.rest with
    | '-' :: t =>
      moveTo (c.skip (1 + (Lexeme.word? t).getD 0))
      return some ()
    | _ =>
      if (← take? ".") || (← take? ":") then
        let _ ← anyWord .propertyName
        return some ()
      else return none

/-- An attribute of an element: a name with an optional value, or spread values in braces. -/
def elementAttribute (g : Grammar) : Reader (List Node) := do
  if ← take? "\x7b" then
    let node ← withBrackets true do
      let node ← expressionOrSpread g
      expect "\x7d"
      return node
    return [node]
  else
    elementName
    if ← take? "=" then
      let c ← ahead
      match c.rest with
      | '\x7b' :: _ =>
        expect "\x7b"
        let inner ← withBrackets true do
          let inner ← g .sequence
          expect "\x7d"
          return inner
        return [inner]
      | '<' :: _ => return [← g .element]
      | quote :: t =>
        let contents := t.takeWhile (· != quote)
        if (quote == '"' || quote == '\'') && contents.length < t.length then
          return [← leaf .string (contents.length + 2)]
        else refuse
      | [] => refuse
    else return []

/-- What stands between the tags of an element, up to the closing tag. -/
def elementChildren (g : Grammar) : Reader (List Node) := do
  let groups ← many do
    let c ← get
    match c.rest with
    | [] => refuse
    | '<' :: _ => if ← startsWith "</" then return none else return some [← g .element]
    | '\x7b' :: _ =>
      expect "\x7b"
      withBrackets true do
        if ← take? "\x7d" then return some []
        else
          let node ← if ← startsWith "..." then spread g else g .sequence
          expect "\x7d"
          return some [node]
    | '>' :: _ | '\x7d' :: _ => refuse
    | _ =>
      moveTo (c.skip 1)
      return some []
  return groups.flatten

/-- An element of markup: an empty element, or an element with opening and closing tags, whose names
may both be left out. -/
def element (g : Grammar) : Reader Node := do
  let c ← ahead
  expect "<"
  let attributes ←
    if ← startsWith ">" then pure []
    else do
      elementName
      let groups ← many do
        if (← startsWith ">") || (← startsWith "/") then return none
        else some <$> elementAttribute g
      pure groups.flatten
  if ← take? "/" then
    expect ">"
    nodeFrom .markupEmptyElement c.position attributes
  else
    expect ">"
    let children ← elementChildren g
    expect "</"
    unless ← startsWith ">" do elementName
    expect ">"
    nodeFrom .markupElement c.position (attributes ++ children)

end DataBinding.Script.Reader
