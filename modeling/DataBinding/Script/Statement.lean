/-
# Statements

The statements of a script: declarations, control flow, module clauses, and expressions that stand
alone.  A statement's node keeps the nodes of its parts in source order.
-/
import DataBinding.Script.Operand

namespace DataBinding.Script.Reader

/-! ## Declarations -/

/-- Declared names with their values, behind the declaring word. -/
def declarators (g : Grammar) : Reader (List Node) :=
  separated do
    let c ← ahead
    let name ← binding g
    let value ← optionalPart takeAssign? (g (.expression 0))
    nodeFrom .pattern c.position (name :: value)

/-- A declaration of names. -/
def declaration (g : Grammar) (word : String) : Reader Node := do
  let c ← ahead
  expectWord word
  let parts ← declarators g
  endStatement false
  nodeFrom .statement c.position parts

/-- A function with a name. -/
def functionDeclaration (g : Grammar) : Reader Node := do
  let c ← ahead
  let _ ← takeWord? "async"
  function g c.position true

/-- A class with a name. -/
def classDeclaration (g : Grammar) : Reader Node := do
  let c ← ahead
  let decorated ← decorators g
  classLiteral g c.position decorated true

/-- An expression that stands alone. -/
def expressionStatement (g : Grammar) : Reader Node := do
  let c ← ahead
  let inner ← g .sequence
  endStatement false
  nodeFrom .expressionStatement c.position [inner]

/-! ## Control flow -/

/-- A statement in braces. -/
def blockStatement (g : Grammar) : Reader Node := do
  let c ← ahead
  let body ← block g
  nodeFrom .statement c.position body

/-- A choice by a condition. -/
def ifStatement (g : Grammar) : Reader Node := do
  let c ← ahead
  expectWord "if"
  let test ← parenthesized g
  let consequent ← g .statement
  let alternate ← optionalPart (takeWord? "else") (g .statement)
  nodeFrom .statement c.position (test :: consequent :: alternate)

/-- The head of a loop over the items of a value. -/
def itemsHead (g : Grammar) : Reader (List Node) := do
  let declared ← ["var", "let", "const"].anyM fun word =>
    orTry (do expectWord word; let _ ← binding g; return true) (return false)
  let left ← if declared then pure [] else
    if (← startsWith "[") || (← startsWith "\x7b") then do pure [← g .pattern]
    else do
      let node ← g .target
      if isTarget node then pure [node] else refuse
  unless ← takeWord? "in" do expectWord "of"
  let right ← g .sequence
  return left ++ [right]

/-- The head of a loop with a counter: a start, a condition and a step, each of which may miss. -/
def counterHead (g : Grammar) : Reader (List Node) := do
  let declared : Reader (List Node) := do
    unless (← takeWord? "var") || (← takeWord? "let") || (← takeWord? "const") do refuse
    declarators g
  let start ← if ← startsWith ";" then pure [] else
    orTry declared (do return [← g .sequence])
  expect ";"
  let condition ← if ← startsWith ";" then pure [] else do pure [← g .sequence]
  expect ";"
  let step ← if ← startsWith ")" then pure [] else do pure [← g .sequence]
  return start ++ condition ++ step

/-- A loop with a head in parentheses. -/
def forStatement (g : Grammar) : Reader Node := do
  let c ← ahead
  expectWord "for"
  let _ ← takeWord? "await"
  expect "("
  let head ← withBrackets true do
    orTry
      (do
        let head ← itemsHead g
        expect ")"
        return head)
      (do
        let head ← counterHead g
        expect ")"
        return head)
  let body ← g .statement
  nodeFrom .statement c.position (head ++ [body])

/-- A word, something in parentheses, and a statement. -/
def guarded (g : Grammar) (word : String) : Reader Node := do
  let c ← ahead
  expectWord word
  let test ← parenthesized g
  let body ← g .statement
  nodeFrom .statement c.position [test, body]

/-- A loop with its condition behind it. -/
def doStatement (g : Grammar) : Reader Node := do
  let c ← ahead
  expectWord "do"
  let body ← g .statement
  expectWord "while"
  let test ← parenthesized g
  nodeFrom .statement c.position [body, test]

/-- One case of a choice by value. -/
def switchCase (g : Grammar) : Reader (List Node) := do
  let value ←
    if ← takeWord? "default" then pure []
    else do
      expectWord "case"
      pure [← g .sequence]
  expect ":"
  let body ← many do
    let _ ← remarks
    if (← startsWith "\x7d") || (← atWord "case") || (← atWord "default") then return none
    else some <$> g .statement
  return value ++ body

/-- A choice by value. -/
def switchStatement (g : Grammar) : Reader Node := do
  let c ← ahead
  expectWord "switch"
  let value ← parenthesized g
  expect "\x7b"
  let cases ← withBrackets false do
    let cases ← many do
      if ← startsWith "\x7d" then return none else some <$> switchCase g
    expect "\x7d"
    return cases
  nodeFrom .statement c.position (value :: cases.flatten)

/-- A block with the blocks that handle its failure and its end. -/
def tryStatement (g : Grammar) : Reader Node := do
  let c ← ahead
  expectWord "try"
  let body ← block g
  let handler ←
    if ← takeWord? "catch" then do
      let parameter ←
        if ← take? "(" then withBrackets true do
          let parameter ← binding g
          expect ")"
          return [parameter]
        else pure []
      let body ← block g
      pure (parameter ++ body)
    else pure []
  let last ← if ← takeWord? "finally" then block g else pure []
  nodeFrom .statement c.position (body ++ handler ++ last)

/-- A jump, with the label or the value it takes if there is one. -/
def jump (word : String) (value : Option (Reader Node)) : Reader Node := do
  let c ← ahead
  expectWord word
  match value with
  | none =>
    endStatement true
    nodeFrom .statement c.position []
  | some value =>
    if (← atStatementEnd true) || (← startsWith ";") then
      endStatement true
      nodeFrom .statement c.position []
    else
      let part ← value
      endStatement false
      nodeFrom .statement c.position [part]

/-! ## Modules -/

/-- Names in braces, each perhaps under another name. -/
def namedItems : Reader Unit := do
  expect "\x7b"
  let _ ← withBrackets true do
    many do
      if ← take? "\x7d" then return none
      else
        let name := orTry quotation (anyWord .propertyName)
        let _ ← name
        if ← takeWord? "as" then
          let _ ← name
        unless ← startsWith "\x7d" do expect ","
        return some ()

/-- The quotation that names a module, with its attributes, and the end of the statement. -/
def moduleName (g : Grammar) : Reader Unit := do
  let _ ← quotation
  if (← takeWord? "with") || (← takeWord? "assert") then
    let _ ← object g
  endStatement false

/-- An import of names from a module, or of a module for its effects. -/
def importStatement (g : Grammar) : Reader Node := do
  let c ← ahead
  expectWord "import"
  let items : Reader Unit := do
    if ← take? "*" then
      expectWord "as"
      let _ ← identifier
    else namedItems
  match (← ahead).rest with
  | '"' :: _ | '\'' :: _ => moduleName g
  | '*' :: _ | '\x7b' :: _ =>
    items
    expectWord "from"
    moduleName g
  | _ =>
    let _ ← identifier
    if ← take? "," then items
    expectWord "from"
    moduleName g
  nodeFrom .statement c.position []

/-- An export of names, of a declaration, or of a value as the default. -/
def exportStatement (g : Grammar) : Reader Node := do
  let c ← ahead
  let decorated ← decorators g
  expectWord "export"
  let parts ←
    if ← take? "*" then do
      if ← takeWord? "as" then
        let _ ← orTry quotation (anyWord .propertyName)
      expectWord "from"
      moduleName g
      pure []
    else if ← startsWith "\x7b" then do
      namedItems
      if ← takeWord? "from" then moduleName g else endStatement false
      pure []
    else if ← takeWord? "default" then do
      let declared := orTry (functionDeclaration g) (classDeclaration g)
      let value : Reader Node := do
        let value ← g (.expression 0)
        endStatement false
        return value
      pure [← orTry declared value]
    else do
      let declared := [declaration g "var", declaration g "let", declaration g "const",
        functionDeclaration g, classDeclaration g].foldr orTry refuse
      pure [← declared]
  nodeFrom .statement c.position (decorated ++ parts)

/-! ## Statements -/

/-- A statement behind a label. -/
def labeled (g : Grammar) : Reader Node := do
  let c ← ahead
  let _ ← identifier
  expect ":"
  let body ← g .statement
  nodeFrom .statement c.position [body]

/-- A statement that starts with a word which no other kind of statement owns. -/
def otherStatement (g : Grammar) : Reader Node :=
  orTry (labeled g) (expressionStatement g)

/-- A statement that starts with a word. -/
def wordStatement (g : Grammar) (word : Text) : Reader Node :=
  match String.ofList word with
  | "var" => declaration g "var"
  | "const" => declaration g "const"
  | "let" => orTry (declaration g "let") (otherStatement g)
  | "function" => orTry (functionDeclaration g) (expressionStatement g)
  | "async" => orTry (functionDeclaration g) (otherStatement g)
  | "class" => orTry (classDeclaration g) (expressionStatement g)
  | "if" => ifStatement g
  | "for" => forStatement g
  | "while" => guarded g "while"
  | "with" => guarded g "with"
  | "do" => doStatement g
  | "switch" => switchStatement g
  | "try" => tryStatement g
  | "return" => jump "return" (some (g .sequence))
  | "throw" => jump "throw" (some (g .sequence))
  | "break" => jump "break" (some identifier)
  | "continue" => jump "continue" (some identifier)
  | "debugger" => jump "debugger" none
  | "import" => orTry (importStatement g) (expressionStatement g)
  | "export" => orTry (exportStatement g) (otherStatement g)
  | _ => otherStatement g

/-- A statement. -/
def statement (g : Grammar) : Reader Node := do
  let _ ← remarks
  let c ← ahead
  match c.rest with
  | '\x7b' :: _ => orTry (blockStatement g) (expressionStatement g)
  | ';' :: _ =>
    expect ";"
    nodeFrom .statement c.position []
  | '@' :: _ => orTry (classDeclaration g) (orTry (exportStatement g) (expressionStatement g))
  | rest =>
    match Lexeme.word? rest with
    | some n => wordStatement g (rest.take n)
    | none => expressionStatement g

end DataBinding.Script.Reader
