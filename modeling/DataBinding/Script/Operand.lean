/-
# Operands

An operand of the script language is a simple form followed by member accesses and calls.  An
assignment, an arrow function and a unary operation may stand wherever an operand may.
-/
import DataBinding.Script.Definition
import DataBinding.Script.Literal
import DataBinding.Expression.Token

namespace DataBinding.Script.Reader

/-! ## Simple forms -/

/-- What `new` makes: a simple form with member accesses, and arguments if there are any. -/
def construction (g : Grammar) : Reader Node := do
  let c ← ahead
  expectWord "new"
  if ← take? "." then
    expectWord "target"
    nodeFrom .metaProperty c.position []
  else
    let callee ← g .constructed
    let arguments ←
      if ← take? "(" then withBrackets true (items ")" (expressionOrSpread g)) else pure []
    nodeFrom .construction c.position (callee :: arguments)

/-- The word `import` as an operand: with `.meta` a property of the script, else the callee of a
call or the object of a member access. -/
def importOperand : Reader Node := do
  let word ← leaf .importWord 6
  if ← startsWith "(" then return word
  else if ← startsWith "." then
    orTry
      (do
        expect "."
        expectWord "meta"
        nodeFrom .metaProperty word.span.start [])
      (return word)
  else refuse

/-- A form that starts with a word. -/
def wordForm (g : Grammar) (word : Text) : Reader Node := do
  let c ← ahead
  match String.ofList word with
  | "this" => leaf .this 4
  | "super" => leaf .super 5
  | "true" | "false" | "null" => leaf .constant word.length
  | "function" => function g c.position false
  | "class" => classLiteral g c.position [] false
  | "new" => construction g
  | "import" => importOperand
  | "async" =>
    orTry
      (do
        expectWord "async"
        function g c.position false)
      identifier
  | _ => identifier

/-- A simple form: a word, a literal, or something in brackets. -/
def simpleForm (g : Grammar) : Reader Node := do
  let c ← ahead
  match c.rest with
  | [] => refuse
  | '(' :: _ => parenthesized g
  | '[' :: _ =>
    expect "["
    let elements ← withBrackets true (items "]" (expressionOrSpread g))
    nodeFrom .array c.position elements
  | '\x7b' :: _ => object g
  | '\x60' :: _ => template g
  | '/' :: _ => regex
  | '<' :: _ => g .element
  | '@' :: _ =>
    whole do
      let decorated ← decorators g
      classLiteral g c.position decorated false
  | rest =>
    match Lexeme.number? rest with
    | some n => leaf .number n
    | none =>
      match Lexeme.quotation? rest with
      | some n => leaf .string n
      | none =>
        match Lexeme.word? rest with
        | some n => wordForm g (rest.take n)
        | none => refuse

/-! ## Accesses and calls -/

/-- Which of the forms behind an operand are taken. -/
structure Tails where
  calls : Bool
  updates : Bool

/-- The member that is accessed behind a dot. -/
def accessed (object : Node) : Reader Node := do
  let _ ← remarks
  if ← startsWith "#" then
    let _ ← privateName
    nodeFrom .privateMember object.span.start [object]
  else
    let _ ← anyWord .propertyName
    nodeFrom .member object.span.start [object]

/-- An index behind an operand. -/
def indexed (g : Grammar) (object : Node) : Reader Node := do
  expect "["
  let index ← withBrackets true do
    let index ← g .sequence
    expect "]"
    return index
  nodeFrom .subscript object.span.start [object, index]

/-- Arguments behind an operand. -/
def called (g : Grammar) (construct : Construct) (callee : Node) : Reader Node := do
  expect "("
  let arguments ← withBrackets true (items ")" (expressionOrSpread g))
  nodeFrom construct callee.span.start (callee :: arguments)

/-- One access, call or step behind an operand.  A step on a new line belongs to the next statement
where a statement may end. -/
def tail (g : Grammar) (tails : Tails) (node : Node) : Reader (Option Node) := do
  let c ← ahead
  let step : Reader (Option Node) := do
    if !tails.updates || (!c.bracketed && (← atStatementEnd false)) then return none
    moveTo (c.skip 2)
    some <$> nodeFrom .update node.span.start [node]
  match c.rest with
  | '?' :: '.' :: d :: _ =>
    if d.isDigit then return none
    expect "?."
    if d == '(' && !tails.calls then return none
    match (← ahead).rest with
    | '[' :: _ => some <$> indexed g node
    | '(' :: _ => some <$> called g .optionalCall node
    | _ => some <$> accessed node
  | '.' :: _ =>
    expect "."
    some <$> accessed node
  | '[' :: _ => some <$> indexed g node
  | '(' :: _ => if tails.calls then some <$> called g .call node else return none
  | '\x60' :: _ =>
    let contents ← template g
    some <$> nodeFrom .taggedCall node.span.start [node, contents]
  | '+' :: '+' :: _ => step
  | '-' :: '-' :: _ => step
  | _ => return none

/-- The callee of `new`. -/
def constructed (g : Grammar) : Reader Node := do
  let _ ← remarks
  let base ← if ← atWord "new" then construction g else simpleForm g
  extend (tail g ⟨false, false⟩) base

/-- The target of an assignment, as far as accesses and calls reach. -/
def target (g : Grammar) : Reader Node := do
  let _ ← remarks
  if ← startsWith "(" then refuse
  else
    let base ← simpleForm g
    extend (tail g ⟨true, false⟩) base

/-! ## Arrow functions -/

/-- The arrow and the body of an arrow function.  Says whether the body is in braces, so that more
may follow it. -/
def arrowRest (g : Grammar) (start : Nat) (parameters : List Node) : Reader (Node × Bool) := do
  expect "=>"
  let inBraces : Reader (Node × Bool) := do
    let body ← block g
    return (← nodeFrom .arrow start (parameters ++ body), true)
  let plain : Reader (Node × Bool) := do
    let body ← g (.expression 0)
    return (← nodeFrom .arrow start (parameters ++ [body]), false)
  if ← startsWith "\x7b" then orTry inBraces plain else plain

/-- An arrow function with parameters in parentheses. -/
def arrow (g : Grammar) (start : Nat) : Reader (Node × Bool) := do
  let parameters ← parameters g
  arrowRest g start parameters

/-- An arrow function whose parameter is one word. -/
def shortArrow (g : Grammar) (start : Nat) : Reader (Node × Bool) := do
  let parameter ← identifier
  unless ← startsWith "=>" do refuse
  arrowRest g start [parameter]

/-- An arrow function behind the word `async`. -/
def asyncArrow (g : Grammar) : Reader (Node × Bool) := do
  let c ← ahead
  expectWord "async"
  if ← startsWith "(" then arrow g c.position else shortArrow g c.position

/-! ## Assignments -/

/-- The marks that assign the result of an operation. -/
def augmentedMarks : List String :=
  [">>>=", "**=", "<<=", ">>=", "&&=", "||=", "??=", "+=", "-=", "*=", "/=", "%=", "&=", "|=", "^="]

/-- The assignment whose target has been read, or the target alone. -/
def assigned (g : Grammar) (node : Node) : Reader Node := do
  if isTarget node || node.construct == .parenthesized then
    if ← takeAssign? then
      let value ← g (.expression 0)
      nodeFrom .assignment node.span.start [node, value]
    else
      let c ← ahead
      match augmentedMarks.find? fun m => c.rest.startsWith m.toList with
      | some m =>
        if node.construct == .undefined then refuse
        else
          moveTo (c.skip m.length)
          let value ← g (.expression 0)
          nodeFrom .augmentedAssignment node.span.start [node, value]
      | none => return node
  else return node

/-- A simple form with everything that may follow it. -/
def completed (g : Grammar) (base : Reader Node) : Reader Node := do
  let node ← extend (tail g ⟨true, true⟩) (← base)
  assigned g node

/-- The first arrow function that can be read, with what follows it, or else the given form. -/
def arrowOr (g : Grammar) (arrow : Reader (Node × Bool)) (other : Reader Node) : Reader Node :=
  orTry
    (do
      let (node, inBraces) ← arrow
      if inBraces then completed g (pure node) else return node)
    other

/-- An array or an object, or an assignment that takes a value apart by a pattern. -/
def bracketForm (g : Grammar) : Reader Node := do
  let c ← ahead
  orTry
    (do
      let node ← completed g (simpleForm g)
      if (← startsWith "=") && !(← startsWith "==") && !(← startsWith "=>") then refuse
      return node)
    (do
      let left ← g .pattern
      unless ← takeAssign? do refuse
      let value ← g (.expression 0)
      nodeFrom .assignment c.position [left, value])

/-! ## Operands -/

/-- An operand may start here. -/
def operandFollows : Reader Bool := do
  let c ← ahead
  match c.rest with
  | [] => return false
  | ch :: _ =>
    if "([\x7b\x60/<@+-!~#".toList.contains ch then return true
    else if (Lexeme.number? c.rest).isSome || (Lexeme.quotation? c.rest).isSome then return true
    else
      match ← peekWord? with
      | some word =>
        return !(["in".toList, "instanceof".toList, "of".toList].contains word)
      | none => return false

/-- A unary operation behind its operator, which has the given length. -/
def unaryForm (g : Grammar) (construct : Construct) (length : Nat) : Reader Node := do
  let c ← ahead
  moveTo (c.skip length)
  let argument ← g .operand
  nodeFrom construct c.position [argument]

/-- A `yield` with the expression it gives, if there is one. -/
def yieldForm (g : Grammar) : Reader Node := do
  let c ← ahead
  expectWord "yield"
  if ← take? "*" then
    let value ← g (.expression 0)
    nodeFrom .yield c.position [value]
  else if !c.bracketed && (← atStatementEnd true) then nodeFrom .yield c.position []
  else if ← operandFollows then
    let value ← g (.expression 0)
    nodeFrom .yield c.position [value]
  else nodeFrom .yield c.position []

/-- An operand that starts with a word. -/
def wordOperand (g : Grammar) (word : Text) : Reader Node := do
  let c ← ahead
  match String.ofList word with
  | "typeof" | "delete" => unaryForm g .unary 6
  | "void" => unaryForm g .unary 4
  | "yield" => yieldForm g
  | "await" =>
    orTry
      (do
        let _ ← expectWord "await"
        unless ← operandFollows do refuse
        moveTo c
        unaryForm g .await 5)
      (completed g identifier)
  | "async" =>
    arrowOr g (asyncArrow g) (arrowOr g (shortArrow g c.position) (completed g (simpleForm g)))
  | _ =>
    if Lexeme.isReserved word then completed g (simpleForm g)
    else arrowOr g (shortArrow g c.position) (completed g (simpleForm g))

/-- An operand. -/
def operand (g : Grammar) : Reader Node := do
  let _ ← remarks
  let c ← ahead
  match c.rest with
  | '(' :: _ => arrowOr g (arrow g c.position) (completed g (simpleForm g))
  | '[' :: _ => bracketForm g
  | '\x7b' :: _ => bracketForm g
  | '+' :: '+' :: _ => unaryForm g .update 2
  | '-' :: '-' :: _ => unaryForm g .update 2
  | '+' :: _ => unaryForm g .unary 1
  | '-' :: _ => unaryForm g .unary 1
  | '!' :: _ => unaryForm g .unary 1
  | '~' :: _ => unaryForm g .unary 1
  | '#' :: _ =>
    let name ← privateName
    if ← atWord "in" then return name else refuse
  | rest =>
    match Lexeme.word? rest with
    | some n => wordOperand g (rest.take n)
    | none => completed g (simpleForm g)

/-! ## Operations -/

/-- The conditional whose test has been read, behind its mark. -/
def ternary (g : Grammar) (test : Node) : Reader Node := do
  let consequent ← withBrackets true do
    let consequent ← g (.expression 0)
    expect ":"
    return consequent
  let alternate ← g (.expression 0)
  nodeFrom .ternary test.span.start [test, consequent, alternate]

/-- One operation whose left operand has been read, if its operator has at least the given rank. -/
def operation (g : Grammar) (least : Nat) (left : Node) : Reader (Option Node) := do
  let c ← get
  let (n, wide) := gapLength 0 true c.rest
  let c := c.skip n
  let found :=
    match (Lexeme.word? c.rest).bind fun k => Expression.binaryWord? (c.rest.take k) with
    | some op => some (Expression.Mark.binary op, op.symbol.length)
    | none => Expression.markAt? c.rest
  match found with
  | some (.binary op, length) =>
    if op.rank < least then return none
    moveTo (c.skip length)
    let right ← g (.expression (if op == .power then op.rank else op.rank + 1))
    some <$> nodeFrom .binary left.span.start [left, right]
  | some (.question, _) =>
    if least == 0 && wide then
      moveTo (c.skip 1)
      some <$> ternary g left
    else return none
  | _ => return none

/-- An expression whose operators have at least the given rank. -/
def expression (g : Grammar) (least : Nat) : Reader Node := do
  let left ← g .operand
  extend (operation g least) left

/-- Expressions separated by commas. -/
def sequence (g : Grammar) : Reader Node := do
  match ← separated (g (.expression 0)) with
  | [single] => return single
  | nodes =>
    let start := (nodes.head?.map fun node => node.span.start).getD 0
    nodeFrom .sequence start nodes

end DataBinding.Script.Reader
