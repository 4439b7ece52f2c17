/-
# Reading scripts

The family of readers is tied together here, and a whole text is read as a list of statements.  A
script with a statement that cannot be read keeps the statements before it.
-/
import DataBinding.Script.Statement

namespace DataBinding.Script

/-- The production of a rule over a family of readers. -/
def produce (g : Grammar) : Rule → Reader Node
  | .sequence => Reader.sequence g
  | .expression rank => Reader.expression g rank
  | .operand => Reader.operand g
  | .target => Reader.target g
  | .constructed => Reader.constructed g
  | .pattern => Reader.pattern g
  | .element => Reader.element g
  | .statement => Reader.statement g

/-- The family of readers whose calls nest at most `depth` deep. -/
def grammar : (depth : Nat) → Grammar
  | 0 => fun _ => Reader.refuse
  | depth + 1 => fun rule => produce (grammar depth) rule

/-- A script that was read: its statements, its length in bytes, and the place where the first
unreadable statement goes wrong, if there is one. -/
structure Program where
  statements : List Node
  length : Nat
  fault : Option Nat

/-- The rest of a script's statements, at most `fuel` of them. -/
def statementsFrom (g : Grammar) : (fuel : Nat) → Cursor → List Node × Option Nat
  | 0, _ => ([], none)
  | fuel + 1, c =>
    match (Reader.remarks c : Except Nat (List Node × Cursor)) with
    | .error place => ([], some place)
    | .ok (set, c) =>
      if c.next.rest.isEmpty then (set, none)
      else
        match (g .statement c : Except Nat (Node × Cursor)) with
        | .error place => (set, some place)
        | .ok (node, c) =>
          let (nodes, fault) := statementsFrom g fuel c
          (set ++ node :: nodes, fault)

/-- The number of characters of a line that names an interpreter, at the head of a script. -/
def interpreterLine : Text → Nat
  | '#' :: '!' :: t => 2 + (t.takeWhile (!Lexeme.isLineEnd ·)).length
  | _ => 0

/-- Reads a script. -/
def parse (t : Text) : Program :=
  let start := (Cursor.mk t 0 false).skip (interpreterLine t)
  let (statements, fault) := statementsFrom (grammar (4 * t.length + 16)) (t.length + 1) start
  ⟨statements, t.byteLength, fault⟩

end DataBinding.Script
