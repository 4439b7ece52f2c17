/-
# Diagnosing refused texts

A text that is no supported expression is put in parentheses and read as a script, so that its fault
can be told: it is no script at all, it closes the parentheses it stands in, or it holds a construct
that bindings do not support.  Of several such constructs the first one in source order counts, an
outer one before its parts, and nesting beyond the limit is noticed on the way down.
-/
import DataBinding.Expression.Fault
import DataBinding.Expression.Parser
import DataBinding.Script.Parser
import DataBinding.Text.Blank

namespace DataBinding.Expression

/-- The number of levels that may lie below the outermost level of an expression. -/
def maxLevels : Nat := 256

/-! ## Unsupported constructs -/

mutual

/-- The first fault of a construct that lies `depth` levels deep. -/
def faultOf (depth : Nat) : Script.Node → Option (Cause × Option Nat)
  | .mk construct span _ parts =>
    if maxLevels < depth then some (.tooDeep, none)
    else
      match construct with
      | .identifier | .undefined | .this | .number | .string | .constant => none
      | .member | .subscript | .call | .unary | .binary | .ternary | .array =>
        faultOfAll (depth + 1) parts
      | .parenthesized =>
        match parts with
        | [inner] => faultOf (depth + 1) inner
        | _ => some (.unsupported construct.name, some (span.start - 1))
      | _ => some (.unsupported construct.name, some (span.start - 1))

/-- The first fault among constructs that lie `depth` levels deep. -/
def faultOfAll (depth : Nat) : List Script.Node → Option (Cause × Option Nat)
  | [] => none
  | node :: nodes =>
    match faultOf depth node with
    | some fault => some fault
    | none => faultOfAll depth nodes

end

/-! ## Texts -/

/-- The constructs inside the parentheses around a text, if these are all that was read. -/
def insideParentheses? (program : Script.Program) : Option (List Script.Node) :=
  match program.statements with
  | [.mk .expressionStatement _ _ [.mk .parenthesized span _ inner]] =>
    if span == ⟨0, program.length⟩ then some inner else none
  | _ => none

/-- Why a text is no supported expression, and at which byte. -/
def diagnose (t : Text) : Cause × Option Nat :=
  let program := Script.parse ('(' :: (t ++ [')']))
  match program.fault with
  | some place => (.invalid, some (min (place - 1) t.byteLength))
  | none =>
    match insideParentheses? program with
    | some [node] => (faultOf 0 node).getD (.invalid, none)
    | _ => (.notSingle, none)

/-- Reads a text as a binding expression. -/
def parse (t : Text) : Except Fault Expr :=
  if t.allBlank then .error ⟨.empty, t, none⟩
  else
    match read? t with
    | some operand =>
      if operand.levels ≤ maxLevels then .ok operand.expr else .error ⟨.tooDeep, t, none⟩
    | none =>
      let (cause, offset) := diagnose t
      .error ⟨cause, t, offset⟩

end DataBinding.Expression
