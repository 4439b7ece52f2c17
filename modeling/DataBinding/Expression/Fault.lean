/-
# Faults of expressions

Why a text is refused as a binding expression, and how that is told.  A report names the cause, the
place if one is known, and the text in quotes.
-/
import DataBinding.Text.Quoted

namespace DataBinding.Expression

/-- Why a text is no binding expression. -/
inductive Cause where
  | empty
  | invalid
  | notSingle
  | tooDeep
  | unsupported (construct : String)
  deriving DecidableEq, Repr

/-- The cause in words. -/
def Cause.message : Cause → String
  | .empty => "Empty expression"
  | .invalid => "Invalid expression"
  | .notSingle => "Expected a single expression"
  | .tooDeep => "Expression is nested too deeply"
  | .unsupported construct => s!"Unsupported expression ({construct})"

/-- A refused text, with the byte at which it goes wrong if there is one. -/
structure Fault where
  cause : Cause
  text : Text
  offset : Option Nat

/-- The full report on a text: what is wrong, where, and the text unless it is empty. -/
def report (message : String) (text : Text) (offset : Option Nat) : String :=
  if text.isEmpty then message
  else
    match offset with
    | none => s!"{message}: {String.ofList text.quoted}"
    | some n => s!"{message} at offset {n}: {String.ofList text.quoted}"

/-- The full report on a fault. -/
def Fault.message (fault : Fault) : String :=
  report fault.cause.message fault.text fault.offset

end DataBinding.Expression
