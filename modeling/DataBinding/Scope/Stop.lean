/-
# Stops

Not every visit to a binding can be finished: a reference may have too many digits to be turned into
a character, and a text that is tried as a JSON value may open more brackets inside each other than
there is room for.  The visit then stops, and with it all that asked for it.
-/
import DataBinding.Markup.Reference
import DataBinding.Scope.Basic
import DataBinding.Text.Json

namespace DataBinding

/-- Why a visit cannot be finished. -/
inductive Obstacle where
  | overlongReference (digits : Nat)
  | noRoom (bracket : Text.Json.Bracket)
  deriving DecidableEq, Repr

/-- An obstacle in words. -/
def Obstacle.message : Obstacle → String
  | .overlongReference digits => Markup.overlongMessage digits
  | .noRoom .array =>
    "maximum recursion depth exceeded while decoding a JSON array from a unicode string"
  | .noRoom .object =>
    "maximum recursion depth exceeded while decoding a JSON object from a unicode string"

/-- Where something stopped: at an obstacle, with the scope as it had become by then. -/
structure Stop where
  obstacle : Obstacle
  scope : Scope

end DataBinding
