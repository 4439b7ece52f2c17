/-
# Renaming spans

A generated function is the text of a binding with its paths replaced by parameter names.  Spans
count bytes, so the edits are made on the UTF-8 form, from the last span to the first: an edit then
never moves a span that is still to be used.
-/
import DataBinding.Expression.Basic
import DataBinding.Text.Utf8

namespace DataBinding

/-- A span and the name that replaces it. -/
structure Renaming where
  span : Span
  name : Text

namespace Renaming

/-- Puts a renaming before those that start no later. -/
def insert (r : Renaming) : List Renaming → List Renaming
  | [] => [r]
  | s :: rest => if s.span.start ≤ r.span.start then r :: s :: rest else s :: insert r rest

/-- The renamings from the last start to the first; those with one start keep their order. -/
def lastFirst (renamings : List Renaming) : List Renaming :=
  renamings.foldr insert []

/-- Replaces one span. -/
def apply (bytes : Bytes) (r : Renaming) : Bytes :=
  bytes.take r.span.start ++ Text.encode r.name ++ bytes.drop r.span.stop

/-- The text with all spans replaced; a fault if the spans cut characters apart. -/
def applyAll (t : Text) (renamings : List Renaming) : Except Text.DecodeFault Text :=
  Text.decode ((lastFirst renamings).foldl apply (Text.encode t))

end Renaming
end DataBinding
