/-
# Writing trees

A tree is written node by node; an element writes its start tag, its contents, and its end tag if
one was read.
-/
import DataBinding.Markup.Event
import DataBinding.Markup.Splice

namespace DataBinding.Markup

mutual

/-- The markup of a node. -/
def Node.write : Node → Text
  | .text data => data
  | .comment data => commentSource data
  | .declaration data => declarationSource data
  | .instruction data => instructionSource data
  | .element tag children =>
    tag.write ++ Node.writeAll children ++ if tag.closed then endTagSource tag.name else []

/-- The markup of nodes that follow each other. -/
def Node.writeAll : List Node → Text
  | [] => []
  | node :: nodes => Node.write node ++ Node.writeAll nodes

end

/-- The markup of a document. -/
def Document.write (document : Document) : Text :=
  Node.writeAll document.children

end DataBinding.Markup
