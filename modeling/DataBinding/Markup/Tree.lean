/-
# Building trees from events

Events are taken one after the other into a tree under construction: the nodes of the innermost open
element, and the open elements around them.  An end tag closes the innermost open element of its
name with all elements inside; without such an element it becomes text.  Texts that follow each
other are joined.
-/
import DataBinding.Markup.Event
import DataBinding.Markup.Node
import DataBinding.Markup.Scan

namespace DataBinding.Markup

/-- A tree under construction.  `nodes` are those of the innermost open element, last first, and
`outer` holds the open elements from the inside out, each with the nodes before it, last first. -/
structure Growth where
  nodes : List Node
  outer : List (Tag × List Node)

namespace Growth

/-- Nothing but an empty document. -/
def empty : Growth :=
  ⟨[], []⟩

/-- Adds a node. -/
def add (g : Growth) (node : Node) : Growth :=
  { g with nodes := node :: g.nodes }

/-- Adds text, to the last node if that is a text. -/
def addText (g : Growth) (data : Text) : Growth :=
  match g.nodes with
  | .text before :: nodes => { g with nodes := .text (before ++ data) :: nodes }
  | nodes => { g with nodes := .text data :: nodes }

/-- Opens an element. -/
def openElement (g : Growth) (tag : Tag) : Growth :=
  ⟨[], (tag, g.nodes) :: g.outer⟩

/-- Completes the given nodes and the open elements around them up to the first one of the given
name, which is marked as closed. -/
def closeUpTo (name : Text) : List Node → List (Tag × List Node) → Option Growth
  | _, [] => none
  | nodes, (tag, before) :: outer =>
    if tag.name == name then
      some ⟨.element { tag with closed := true } nodes.reverse :: before, outer⟩
    else closeUpTo name (.element tag nodes.reverse :: before) outer

/-- Takes one event. -/
def take (g : Growth) : Event → Growth
  | .startTag name attributes source =>
    let tag : Tag := ⟨name, distinct attributes, some source, false, false, []⟩
    if voidElements.contains name then g.add (.element tag []) else g.openElement tag
  | .emptyTag name attributes source =>
    g.add (.element ⟨name, distinct attributes, some source, true, false, []⟩ [])
  | .endTag name => (closeUpTo name g.nodes g.outer).getD (g.addText (endTagSource name))
  | .data text => g.addText text
  | .reference source => g.addText source
  | .comment text => g.add (.comment text)
  | .declaration text => g.add (.declaration text)
  | .markedSection text => g.add (.declaration (sectionDeclaration text))
  | .instruction text => g.add (.instruction text)

/-- The nodes of the document when all open elements are completed. -/
def finish : List Node → List (Tag × List Node) → List Node
  | nodes, [] => nodes.reverse
  | nodes, (tag, before) :: outer => finish (.element tag nodes.reverse :: before) outer

end Growth

namespace Document

/-- The document that a list of events describes. -/
def ofEvents (events : List Event) : Document :=
  let g := events.foldl Growth.take Growth.empty
  ⟨Growth.finish g.nodes g.outer⟩

/-- Reads a document. -/
def parse (t : Text) : Except Fault Document :=
  (events t).map ofEvents

end Document
end DataBinding.Markup
