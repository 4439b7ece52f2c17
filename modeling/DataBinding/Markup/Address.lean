/-
# Addresses of nodes

A node of a document is named by its address: the places of its ancestors and of itself among their
siblings, from the outside in.  Nodes are only ever added behind their siblings, so an address keeps
naming the same node.
-/
import DataBinding.Markup.Node

namespace DataBinding.Markup

/-- The places of a node's ancestors and of itself, from the outside in. -/
abbrev Address := List Nat

namespace Document

/-! ## Listing -/

mutual

/-- A node and the nodes below it in document order, with their addresses. -/
def listNode (address : Address) : Node → List (Address × Node)
  | .element tag children =>
    (address, .element tag children) :: listNodes address 0 children
  | node => [(address, node)]

/-- Nodes at the given place and the following ones, with all nodes below them. -/
def listNodes (parent : Address) (place : Nat) : List Node → List (Address × Node)
  | [] => []
  | node :: nodes => listNode (parent ++ [place]) node ++ listNodes parent (place + 1) nodes

end

/-- All nodes of a document in document order, with their addresses. -/
def nodes (document : Document) : List (Address × Node) :=
  listNodes [] 0 document.children

/-- The addresses of the elements with a name, in document order. -/
def findAll (document : Document) (name : Text) : List Address :=
  (document.nodes.filter (·.2.isNamed name)).map (·.1)

/-! ## Access -/

/-- The node at an address among the given nodes. -/
def nodeAt? : List Node → Address → Option Node
  | _, [] => none
  | nodes, [place] => nodes[place]?
  | nodes, place :: address =>
    match nodes[place]? with
    | some node => nodeAt? node.children address
    | none => none

/-- The node at an address. -/
def get? (document : Document) (address : Address) : Option Node :=
  nodeAt? document.children address

/-- The nodes below an address; the document's own for the empty address. -/
def childrenAt (document : Document) (address : Address) : List Node :=
  if address.isEmpty then document.children
  else ((document.get? address).map Node.children).getD []

/-- The addresses of a node's ancestors, the nearest first. -/
def ancestors (address : Address) : List Address :=
  ((List.range address.length).drop 1).reverse.map address.take

/-! ## Changes -/

/-- Changes the children of the node at an address, where `nodes` are those of the outermost. -/
def changeChildren (change : List Node → List Node) : Address → List Node → List Node
  | [], nodes => change nodes
  | place :: address, nodes =>
    nodes.modify place fun node =>
      match node with
      | .element tag children => .element tag (changeChildren change address children)
      | node => node

/-- Changes the node at an address. -/
def modifyNode (document : Document) (address : Address) (change : Node → Node) : Document :=
  match address.getLast? with
  | none => document
  | some place =>
    ⟨changeChildren (fun nodes => nodes.modify place change) address.dropLast document.children⟩

/-- Adds a node behind the children of the node at an address. -/
def append (document : Document) (address : Address) (node : Node) : Document :=
  ⟨changeChildren (· ++ [node]) address document.children⟩

end Document
end DataBinding.Markup
