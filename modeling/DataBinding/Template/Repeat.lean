/-
# Templates

Bindings live in templates.  A host template is stamped by the component itself: it carries no
marker, or the one that binds the page.  A repeat template is stamped once per item of a list, and
gives names to the item and to its index.
-/
import DataBinding.Markup.Address

namespace DataBinding.Markup

/-! ## Markers -/

namespace Tag

/-- The name of an attribute that makes a template more than a plain one. -/
def markerName : Text :=
  "is".toList

/-- The tag is that of a template. -/
def isTemplate (tag : Tag) : Bool :=
  tag.name == "template".toList

/-- The value of an attribute, unless it is missing or empty. -/
def filled? (tag : Tag) (name : String) : Option Text :=
  (tag.get? name.toList).filter (!·.isEmpty)

/-- The tag is that of a template that the component stamps itself. -/
def isHost (tag : Tag) : Bool :=
  tag.isTemplate &&
    match tag.get? markerName with
    | none => true
    | some marker => marker.isEmpty || marker == "dom-bind".toList

/-- The tag is that of a repeat template. -/
def isRepeat (tag : Tag) : Bool :=
  tag.isTemplate && tag.get? markerName == some "dom-repeat".toList

/-- The name that a repeat template gives to the item. -/
def itemName (tag : Tag) : Text :=
  (tag.filled? "as").getD "item".toList

/-- The name that a repeat template gives to the index of the item. -/
def indexName (tag : Tag) : Text :=
  ((tag.filled? "index-as").or (tag.filled? "indexas")).getD "index".toList

/-- The names that a tag gives to its contents. -/
def repeatNames (tag : Tag) : List Text :=
  if tag.isRepeat then [tag.itemName, tag.indexName] else []

end Tag

/-! ## Places in a document -/

namespace Node

/-- The node is a repeat template. -/
def isRepeat (node : Node) : Bool :=
  node.tag?.any Tag.isRepeat

/-- The names that a node gives to its contents. -/
def repeatNames (node : Node) : List Text :=
  (node.tag?.map Tag.repeatNames).getD []

end Node

namespace Document

/-- The names that repeat templates give to the node at an address, which counts itself. -/
def repeatNamesAt (document : Document) (address : Address) : List Text :=
  (address :: ancestors address).flatMap fun place =>
    ((document.get? place).map Node.repeatNames).getD []

mutual

/-- The addresses of the host templates in a node, without those inside others. -/
def hostsInNode (address : Address) : Node → List Address
  | .element tag children => if tag.isHost then [address] else hostsInNodes address 0 children
  | _ => []

/-- The addresses of the host templates in nodes at the given place and the following ones. -/
def hostsInNodes (parent : Address) (place : Nat) : List Node → List Address
  | [] => []
  | node :: nodes =>
    hostsInNode (parent ++ [place]) node ++ hostsInNodes parent (place + 1) nodes

end

/-- The addresses of the host templates in document order, without those inside others. -/
def hosts (document : Document) : List Address :=
  hostsInNodes [] 0 document.children

end Document
end DataBinding.Markup
