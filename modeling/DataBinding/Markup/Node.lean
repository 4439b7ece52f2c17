/-
# Markup trees

A document is a list of nodes: texts, remarks of three kinds, and elements with nodes of their own.
An element remembers its start tag as written, which attributes were set since, and whether its end
tag was seen, so that an untouched document can be written back as it was read.
-/
import DataBinding.Text.Basic

namespace DataBinding.Markup

/-- The tag of an element.  `changed` lists the attributes that were set after reading. -/
structure Tag where
  name : Text
  attributes : List (Text × Option Text)
  source : Option Text
  selfClosing : Bool
  closed : Bool
  changed : List Text

/-- A node of a markup tree. -/
inductive Node where
  | text (data : Text)
  | comment (data : Text)
  | declaration (data : Text)
  | instruction (data : Text)
  | element (tag : Tag) (children : List Node)

/-- A document is the list of its outermost nodes. -/
structure Document where
  children : List Node

/-! ## Attributes -/

/-- The value that a list of names and values gives to a name. -/
def lookUp (name : Text) (attributes : List (Text × Option Text)) : Option (Option Text) :=
  (attributes.find? (·.1 == name)).map (·.2)

/-- Sets a name's value, in its place if the name is there and behind the others if not. -/
def assign (attributes : List (Text × Option Text)) (name : Text) (value : Option Text) :
    List (Text × Option Text) :=
  match attributes with
  | [] => [(name, value)]
  | (n, v) :: rest => if n == name then (n, value) :: rest else (n, v) :: assign rest name value

/-- One value per name: the last one, at the place of the first one. -/
def distinct (attributes : List (Text × Option Text)) : List (Text × Option Text) :=
  attributes.foldl (fun kept (name, value) => assign kept name value) []

namespace Tag

/-- The value of an attribute; none if the attribute is missing or has no value. -/
def get? (tag : Tag) (name : Text) : Option Text :=
  (lookUp name tag.attributes).join

/-- Sets an attribute. -/
def set (tag : Tag) (name : Text) (value : Option Text) : Tag :=
  { tag with
    attributes := assign tag.attributes name value
    changed := if tag.changed.contains name then tag.changed else tag.changed ++ [name] }

end Tag

/-! ## Elements -/

/-- The elements that never have contents. -/
def voidElements : List Text :=
  ["area", "base", "br", "col", "embed", "hr", "img", "input", "link", "meta", "param", "source",
    "track", "wbr"].map String.toList

namespace Node

/-- The tag of an element. -/
def tag? : Node → Option Tag
  | element tag _ => some tag
  | _ => none

/-- The nodes inside an element. -/
def children : Node → List Node
  | element _ children => children
  | _ => []

/-- The text of a text node. -/
def textData? : Node → Option Text
  | text data => some data
  | _ => none

/-- The node is an element with the given name. -/
def isNamed (name : Text) : Node → Bool
  | element tag _ => tag.name == name
  | _ => false

/-- The texts directly inside an element, joined. -/
def innerText (node : Node) : Text :=
  node.children.flatMap fun child => child.textData?.getD []

end Node
end DataBinding.Markup
