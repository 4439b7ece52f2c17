/-
# Declarations of components

A component is declared in a script by a call of the registration function with an object literal.
A script is read only if it mentions such a call in its text, and the first script with a call, in
document order, holds the declaration.
-/
import DataBinding.Markup.Address
import DataBinding.Script.Parser
import DataBinding.Text.Blank

namespace DataBinding

/-- The declaration of a component: the text node of its script, the byte just inside the object
literal, what the object says about the component, and whether the script has unreadable parts. -/
structure Declaration where
  address : Markup.Address
  insertAt : Nat
  componentId : Option Text
  properties : List Text
  hasErrors : Bool

/-! ## Mentions -/

namespace Text

/-- The text starts with a bracket behind blanks, and what follows passes the test. -/
def opensWith (bracket : Char) (test : Text → Bool) (t : Text) : Bool :=
  match t.trimLeft with
  | [] => false
  | c :: rest => c == bracket && test rest

/-- The text starts with a name and, blanks apart, the opening of a call with an object literal. -/
def startsCall (name t : Text) : Bool :=
  match dropLead? name t with
  | none => false
  | some rest => rest.opensWith '(' (opensWith '\x7b' fun _ => true)

/-- Somewhere in the text a name is followed by the opening of a call with an object literal. -/
def mentionsCall (t name : Text) : Bool :=
  match t with
  | [] => startsCall name []
  | c :: t => startsCall name (c :: t) || mentionsCall t name

end Text

/-! ## Calls -/

namespace Script.Node

/-- The object literal that is the first argument of a call of a name. -/
def registered? (name : Text) : Node → Option Node
  | mk .call _ _ (callee :: first :: _) | mk .optionalCall _ _ (callee :: first :: _) =>
    if callee.construct == .identifier && callee.wording == name && first.construct == .object then
      some first
    else none
  | _ => none

/-- The contents of a string, as they are written between the quotes. -/
def stringContents (node : Node) : Text :=
  (node.wording.drop 1).dropLast

/-- The name of a property that is written as a word, a number or a string. -/
def keyName? (key : Node) : Option Text :=
  match key.construct with
  | .propertyName | .number => some key.wording
  | .string => some key.stringContents
  | _ => none

/-- The name of a member of an object literal, with its value if it has one of its own. -/
def property? : Node → Option (Text × Option Node)
  | mk .pair _ _ [key, value] => key.keyName?.map fun name => (name, some value)
  | mk .shorthand _ name _ => some (name, none)
  | _ => none

/-- The named members of an object literal. -/
def properties (object : Node) : List (Text × Option Node) :=
  object.parts.filterMap property?

/-- The first value of a kind that an object literal gives to a name. -/
def valueOf? (object : Node) (name : String) (construct : Construct) : Option Node :=
  object.properties.findSome? fun (key, value) =>
    if key == name.toList then value.filter (·.construct == construct) else none

end Script.Node

namespace Declaration

/-! ## Scripts -/

/-- The declaration in an object literal. -/
def ofObject (address : Markup.Address) (object : Script.Node) (hasErrors : Bool) : Declaration :=
  { address
    insertAt := object.span.start + 1
    componentId := (object.valueOf? "is" .string).map (·.stringContents)
    properties :=
      ((object.valueOf? "properties" .object).map fun o => o.properties.map (·.1)).getD []
    hasErrors }

/-- The declaration in a script whose text node has the given address. -/
def ofScript? (register : Text) (address : Markup.Address) (t : Text) : Option Declaration :=
  let program := Script.parse t
  ((Script.Node.allOf program.statements).findSome? (·.registered? register)).map fun object =>
    ofObject address object program.fault.isSome

/-- The first declaration among scripts, and the number of scripts before it that mention a call
but hold none. -/
def search (register : Text) : List (Markup.Address × Text) → Option Declaration × Nat
  | [] => (none, 0)
  | (address, t) :: rest =>
    if t.mentionsCall register then
      match ofScript? register address t with
      | some found => (some found, 0)
      | none =>
        let (found, missed) := search register rest
        (found, missed + 1)
    else search register rest

/-- The texts of the scripts of a document, each with the address of its node. -/
def scripts (document : Markup.Document) : List (Markup.Address × Text) :=
  (document.findAll "script".toList).filterMap fun address =>
    match document.childrenAt address with
    | .text t :: _ => some (address ++ [0], t)
    | _ => none

/-- The declaration of a document, and the number of scripts that were read in vain before it. -/
def locate (document : Markup.Document) (register : Text) : Option Declaration × Nat :=
  search register (scripts document)

end Declaration
end DataBinding
