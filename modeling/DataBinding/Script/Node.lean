/-
# Parse trees of scripts

A script is read into a tree of constructs.  The tree keeps what later questions need: the kind of
each construct, its span in bytes, the wording of names and strings, and its parts in source order.
-/
import DataBinding.Expression.Basic

namespace DataBinding.Script

/-- The kinds of constructs.  Kinds that are told apart only by the shape of a call or a member
access share one name. -/
inductive Construct where
  | identifier
  | undefined
  | this
  | number
  | string
  | constant
  | parenthesized
  | member
  | subscript
  | call
  | unary
  | binary
  | ternary
  | array
  | privateMember
  | optionalCall
  | taggedCall
  | super
  | importWord
  | metaProperty
  | regex
  | template
  | object
  | pair
  | shorthand
  | spread
  | sequence
  | assignment
  | augmentedAssignment
  | update
  | await
  | yield
  | construction
  | function
  | generator
  | arrow
  | classLiteral
  | markupElement
  | markupEmptyElement
  | privateName
  | propertyName
  | computedName
  | remark
  | definition
  | pattern
  | expressionStatement
  | statement
  deriving DecidableEq, Repr

/-- The name of a construct in reports. -/
def Construct.name : Construct → String
  | identifier => "identifier"
  | undefined => "undefined"
  | this => "this"
  | number => "number"
  | string => "string"
  | constant => "constant"
  | parenthesized => "parenthesized_expression"
  | member | privateMember => "member_expression"
  | subscript => "subscript_expression"
  | call | optionalCall | taggedCall => "call_expression"
  | unary => "unary_expression"
  | binary => "binary_expression"
  | ternary => "ternary_expression"
  | array => "array"
  | super => "super"
  | importWord => "import"
  | metaProperty => "meta_property"
  | regex => "regex"
  | template => "template_string"
  | object => "object"
  | pair => "pair"
  | shorthand => "shorthand_property_identifier"
  | spread => "spread_element"
  | sequence => "sequence_expression"
  | assignment => "assignment_expression"
  | augmentedAssignment => "augmented_assignment_expression"
  | update => "update_expression"
  | await => "await_expression"
  | yield => "yield_expression"
  | construction => "new_expression"
  | function => "function_expression"
  | generator => "generator_function"
  | arrow => "arrow_function"
  | classLiteral => "class"
  | markupElement => "jsx_element"
  | markupEmptyElement => "jsx_self_closing_element"
  | privateName => "private_property_identifier"
  | propertyName => "property_identifier"
  | computedName => "computed_property_name"
  | remark => "html_comment"
  | definition => "method_definition"
  | pattern => "pattern"
  | expressionStatement => "expression_statement"
  | statement => "statement"

/-- A construct with its span, its wording if it is a name, a string or a number, and its parts. -/
inductive Node where
  | mk (construct : Construct) (span : Span) (wording : Text) (parts : List Node)
  deriving Repr

namespace Node

/-- The kind of the construct. -/
def construct : Node → Construct
  | mk c _ _ _ => c

/-- The bytes that the construct covers. -/
def span : Node → Span
  | mk _ s _ _ => s

/-- The wording of a name, a string or a number. -/
def wording : Node → Text
  | mk _ _ w _ => w

/-- The parts in source order. -/
def parts : Node → List Node
  | mk _ _ _ ps => ps

/-- A node that is known by its parts alone. -/
def group (construct : Construct) (span : Span) (parts : List Node) : Node :=
  mk construct span [] parts

mutual

/-- The construct and all constructs below it, an outer one before its parts. -/
def all : Node → List Node
  | mk construct span wording parts => mk construct span wording parts :: allOf parts

/-- Several constructs and all constructs below them, in source order. -/
def allOf : List Node → List Node
  | [] => []
  | node :: nodes => all node ++ allOf nodes

end

end Node
end DataBinding.Script
