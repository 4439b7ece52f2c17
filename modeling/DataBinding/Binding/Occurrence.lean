/-
# Occurrences of bindings

A binding is written between two opening and two closing brackets: square ones for one-way bindings,
braces for two-way bindings.  Each direction is scanned from left to right.  A binding ends at the
first pair of closing brackets that no third one follows, and holds at least one character and no
line end.  A two-way binding may name an event behind a double colon.  Finding the bindings of markup
text fails where the expression of one of them cannot be decoded.
-/
import DataBinding.Markup.Reference
import DataBinding.Text.Json
import DataBinding.Expression.Path

namespace DataBinding

/-- The direction of a binding. -/
inductive Direction where
  | oneWay
  | twoWay
  deriving DecidableEq, Repr

namespace Direction

/-- The opening bracket, which is written twice. -/
def opener : Direction → Char
  | oneWay => '['
  | twoWay => '\x7b'

/-- The closing bracket, which is written twice. -/
def closer : Direction → Char
  | oneWay => ']'
  | twoWay => '\x7d'

/-- The opening of a binding. -/
def opening (d : Direction) : Text :=
  [d.opener, d.opener]

/-- The closing of a binding. -/
def closing (d : Direction) : Text :=
  [d.closer, d.closer]

end Direction

/-- A binding in a text.  The places count characters from the start of the text. -/
structure Occurrence where
  direction : Direction
  written : Text
  expression : Text
  event : Option Text
  start : Nat
  stop : Nat

namespace Occurrence

/-! ## Scanning -/

/-- A closing pair starts here and no third closing bracket follows. -/
def closesHere (d : Direction) : Text → Bool
  | a :: b :: t => a == d.closer && b == d.closer && t.head? != some d.closer
  | _ => false

/-- The number of characters before the closing pair, none of which is a line end. -/
def untilClosing? (d : Direction) : Text → Option Nat
  | [] => none
  | c :: t =>
    if closesHere d (c :: t) then some 0
    else if c == '\n' then none
    else (untilClosing? d t).map (· + 1)

/-- The number of characters between the brackets of the binding that starts here. -/
def innerLength? (d : Direction) : Text → Option Nat
  | a :: b :: c :: t =>
    if a == d.opener && b == d.opener && c != '\n' then (untilClosing? d t).map (· + 1) else none
  | _ => none

/-- The expression and the event of a binding. -/
def splitEvent (d : Direction) (inner : Text) : Text × Option Text :=
  match d with
  | .oneWay => (inner, none)
  | .twoWay =>
    match Text.splitLast "::".toList inner with
    | some (expression, event) => (expression, some event)
    | none => (inner, none)

/-- The binding at a place.  In markup text, which is `raw`, the expression is decoded. -/
def ofInner (d : Direction) (raw : Bool) (start : Nat) (inner : Text) : Occurrence :=
  let (expression, event) := splitEvent d inner
  { direction := d
    written := d.opening ++ inner ++ d.closing
    expression := if raw then Markup.unescape expression else expression
    event
    start
    stop := start + inner.length + 4 }

/-- The bindings of one direction in a text that starts at the given place; the first `skip`
characters belong to a binding before. -/
def scanFrom (d : Direction) (raw : Bool) : (skip place : Nat) → Text → List Occurrence
  | _, _, [] => []
  | skip + 1, place, _ :: t => scanFrom d raw skip (place + 1) t
  | 0, place, c :: t =>
    match innerLength? d (c :: t) with
    | some n =>
      ofInner d raw place ((t.drop 1).take n) :: scanFrom d raw (n + 3) (place + 1) t
    | none => scanFrom d raw 0 (place + 1) t

/-- Joins two lists of bindings that are in order of their places. -/
def merge : List Occurrence → List Occurrence → List Occurrence
  | [], others => others
  | o :: os, others =>
    others.takeWhile (·.start < o.start) ++ o :: merge os (others.dropWhile (·.start < o.start))

/-- The bindings that stand in a text, in order. -/
def found (raw : Bool) (t : Text) : List Occurrence :=
  merge (scanFrom .oneWay raw 0 0 t) (scanFrom .twoWay raw 0 0 t)

/-- The digits of the first reference with too many of them in the expressions of a text, which are
decoded in markup text only: those of the one-way bindings, then those of the two-way bindings. -/
def overlong? (raw : Bool) (t : Text) : Option Nat :=
  if raw then
    (scanFrom .oneWay false 0 0 t ++ scanFrom .twoWay false 0 0 t).findSome? fun o =>
      Markup.overlong? o.expression
  else none

/-- Finds the bindings of a text, in order, unless an expression has a reference with too many digits;
their number is given then. -/
def find (raw : Bool) (t : Text) : Except Nat (List Occurrence) :=
  match overlong? raw t with
  | some digits => .error digits
  | none => .ok (found raw t)

/-- The text holds the opening of a binding. -/
def mayHold (t : Text) : Bool :=
  Text.holds Direction.oneWay.opening t || Text.holds Direction.twoWay.opening t

/-! ## Use -/

/-- The binding is two-way. -/
def isTwoWay (o : Occurrence) : Bool :=
  o.direction == .twoWay

/-- An expression in the brackets of the binding, with its event if it names one. -/
def render (o : Occurrence) (expression : Text) : Text :=
  let suffix :=
    match o.event with
    | some event => if event.isEmpty then [] else "::".toList ++ event
    | none => []
  o.direction.opening ++ expression ++ suffix ++ o.direction.closing

/-- Tells whether the text is legitimate although it is no expression: a JSON value, alone or with the
brackets, or a path with an accessor.  Each is tried only if the one before fails. -/
def isLiteral (room : Nat) (o : Occurrence) : Except Text.Json.Bracket Bool := do
  if ← o.expression.isJson room then return true
  if ← o.written.isJson room then return true
  return Path.hasAccessor o.expression

end Occurrence
end DataBinding
