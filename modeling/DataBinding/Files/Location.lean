/-
# Locations of files

A location is written as components between slashes.  Doubled slashes and components of a single dot
mean nothing and vanish on reading; a component of two dots stays, since what it leads to depends on
the files.
-/
import DataBinding.Text.Basic

namespace DataBinding

/-- Where a file is: a root of slashes, which is empty for a relative location, and components. -/
structure Location where
  root : Text
  parts : List Text
  deriving DecidableEq, Repr

namespace Location

/-! ## Reading and writing -/

/-- The root of a written location.  Exactly two leading slashes are a root of their own. -/
def rootOf : Text → Text
  | ['/', '/'] => ['/', '/']
  | '/' :: '/' :: c :: _ => if c == '/' then ['/'] else ['/', '/']
  | '/' :: _ => ['/']
  | _ => []

/-- The component means something. -/
def isComponent (part : Text) : Bool :=
  !(part.isEmpty || part == ['.'])

/-- Reads a location. -/
def parse (t : Text) : Location :=
  ⟨rootOf t, (t.splitAll '/').filter isComponent⟩

/-- Writes components. -/
def writeParts (parts : List Text) : Text :=
  if parts.isEmpty then ['.'] else Text.join ['/'] parts

/-- Writes a location. -/
def write (l : Location) : Text :=
  if l.root.isEmpty then writeParts l.parts else l.root ++ Text.join ['/'] l.parts

/-! ## Parts -/

/-- The last component. -/
def name (l : Location) : Text :=
  l.parts.getLast?.getD []

/-- The location without its last component. -/
def parent (l : Location) : Location :=
  { l with parts := l.parts.dropLast }

/-- The location with further components. -/
def append (l : Location) (parts : List Text) : Location :=
  { l with parts := l.parts ++ parts }

/-- The components that lead from a base to the location, if it lies below. -/
def partsBelow? (l base : Location) : Option (List Text) :=
  if l.root == base.root && base.parts.isPrefixOf l.parts then
    some (l.parts.drop base.parts.length)
  else none

/-- The ending of a file's name: the last dot and what follows, unless one of the two is all there
is. -/
def ending (name : Text) : Text :=
  match Text.splitLast ['.'] name with
  | some (stem, extension) =>
    if stem.isEmpty || extension.isEmpty then [] else '.' :: extension
  | none => []

/-! ## Order -/

/-- One list comes before another or is the same, by the first difference. -/
def precedes {α : Type} (less : α → α → Bool) : List α → List α → Bool
  | [], _ => true
  | _ :: _, [] => false
  | a :: as, b :: bs => less a b || (!less b a && precedes less as bs)

/-- A text comes before another one, by the code points of the first difference. -/
def textLess (s t : Text) : Bool :=
  !precedes (fun a b => a.toNat < b.toNat) t s

/-- The order of directory entries. -/
def partsPrecede (p q : List Text) : Bool :=
  precedes textLess p q

end Location
end DataBinding
