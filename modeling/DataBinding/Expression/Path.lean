/-
# Paths

A path names a piece of state: an identifier, or identifiers joined by dots.  This file reads paths
off texts that need not be expressions: the root of a path, the name that a text starts with, and
the accessors `.*` and `.0` that only paths of observers hold.
-/
import DataBinding.Text.Blank
import DataBinding.Text.WordChar

namespace DataBinding.Path

/-- The part of a path before its first dot. -/
def root (path : Text) : Text :=
  path.takeWhile (· != '.')

/-- A character that starts a plain name. -/
def isNameStart (c : Char) : Bool :=
  c.isAlpha || c == '_' || c == '$'

/-- A character that continues a plain name. -/
def isNamePart (c : Char) : Bool :=
  c == '$' || Text.isWordChar c

/-- The plain name that a text starts with, after blanks. -/
def leadingName? (t : Text) : Option Text :=
  match t.trimLeft with
  | [] => none
  | c :: rest => if isNameStart c then some (c :: rest.takeWhile isNamePart) else none

/-- The text holds a dot followed by a star or a digit. -/
def hasAccessor : Text → Bool
  | '.' :: c :: t => c == '*' || c.isDigit || hasAccessor (c :: t)
  | _ :: t => hasAccessor t
  | [] => false

end DataBinding.Path
