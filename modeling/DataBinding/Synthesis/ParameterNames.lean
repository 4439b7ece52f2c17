/-
# Names of parameters

Every path of a generated function becomes a parameter.  A plain identifier keeps its name; a dotted
path is flattened, with a separator for each dot, and numbered if another parameter or an identifier
that stays free already has the flat name.
-/
import DataBinding.Scope.Basic

namespace DataBinding.ParameterNames

/-- The path with each dot replaced by a separator. -/
def flatten (path separator : Text) : Text :=
  path.replaceChar '.' separator

/-- The path has a dot. -/
def isDotted (path : Text) : Bool :=
  path.contains '.'

/-- The candidates for a name, in the order they are tried: the flat name, then with a number. -/
def candidate (flat : Text) : Nat → Text
  | 0 => flat
  | n + 1 => flat ++ '_' :: Scope.numeral (n + 1)

/-- The first candidate that is not taken; one more candidate than taken names always suffices. -/
def fresh (taken : List Text) (flat : Text) : Text :=
  (((List.range (taken.length + 1)).map (candidate flat)).find? fun name =>
    !taken.contains name).getD flat

/-- The names given so far, with everything that is taken. -/
structure Given where
  names : List (Text × Text)
  taken : List Text

/-- Names one more path. -/
def give (separator : Text) (given : Given) (path : Text) : Given :=
  if given.names.any (·.1 == path) then given
  else if isDotted path then
    let name := fresh given.taken (flatten path separator)
    ⟨given.names ++ [(path, name)], given.taken ++ [name]⟩
  else { given with names := given.names ++ [(path, path)] }

/-- The distinct paths in the order of their first appearance, each with its name.  The names of
plain identifiers are taken from the start, as are the reserved ones. -/
def assign (paths : List Text) (separator : Text) (reserved : List Text) : List (Text × Text) :=
  (paths.foldl (give separator) ⟨[], reserved ++ paths.filter (!isDotted ·)⟩).names

/-- The name of a path. -/
def nameOf (names : List (Text × Text)) (path : Text) : Text :=
  ((names.find? (·.1 == path)).map (·.2)).getD path

end DataBinding.ParameterNames
