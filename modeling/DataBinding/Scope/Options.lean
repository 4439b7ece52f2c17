/-
# Options of a transform

A transform is steered by a few names: which identifiers count as globals besides the built-in ones,
how the registration function of components is called, how generated functions are named, and what
replaces the dot when a path becomes a parameter.  With them goes the room that the caller leaves on
the stack, which bounds how far arrays and objects are read inside each other.
-/
import DataBinding.Text.Identifier
import DataBinding.Text.Quoted

namespace DataBinding

/-- The options of a transform.  The `room` is no setting: it is the number of brackets that the
reader of JSON values can open inside each other, which depends on where a transform is called from.
-/
structure Options where
  globals : List Text := []
  register : Text := "Polymer".toList
  functionPrefix : Text := "__c_".toList
  separator : Text := "__".toList
  strict : Bool := true
  room : Nat := 960

namespace Options

/-- Why options are refused. -/
inductive Fault where
  | invalidPrefix (given : Text)
  | invalidSeparator (given : Text)

/-- A fault in words. -/
def Fault.message : Fault → String
  | .invalidPrefix given =>
    s!"function_prefix must be a valid identifier, got {String.ofList given.quoted}"
  | .invalidSeparator given => s!"Invalid path separator {String.ofList given.quoted}"

/-- The first fault of the options: the beginning of function names must be an identifier, and the
separator must hold something but no dot. -/
def fault? (options : Options) : Option Fault :=
  if !options.functionPrefix.isIdentifier then some (.invalidPrefix options.functionPrefix)
  else if options.separator.isEmpty || options.separator.contains '.' then
    some (.invalidSeparator options.separator)
  else none

/-- The options if they have no fault. -/
def check (options : Options) : Except Fault Options :=
  match options.fault? with
  | some fault => .error fault
  | none => .ok options

end Options
end DataBinding
