/-
# Texts

Binding text, markup and scripts are all scanned and spliced character by character, so a text is a
list of characters.  This file holds the searches that the other files share.
-/

namespace DataBinding

/-- A text is a list of characters, since every operation here scans it or splices it. -/
abbrev Text := List Char

namespace Text

/-! ## Numbers -/

/-- The most digits that a decimal number may have, since a longer one is not turned into a value. -/
def maxDecimalDigits : Nat := 4300

/-! ## Searching -/

/-- The text with a leading `lead` removed, if it starts so. -/
def dropLead? : (lead : Text) → Text → Option Text
  | [], t => some t
  | _ :: _, [] => none
  | l :: lead, c :: t => if l == c then dropLead? lead t else none

/-- The text starts with `lead`. -/
def startsWith (t lead : Text) : Bool :=
  (dropLead? lead t).isSome

/-- The text holds `part` somewhere. -/
def holds (part : Text) : Text → Bool
  | [] => part.isEmpty
  | c :: t => startsWith (c :: t) part || holds part t

/-- The pieces before and after the first occurrence of a character. -/
def splitFirst (d : Char) : Text → Option (Text × Text)
  | [] => none
  | c :: t => if c == d then some ([], t) else (splitFirst d t).map fun (l, r) => (c :: l, r)

/-- All pieces between the occurrences of a character. -/
def splitAll (d : Char) : Text → List Text
  | [] => [[]]
  | c :: t =>
    match c == d, splitAll d t with
    | true, pieces => [] :: pieces
    | false, piece :: pieces => (c :: piece) :: pieces
    | false, [] => [[c]]

/-- The pieces before and after the last occurrence of `part`. -/
def splitLast (part : Text) : Text → Option (Text × Text)
  | [] => none
  | c :: t =>
    match splitLast part t with
    | some (l, r) => some (c :: l, r)
    | none => (dropLead? part (c :: t)).map fun r => ([], r)

/-- Replaces each occurrence of one character by a text. -/
def replaceChar (t : Text) (d : Char) (value : Text) : Text :=
  t.flatMap fun c => if c == d then value else [c]

/-- The texts with a separator between them. -/
def join (sep : Text) : List Text → Text
  | [] => []
  | [t] => t
  | t :: rest => t ++ sep ++ join sep rest

end Text
end DataBinding
