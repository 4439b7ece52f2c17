/-
# Attributes of start tags

Attributes are read off a start tag one after the other.  Between them stand blanks and slashes; a
name runs up to a blank, a slash, an equals sign or the end of the tag; a value follows one or more
equals signs, in quotes or bare.  An attribute may start only behind a blank, a slash or a quote.
-/
import DataBinding.Text.Blank

namespace DataBinding.Markup

/-- An attribute as it is read, with its value as written between the quotes. -/
structure RawAttribute where
  name : Text
  value : Option Text

/-! ## Parts -/

/-- The length of the blanks at the head of a text. -/
def blanks (t : Text) : Nat :=
  (t.takeWhile Text.isBlank).length

/-- The length of the blanks and slashes at the head of a text, up to a slash that ends the tag. -/
def separators : Text → Nat
  | '/' :: '>' :: _ => 0
  | c :: t => if c == '/' || Text.isBlank c then 1 + separators t else 0
  | [] => 0

/-- A character that continues an attribute's name. -/
def isAttributeNamePart (c : Char) : Bool :=
  !(Text.isBlank c || c == '/' || c == '=' || c == '>')

/-- The length of the attribute name at the head of a text, which may start with an equals sign. -/
def attributeName : Text → Nat
  | c :: t =>
    if isAttributeNamePart c || c == '=' then 1 + (t.takeWhile isAttributeNamePart).length else 0
  | [] => 0

/-- A character of a bare value. -/
def isBarePart (c : Char) : Bool :=
  c != '>' && !Text.isBlank c

/-- The contents between the quote at the head of a text and its partner. -/
def quotedContents? : Text → Option Text
  | quote :: t =>
    let contents := t.takeWhile (· != quote)
    if (quote == '"' || quote == '\'') && contents.length < t.length then some contents else none
  | [] => none

/-- The text starts with a quote. -/
def startsQuote (t : Text) : Bool :=
  t.head? == some '"' || t.head? == some '\''

/-! ## Values -/

/-- The value behind an attribute's name: its text and the length of the whole, equals signs
included.  Behind a quote without partner the value is cut back: to nothing if a blank precedes the
quote, else to the last of several equals signs and what follows it. -/
def attributeValue? (t : Text) : Option (Text × Nat) :=
  let before := blanks t
  let signs := ((t.drop before).takeWhile (· == '=')).length
  let after := blanks (t.drop (before + signs))
  let start := before + signs + after
  let rest := t.drop start
  if signs == 0 then none
  else
    match quotedContents? rest with
    | some contents => some (contents, start + contents.length + 2)
    | none =>
      if startsQuote rest then
        if 0 < after then some ([], start - 1)
        else if 1 < signs then
          let bare := (t.drop (start - 1)).takeWhile isBarePart
          some (bare, start - 1 + bare.length)
        else none
      else
        let bare := rest.takeWhile isBarePart
        some (bare, start + bare.length)

/-! ## Attributes -/

/-- An attribute may start behind this character. -/
def mayPrecede (c : Char) : Bool :=
  c == '"' || c == '\'' || c == '/' || Text.isBlank c

/-- The attribute at the head of a text that follows the character `previous`, and its length with
the blanks and slashes behind it. -/
def attribute? (previous : Char) (t : Text) : Option (RawAttribute × Nat) :=
  let n := attributeName t
  if n == 0 || !mayPrecede previous then none
  else
    let rest := t.drop n
    let (value, m) :=
      match attributeValue? rest with
      | some (value, m) => (some value, m)
      | none => (none, 0)
    some (⟨t.take n, value⟩, n + m + separators (rest.drop m))

/-- The attributes at the head of a text and their length; the first `skip` characters belong to an
attribute before. -/
def attributesFrom : (skip : Nat) → (previous : Char) → Text → List RawAttribute × Nat
  | _, _, [] => ([], 0)
  | skip + 1, _, c :: t =>
    let (attributes, n) := attributesFrom skip c t
    (attributes, n + 1)
  | 0, previous, c :: t =>
    match attribute? previous (c :: t) with
    | none => ([], 0)
    | some (found, n) =>
      let (attributes, m) := attributesFrom (n - 1) c t
      (found :: attributes, m + 1)

end DataBinding.Markup
