/-
# Start tags with changed values

A start tag whose attributes were set is written from its source: the source is cut into attributes,
and the values of the changed ones are replaced in place, so that all else stays as it was written.
If a changed attribute is not found in the source, the whole tag is written anew.
-/
import DataBinding.Markup.Attribute
import DataBinding.Markup.Node
import DataBinding.Markup.Reference
import DataBinding.Text.LowerCase

namespace DataBinding.Markup

/-! ## Cutting a start tag -/

/-- An attribute in the source of a start tag: what stands before its name, the name, and its value
with the equals sign, all as written.  `raw` is the value alone, quotes included. -/
structure Slot where
  before : Text
  name : Text
  value : Text
  raw : Option Text

/-- The length of the opening of a tag: an angle bracket and the name. -/
def opening? : Text → Option Nat
  | '<' :: t =>
    let n := (t.takeWhile fun c => !(Text.isBlank c || c == '/' || c == '>')).length
    if n == 0 then none else some (n + 1)
  | _ => none

/-- The value behind an attribute's name: the length of what precedes it, equals sign included, and
the value as written. -/
def writtenValue? (t : Text) : Option (Nat × Text) :=
  let before := blanks t
  match t.drop before with
  | '=' :: t =>
    let after := blanks t
    let rest := t.drop after
    match quotedContents? rest with
    | some contents => some (before + 1 + after, rest.take (contents.length + 2))
    | none =>
      if startsQuote rest then if 0 < after then some (before + after, []) else none
      else some (before + 1 + after, rest.takeWhile isBarePart)
  | _ => none

/-- The attribute at the head of a text, with its length. -/
def slot? (t : Text) : Option (Slot × Nat) :=
  let before := t.takeWhile fun c => c == '/' || Text.isBlank c
  let rest := t.drop before.length
  let name := rest.takeWhile isAttributeNamePart
  if name.isEmpty then none
  else
    let behind := rest.drop name.length
    match writtenValue? behind with
    | some (n, raw) =>
      let value := behind.take (n + raw.length)
      some (⟨before, name, value, some raw⟩, before.length + name.length + value.length)
    | none => some (⟨before, name, [], none⟩, before.length + name.length)

/-- The attributes at the head of a text and what follows them; the first `skip` characters belong
to an attribute before. -/
def slotsFrom : (skip : Nat) → Text → List Slot × Text
  | _, [] => ([], [])
  | skip + 1, _ :: t => slotsFrom skip t
  | 0, c :: t =>
    match slot? (c :: t) with
    | none => ([], c :: t)
    | some (slot, n) =>
      let (slots, rest) := slotsFrom (n - 1) t
      (slot :: slots, rest)

/-! ## Writing values -/

/-- A value with its equals sign, in single quotes if the value it replaces has them. -/
def renderValue (value : Option Text) (raw : Option Text) : Text :=
  match value with
  | none => []
  | some value =>
    let quote : Quote := if raw.bind List.head? == some '\'' then .single else .double
    '=' :: quote.char :: (escape quote value ++ [quote.char])

/-- The attribute's name is among the changed ones. -/
def Slot.isChanged (slot : Slot) (changed : List Text) : Bool :=
  changed.contains slot.name.lowerCase

/-- An attribute with its new value if it was changed, else as it was written. -/
def Slot.render (slot : Slot) (tag : Tag) : Text :=
  slot.before ++ slot.name ++
    if slot.isChanged tag.changed then renderValue (tag.get? slot.name.lowerCase) slot.raw
    else slot.value

/-- The source with the changed values in place. -/
def splice? (tag : Tag) (source : Text) : Option Text :=
  match opening? source with
  | none => none
  | some n =>
    let (slots, rest) := slotsFrom 0 (source.drop n)
    if tag.changed.all fun name => slots.any fun slot => slot.name.lowerCase == name then
      some (source.take n ++ slots.flatMap (·.render tag) ++ rest)
    else none

namespace Tag

/-- The start tag written anew. -/
def render (tag : Tag) : Text :=
  let attributes := tag.attributes.flatMap fun (name, value) =>
    ' ' :: (name ++ renderValue value none)
  '<' :: (tag.name ++ attributes ++ if tag.selfClosing then "/>".toList else ['>'])

/-- The start tag: its source as long as no attribute was set. -/
def write (tag : Tag) : Text :=
  match tag.source with
  | none => tag.render
  | some source =>
    if tag.changed.isEmpty then source else (splice? tag source).getD tag.render

end Tag
end DataBinding.Markup
