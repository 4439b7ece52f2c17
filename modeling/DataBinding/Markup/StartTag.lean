/-
# Start tags

A start tag is a name with attributes between angle brackets.  Reading one ends in one of four
ways: the tag is complete, it runs into the end of the text, or it stops at a character that no tag
may hold there, and then what was read counts as plain text.  A tag that does not run into the end is
refused if one of its values cannot be decoded.
-/
import DataBinding.Markup.Attribute
import DataBinding.Markup.Reference
import DataBinding.Text.LowerCase

namespace DataBinding.Markup

/-! ## Names -/

/-- A character that ends the name of a tag. -/
def endsTagName (c : Char) : Bool :=
  "\t\n\r\x0c />\x00".toList.contains c

/-- The name at the head of a text, which starts with a plain letter. -/
def tagName? : Text → Option Text
  | c :: t => if c.isAlpha then some (c :: t.takeWhile (!endsTagName ·)) else none
  | [] => none

/-! ## Tags -/

/-- What a text that starts like a start tag turns out to be.  Lengths count characters. -/
inductive StartTag where
  | incomplete
  | junk (length : Nat)
  | complete (name : Text) (attributes : List (Text × Option Text)) (selfClosing : Bool)
      (length : Nat)
  | refused (digits : Nat)

/-- An attribute with its name in small letters and its value decoded. -/
def RawAttribute.decoded (a : RawAttribute) : Text × Option Text :=
  (a.name.lowerCase, a.value.map unescape)

/-- The digits of the first reference in the values of some attributes that has too many of them. -/
def overlongIn? (attributes : List RawAttribute) : Option Nat :=
  attributes.findSome? fun a => a.value.bind overlong?

/-- The tag unless a value of its attributes cannot be decoded. -/
def StartTag.unlessRefused (attributes : List RawAttribute) (tag : StartTag) : StartTag :=
  match overlongIn? attributes with
  | some digits => .refused digits
  | none => tag

/-- Reads a text whose first character opens a start tag with the given name. -/
def StartTag.read (name t : Text) : StartTag :=
  let afterName := t.drop (1 + name.length)
  let gap := (afterName.takeWhile fun c => c == '/' || Text.isBlank c).length
  let previous := (('<' :: name) ++ afterName.take gap).getLastD '<'
  let (attributes, n) := attributesFrom 0 previous (afterName.drop gap)
  let reached := 1 + name.length + gap + n
  let slashed := n == 0 && (afterName.take gap).getLast? == some '/'
  let complete (selfClosing : Bool) (length : Nat) :=
    StartTag.complete name.lowerCase (attributes.map RawAttribute.decoded) selfClosing length
  match t.drop reached with
  | '>' :: _ => unlessRefused attributes (complete slashed (reached + 1))
  | '/' :: '>' :: _ => unlessRefused attributes (complete true (reached + 2))
  | [] => .incomplete
  | c :: _ =>
    if c.isAlpha || c == '=' || c == '/' then .incomplete
    else unlessRefused attributes (.junk reached)

end DataBinding.Markup
