/-
# Markup events

Markup is first cut into events, the tags, texts and remarks in the order they are written, before a
tree is built.  Every event has a source, and the source of an untouched event is written back when
the tree is printed.
-/
import DataBinding.Text.Basic

namespace DataBinding.Markup

/-- One piece of markup. -/
inductive Event where
  | startTag (name : Text) (attributes : List (Text × Option Text)) (source : Text)
  | emptyTag (name : Text) (attributes : List (Text × Option Text)) (source : Text)
  | endTag (name : Text)
  | data (text : Text)
  | reference (source : Text)
  | comment (text : Text)
  | declaration (text : Text)
  | markedSection (text : Text)
  | instruction (text : Text)

/-- An end tag with the given name, as it is written. -/
def endTagSource (name : Text) : Text :=
  "</".toList ++ name ++ ['>']

/-- A comment as it is written. -/
def commentSource (text : Text) : Text :=
  "<!--".toList ++ text ++ "-->".toList

/-- A declaration as it is written. -/
def declarationSource (text : Text) : Text :=
  "<!".toList ++ text ++ ['>']

/-- A processing instruction as it is written. -/
def instructionSource (text : Text) : Text :=
  "<?".toList ++ text ++ ['>']

/-- A marked section as the text of a declaration. -/
def sectionDeclaration (text : Text) : Text :=
  '[' :: (text ++ [']'])

/-- The markup that an event stands for. -/
def Event.source : Event → Text
  | .startTag _ _ source | .emptyTag _ _ source | .reference source => source
  | .endTag name => endTagSource name
  | .data text => text
  | .comment text => commentSource text
  | .declaration text => declarationSource text
  | .markedSection text => declarationSource (sectionDeclaration text)
  | .instruction text => instructionSource text

end DataBinding.Markup
