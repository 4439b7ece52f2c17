/-
# Walks over host templates

A walk visits every place below a host template that may hold bindings, in document order: the texts
that are not blank, and the attribute values that are not empty.  The contents of scripts and styles
and the attributes of repeat templates are passed over.  A visitor sees one place at a time, threads
a state of its own, and may answer with a text to stand there instead.  An attempt is a visitor that
may stop, and then nothing further is visited.
-/
import DataBinding.Markup.Scan
import DataBinding.Template.Repeat
import DataBinding.Text.Blank

namespace DataBinding

/-- A place that may hold bindings.  A text node is `raw`, since references in it stand as they are
written, and an attribute's value is not. -/
structure Site where
  text : Text
  raw : Bool
  attributeName : Option Text
  repeats : List Text

/-- What is done at a place: with a state before it, an answer and the state behind it. -/
abbrev Visitor (σ : Type) :=
  Site → σ → Option Text × σ

/-- What is tried at a place: it may stop. -/
abbrev Attempt (ε σ : Type) :=
  Site → σ → Except ε (Option Text × σ)

/-- The visitor that makes an attempt everywhere up to the first stop. -/
def Attempt.visitor {ε σ : Type} (attempt : Attempt ε σ) : Visitor (Except ε σ)
  | _, .error stop => (none, .error stop)
  | site, .ok state =>
    match attempt site state with
    | .error stop => (none, .error stop)
    | .ok (answer, state) => (answer, .ok state)

namespace Markup

variable {σ : Type}

/-! ## Places -/

/-- Visits the text of a text node. -/
def visitText (visit : Visitor σ) (repeats : List Text) (data : Text) (state : σ) : Text × σ :=
  if data.allBlank then (data, state)
  else
    let (answer, state) := visit ⟨data, true, none, repeats⟩ state
    (answer.getD data, state)

/-- The tag with an attribute's value replaced, if the answer is another value. -/
def Tag.answered (tag : Tag) (name value : Text) : Option Text → Tag
  | none => tag
  | some answer => if answer == value then tag else tag.set name (some answer)

/-- Visits the value of an attribute. -/
def visitAttribute (visit : Visitor σ) (repeats : List Text) (reached : Tag × σ)
    (entry : Text × Option Text) : Tag × σ :=
  let (tag, state) := reached
  match entry with
  | (_, none) | (_, some []) => reached
  | (name, some value) =>
    let (answer, state) := visit ⟨value, false, some name, repeats ++ tag.repeatNames⟩ state
    (tag.answered name value answer, state)

/-- Visits the attributes of a tag. -/
def visitTag (visit : Visitor σ) (repeats : List Text) (tag : Tag) (state : σ) : Tag × σ :=
  if tag.isRepeat then (tag, state)
  else tag.attributes.foldl (visitAttribute visit repeats) (tag, state)

/-! ## Nodes -/

mutual

/-- Visits the places in a node below a host template; `inRaw` tells that no text counts. -/
def visitNode (visit : Visitor σ) (repeats : List Text) (inRaw : Bool) : Node → σ → Node × σ
  | .text data, state =>
    if inRaw then (.text data, state)
    else
      let (data, state) := visitText visit repeats data state
      (.text data, state)
  | .element tag children, state =>
    let (tag, state) := visitTag visit repeats tag state
    let (children, state) :=
      visitNodes visit (repeats ++ tag.repeatNames) (isRawText tag.name) children state
    (.element tag children, state)
  | node, state => (node, state)

/-- Visits the places in nodes that follow each other. -/
def visitNodes (visit : Visitor σ) (repeats : List Text) (inRaw : Bool) :
    List Node → σ → List Node × σ
  | [], state => ([], state)
  | node :: nodes, state =>
    let (node, state) := visitNode visit repeats inRaw node state
    let (nodes, state) := visitNodes visit repeats inRaw nodes state
    (node :: nodes, state)

end

mutual

/-- Visits the places below the host templates in a node. -/
def walkNode (visit : Visitor σ) (repeats : List Text) : Node → σ → Node × σ
  | .element tag children, state =>
    let (children, state) :=
      if tag.isHost then visitNodes visit repeats false children state
      else walkNodes visit (repeats ++ tag.repeatNames) children state
    (.element tag children, state)
  | node, state => (node, state)

/-- Visits the places below the host templates in nodes that follow each other. -/
def walkNodes (visit : Visitor σ) (repeats : List Text) : List Node → σ → List Node × σ
  | [], state => ([], state)
  | node :: nodes, state =>
    let (node, state) := walkNode visit repeats node state
    let (nodes, state) := walkNodes visit repeats nodes state
    (node :: nodes, state)

end

/-- Visits the places below the host templates of a document. -/
def Document.walk (document : Document) (visit : Visitor σ) (state : σ) : Document × σ :=
  let (children, state) := walkNodes visit [] document.children state
  (⟨children⟩, state)

/-- Makes an attempt at the places below the host templates of a document. -/
def Document.attempt {ε : Type} (document : Document) (attempt : Attempt ε σ) (state : σ) :
    Except ε (Document × σ) :=
  let (document, reached) := document.walk attempt.visitor (.ok state)
  reached.map fun state => (document, state)

end Markup
end DataBinding
