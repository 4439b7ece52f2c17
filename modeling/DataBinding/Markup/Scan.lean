/-
# Cutting markup into events

`events` cuts a text into events.  It goes over the text twice: the first time it stops at a
construct that the end of the text leaves incomplete, and the second time it goes on from there and
takes such a construct as plain text.  The contents of scripts and style sheets run up to their end
tag; without one they are lost, together with all that follows.
-/
import DataBinding.Markup.Event
import DataBinding.Markup.StartTag
import DataBinding.Text.Quoted

namespace DataBinding.Markup

/-! ## Faults -/

/-- Why markup is refused: a marked section without a name, or with a name of no known kind, or a
reference with too many digits in a value. -/
inductive Fault where
  | sectionWithoutName (shown : Text)
  | unknownSection (name : Text)
  | overlongReference (digits : Nat)

/-- A fault in words. -/
def Fault.message : Fault → String
  | .sectionWithoutName shown => s!"expected name token at {String.ofList shown.quoted}"
  | .unknownSection name =>
    s!"unknown status keyword {String.ofList name.quoted} in marked section"
  | .overlongReference digits => overlongMessage digits

/-! ## Searches -/

/-- The number of characters before the first one of the given kind. -/
def before? (p : Char → Bool) (t : Text) : Option Nat :=
  let n := (t.takeWhile (!p ·)).length
  if n < t.length then some n else none

/-- The first place where a reader succeeds: the number of characters before it, and what the reader
gives there. -/
def firstMatch? {α : Type} (reader : Text → Option α) : Text → Option (Nat × α)
  | [] => none
  | c :: t =>
    match reader (c :: t) with
    | some a => some (0, a)
    | none => (firstMatch? reader t).map fun (n, a) => (n + 1, a)

/-- The length of the given characters with blanks between them. -/
def spaced? : (parts : Text) → Text → Option Nat
  | [], _ => some 0
  | p :: parts, t =>
    let n := blanks t
    match t.drop n with
    | c :: rest => if c == p then (spaced? parts rest).map (· + n + 1) else none
    | [] => none

/-- The length of the mark that ends a comment, if it starts right here. -/
def commentEnd? : Text → Option Nat
  | '-' :: '-' :: t => (spaced? ['>'] t).map (· + 2)
  | _ => none

/-- The length of the mark that ends a marked section, a bracket and further parts, if it starts
right here. -/
def sectionEnd? (parts : Text) : Text → Option Nat
  | ']' :: t => (spaced? parts t).map (· + 1)
  | _ => none

/-! ## Pieces -/

/-- How far the cutting gets with the next piece: it goes on behind some events with the given raw
element open, or it stops. -/
inductive Step where
  | advance (events : List Event) (length : Nat) (raw : Option Text)
  | stop (events : List Event) (length : Nat)
  | incomplete
  | refused (fault : Fault)

/-- The elements whose contents are raw text. -/
def isRawText (name : Text) : Bool :=
  name == "script".toList || name == "style".toList

/-- A letter of a raw element's name in an end tag, in either case.  Three further letters count as
variants of `s` and `i`. -/
def isCaseVariant (small c : Char) : Bool :=
  c.toLower == small || (small == 's' && c == '\u017F') ||
    (small == 'i' && (c == '\u0130' || c == '\u0131'))

/-- The text after a name in any case. -/
def dropName? : (name : Text) → Text → Option Text
  | [], t => some t
  | _ :: _, [] => none
  | n :: name, c :: t => if isCaseVariant n c then dropName? name t else none

/-- An end tag of the raw element starts here. -/
def endsRaw (name t : Text) : Bool :=
  match t with
  | '<' :: '/' :: t =>
    match dropName? name (t.drop (blanks t)) with
    | some t => (spaced? ['>'] t).isSome
    | none => false
  | _ => false

/-- A character of a plain end tag's name. -/
def isEndNamePart (c : Char) : Bool :=
  c.isAlphanum || c == '-' || c == '.' || c == ':' || c == '_'

/-- The name of a plain end tag: only blanks stand around the name. -/
def plainEndTag? (t : Text) : Option Text :=
  match t with
  | '<' :: '/' :: t =>
    match t.drop (blanks t) with
    | c :: rest =>
      if c.isAlpha then
        let more := rest.takeWhile isEndNamePart
        if (spaced? ['>'] (rest.drop more.length)).isSome then some (c :: more) else none
      else none
    | [] => none
  | _ => none

/-- The end tag at the head of a text. -/
def endTag (raw : Option Text) (t : Text) : Step :=
  match before? (· == '>') t with
  | none => .incomplete
  | some n =>
    let plain := Event.data (t.take (n + 1))
    match plainEndTag? t, raw with
    | some name, none => .advance [.endTag name.lowerCase] (n + 1) none
    | some name, some current =>
      if name.lowerCase == current then .advance [.endTag name.lowerCase] (n + 1) none
      else .advance [plain] (n + 1) raw
    | none, some _ => .advance [plain] (n + 1) raw
    | none, none =>
      match tagName? (t.drop 2) with
      | some name => .advance [.endTag name.lowerCase] (n + 1) none
      | none =>
        if n == 2 then .advance [] 3 none
        else .advance [.comment ((t.take n).drop 2)] (n + 1) none

/-- A construct of two opening characters that runs up to the end of a tag. -/
def upToTagEnd (event : Text → Event) (t : Text) : Step :=
  match before? (· == '>') (t.drop 2) with
  | none => .incomplete
  | some n => .advance [event ((t.drop 2).take n)] (n + 3) none

/-- The comment at the head of a text. -/
def comment (t : Text) : Step :=
  match firstMatch? commentEnd? (t.drop 4) with
  | none => .incomplete
  | some (n, m) => .advance [.comment ((t.drop 4).take n)] (4 + n + m) none

/-- A character of a marked section's name. -/
def isSectionNamePart (c : Char) : Bool :=
  c.isAlphanum || c == '-' || c == '_' || c == '.'

/-- The marked sections that end in two brackets. -/
def longSections : List Text :=
  ["temp", "cdata", "ignore", "include", "rcdata"].map String.toList

/-- The marked sections that end in one bracket. -/
def shortSections : List Text :=
  ["if", "else", "endif"].map String.toList

/-- The marked section at the head of a text. -/
def markedSection (t : Text) : Step :=
  let body := t.drop 3
  match body with
  | [] => .incomplete
  | c :: rest =>
    if !c.isAlpha then .refused (.sectionWithoutName (t.take 20))
    else
      let name := c :: rest.takeWhile isSectionNamePart
      let matched := name.length + blanks (body.drop name.length)
      let small := name.map Char.toLower
      let close (parts : Text) : Step :=
        match firstMatch? (sectionEnd? parts) body with
        | none => .incomplete
        | some (n, m) => .advance [.markedSection (body.take n)] (3 + n + m) none
      if matched == body.length then .incomplete
      else if longSections.contains small then close [']', '>']
      else if shortSections.contains small then close ['>']
      else .refused (.unknownSection (body.take matched))

/-- The declaration at the head of a text. -/
def declaration (t : Text) : Step :=
  match t with
  | '<' :: '!' :: '-' :: '-' :: _ => comment t
  | '<' :: '!' :: '[' :: _ => markedSection t
  | _ =>
    if (t.take 9).map Char.toLower == "<!doctype".toList then
      match before? (· == '>') (t.drop 9) with
      | none => .incomplete
      | some n => .advance [.declaration ((t.take (9 + n)).drop 2)] (n + 10) none
    else upToTagEnd .comment t

/-- The start tag at the head of a text. -/
def startTag (name t : Text) : Step :=
  match StartTag.read name t with
  | .incomplete => .incomplete
  | .junk n => .advance [.data (t.take n)] n none
  | .complete name attributes true n => .advance [.emptyTag name attributes (t.take n)] n none
  | .complete name attributes false n =>
    .advance [.startTag name attributes (t.take n)] n (if isRawText name then some name else none)
  | .refused digits => .refused (.overlongReference digits)

/-- What is taken as plain text where a construct is left incomplete: up to the end of a tag, else
up to the start of one, else one character. -/
def plainLength (t : Text) : Nat :=
  match before? (· == '>') (t.drop 1) with
  | some n => n + 2
  | none =>
    match before? (· == '<') (t.drop 1) with
    | some n => n + 1
    | none => 1

/-- The piece that starts with an angle bracket. -/
def angle (raw : Option Text) (t : Text) : Step :=
  match tagName? (t.drop 1), t with
  | some name, _ => startTag name t
  | none, '<' :: '/' :: _ => endTag raw t
  | none, '<' :: '?' :: _ => upToTagEnd .instruction t
  | none, '<' :: '!' :: _ => declaration t
  | none, _ => if 1 < t.length then .advance [.data ['<']] 1 none else .stop [] 0

/-- The length of a reference by number at the head of a text: another character must follow its
digits, which is taken too if it is a semicolon. -/
def numberReference (t : Text) : Option Nat :=
  let decimal := (t.drop 2).takeWhile Char.isDigit
  let digits :=
    if decimal.isEmpty then
      match t.drop 2 with
      | x :: rest =>
        let digits := rest.takeWhile isHexDigit
        if (x == 'x' || x == 'X') && !digits.isEmpty then digits.length + 1 else 0
      | [] => 0
    else decimal.length
  match t.drop (2 + digits) with
  | c :: _ =>
    if digits == 0 || isHexDigit c then none
    else some (2 + digits + if c == ';' then 1 else 0)
  | [] => none

/-- The length of a reference by name at the head of a text: a character that ends the name must
follow, which is taken too if it is a semicolon.  At the end of the text the last dash or dot of the
name is that character. -/
def nameReference (t : Text) : Option Nat :=
  let isPart (c : Char) := c.isAlphanum || c == '-' || c == '.'
  match t.drop 1 with
  | c :: rest =>
    if !c.isAlpha then none
    else
      let more := rest.takeWhile isPart
      match rest.drop more.length with
      | d :: _ => some (2 + more.length + if d == ';' then 1 else 0)
      | [] => (before? (fun d => d == '-' || d == '.') more.reverse).map fun n =>
          2 + (more.length - n - 1)
  | [] => none

/-- The piece that starts with an ampersand. -/
def ampersand (atEnd : Bool) (t : Text) : Step :=
  match t with
  | _ :: '#' :: _ =>
    match numberReference t with
    | some n => .advance [.reference (t.take n)] n none
    | none => if t.contains ';' then .stop [.data (t.take 2)] 2 else .stop [] 0
  | _ =>
    match nameReference t with
    | some n => .advance [.reference (t.take n)] n none
    | none =>
      match t with
      | [_] => .stop [] 0
      | [_, c] =>
        if c.isAlpha then .stop [] (if atEnd then 1 else 0) else .advance [.data ['&']] 1 none
      | _ :: c :: _ => if c.isAlpha then .stop [] 0 else .advance [.data ['&']] 1 none
      | [] => .stop [] 0

/-- The next piece of a text that is not empty. -/
def piece (atEnd : Bool) (raw : Option Text) (t : Text) : Step :=
  match raw with
  | some name =>
    match firstMatch? (fun t => if endsRaw name t then some () else none) t with
    | none => .stop [] 0
    | some (0, _) => endTag raw t
    | some (n, _) => .advance [.data (t.take n)] n raw
  | none =>
    match t.takeWhile fun c => c != '<' && c != '&' with
    | [] => if t.head? == some '&' then ampersand atEnd t else angle raw t
    | run => .advance [.data run] run.length none

/-! ## Texts -/

/-- What was cut off a text: the events, the rest, and the raw element that is still open. -/
structure Scanned where
  events : List Event
  rest : Text
  raw : Option Text

/-- Further events before those of a cut text. -/
def Scanned.after (events : List Event) (s : Scanned) : Scanned :=
  { s with events := events ++ s.events }

/-- Cuts a text into pieces up to where it stops; the first `skip` characters belong to a piece
before. -/
def scanFrom (atEnd : Bool) :
    (skip : Nat) → (raw : Option Text) → Text → Except Fault Scanned
  | _, raw, [] => .ok ⟨[], [], raw⟩
  | skip + 1, raw, _ :: t => scanFrom atEnd skip raw t
  | 0, raw, c :: t =>
    match piece atEnd raw (c :: t) with
    | .refused fault => .error fault
    | .stop events n => .ok ⟨events, (c :: t).drop n, raw⟩
    | .advance events n raw => (scanFrom atEnd (n - 1) raw t).map (·.after events)
    | .incomplete =>
      if atEnd then
        let n := plainLength (c :: t)
        (scanFrom atEnd (n - 1) raw t).map (·.after [.data ((c :: t).take n)])
      else .ok ⟨[], c :: t, raw⟩

/-- The events of a text. -/
def events (t : Text) : Except Fault (List Event) := do
  let first ← scanFrom false 0 none t
  let last ← scanFrom true 0 first.raw first.rest
  let remains := if last.raw.isNone && !last.rest.isEmpty then [Event.data last.rest] else []
  return first.events ++ last.events ++ remains

end DataBinding.Markup
