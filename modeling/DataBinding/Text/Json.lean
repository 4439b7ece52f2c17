/-
# JSON texts

Binding text that is no expression may still be a JSON value, which is left as written.  `isJson`
accepts a text that is one JSON value with blanks around it.  Besides the standard values it takes
`NaN`, `Infinity` and `-Infinity`; an integer may not have more than 4300 digits.  Arrays and objects
are read inside each other as far as there is room on the stack; where there is none, reading breaks
off without an answer.
-/
import DataBinding.Text.Basic

namespace DataBinding.Text.Json

/-! ## Leaves -/

/-- The blanks between the tokens of a JSON text. -/
def isSpace (c : Char) : Bool :=
  c == ' ' || c == '\t' || c == '\n' || c == '\r'

/-- The text after leading blanks. -/
def skipSpace (t : Text) : Text :=
  t.dropWhile isSpace

/-- A hexadecimal digit. -/
def isHexDigit (c : Char) : Bool :=
  c.isDigit || ('a' ≤ c && c ≤ 'f') || ('A' ≤ c && c ≤ 'F')

/-- The text after a string's contents and its closing quote. -/
def afterString : Text → Option Text
  | [] => none
  | '"' :: t => some t
  | '\\' :: 'u' :: a :: b :: c :: d :: t =>
    if [a, b, c, d].all isHexDigit then afterString t else none
  | '\\' :: c :: t => if "\"\\/bfnrt".toList.contains c then afterString t else none
  | c :: t => if c.toNat < 0x20 || c == '\\' then none else afterString t

/-- The text after one or more digits. -/
def afterDigits : Text → Option Text
  | [] => none
  | c :: t => if c.isDigit then some (t.dropWhile Char.isDigit) else none

/-- The text after an exponent, if there is one. -/
def afterExponent? : Text → Option Text
  | e :: t =>
    if e == 'e' || e == 'E' then
      match t with
      | '+' :: t => afterDigits t
      | '-' :: t => afterDigits t
      | t => afterDigits t
    else none
  | [] => none

/-- The text after a fraction, if there is one. -/
def afterFraction? : Text → Option Text
  | '.' :: t => afterDigits t
  | _ => none

/-- The text after the fraction and the exponent of a number with so many digits in front of them; a
long number without either is refused. -/
def afterWhole (digits : Nat) (t : Text) : Option Text :=
  match afterFraction? t with
  | some rest => some ((afterExponent? rest).getD rest)
  | none =>
    match afterExponent? t with
    | some rest => some rest
    | none => if digits ≤ maxDecimalDigits then some t else none

/-- The text after a number without sign. -/
def afterUnsigned (t : Text) : Option Text :=
  match t with
  | '0' :: t => afterWhole 1 t
  | t => (afterDigits t).bind fun rest => afterWhole (t.length - rest.length) rest

/-- The words that are values. -/
def words : List Text :=
  ["null".toList, "true".toList, "false".toList, "NaN".toList, "Infinity".toList,
    "-Infinity".toList]

/-- The text after a word or a number. -/
def afterScalar (t : Text) : Option Text :=
  match words.findSome? (fun word => dropLead? word t) with
  | some rest => some rest
  | none =>
    match t with
    | '-' :: t => afterUnsigned t
    | t => afterUnsigned t

/-! ## Values -/

/-- The brackets around values that hold other values. -/
inductive Bracket where
  | array
  | object
  deriving DecidableEq, Repr

/-- Why a text is not read to the end of a value: no value stands there, or there is no room for what
a bracket opens. -/
inductive Fault where
  | invalid
  | noRoom (bracket : Bracket)
  deriving DecidableEq, Repr

/-- What is expected next: a value, or the further items of an array or an object. -/
inductive Goal where
  | value
  | elements
  | members

/-- The rest of a text if there is one, and else the fault that no value stands there. -/
def orInvalid : Option Text → Except Fault Text
  | some t => .ok t
  | none => .error .invalid

/-- The text after what is expected, with room for so many further brackets inside each other; every
step consumes a character or moves to its value. -/
def after : (fuel room : Nat) → Goal → Text → Except Fault Text
  | 0, _, _, _ => .error .invalid
  | fuel + 1, room, .value, t =>
    match t with
    | '"' :: t => orInvalid (afterString t)
    | '[' :: t =>
      match room with
      | 0 => .error (.noRoom .array)
      | room + 1 =>
        match skipSpace t with
        | ']' :: t => .ok t
        | t => after fuel room .elements t
    | '{' :: t =>
      match room with
      | 0 => .error (.noRoom .object)
      | room + 1 =>
        match skipSpace t with
        | '}' :: t => .ok t
        | t => after fuel room .members t
    | t => orInvalid (afterScalar t)
  | fuel + 1, room, .elements, t => do
    let t ← after fuel room .value t
    match skipSpace t with
    | ',' :: t => after fuel room .elements (skipSpace t)
    | ']' :: t => .ok t
    | _ => .error .invalid
  | fuel + 1, room, .members, t =>
    match t with
    | '"' :: t => do
      let t ← orInvalid (afterString t)
      match skipSpace t with
      | ':' :: t =>
        let t ← after fuel room .value (skipSpace t)
        match skipSpace t with
        | ',' :: t => after fuel room .members (skipSpace t)
        | '}' :: t => .ok t
        | _ => .error .invalid
      | _ => .error .invalid
    | _ => .error .invalid

end Json

/-- Tells whether the text is one JSON value, with blanks around it, or else which bracket there was
no room for. -/
def isJson (room : Nat) (t : Text) : Except Json.Bracket Bool :=
  match Json.after (2 * t.length + 2) room .value (Json.skipSpace t) with
  | .ok rest => .ok (Json.skipSpace rest).isEmpty
  | .error .invalid => .ok false
  | .error (.noRoom bracket) => .error bracket

end DataBinding.Text
