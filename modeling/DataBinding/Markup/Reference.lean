/-
# Character references

Markup writes a character by its name or its number after an ampersand.  `unescape` replaces every
reference by the characters it stands for; a number that no character may have is replaced or
dropped, and what is no reference stays as written.  A decimal number with too many digits is not
turned into a value, so that `decode` refuses a text with one.  `escape` writes a value for an attribute
so that reading gives it back: an ampersand is written as a reference only where it could start one.
-/
import DataBinding.Text.Basic
import DataBinding.Markup.ReferenceTable

namespace DataBinding.Markup

/-! ## Numbers -/

/-- The characters that the numbers 128 to 159 stand for. -/
def windowsCodes : List Nat :=
  [0x20AC, 0x81, 0x201A, 0x192, 0x201E, 0x2026, 0x2020, 0x2021, 0x2C6, 0x2030, 0x160, 0x2039, 0x152,
    0x8D, 0x17D, 0x8F, 0x90, 0x2018, 0x2019, 0x201C, 0x201D, 0x2022, 0x2013, 0x2014, 0x2DC, 0x2122,
    0x161, 0x203A, 0x153, 0x9D, 0x17E, 0x178]

/-- The numbers whose references are dropped: controls and code points that are no characters. -/
def isDropped (n : Nat) : Bool :=
  (0x1 ≤ n && n ≤ 0x8) || n == 0xB || (0xE ≤ n && n ≤ 0x1F) || n == 0x7F ||
    (0xFDD0 ≤ n && n ≤ 0xFDEF) || n % 0x10000 == 0xFFFE || n % 0x10000 == 0xFFFF

/-- What the reference with a number stands for. -/
def numbered (n : Nat) : Text :=
  if n == 0 || (0xD800 ≤ n && n ≤ 0xDFFF) || 0x10FFFF < n then ['\uFFFD']
  else if 0x80 ≤ n && n ≤ 0x9F then [Char.ofNat (windowsCodes.getD (n - 0x80) n)]
  else if isDropped n then []
  else [Char.ofNat n]

/-- The value of a digit in any base up to sixteen. -/
def digitValue (c : Char) : Nat :=
  if c.isDigit then c.toNat - '0'.toNat
  else if 'a' ≤ c && c ≤ 'f' then c.toNat - 'a'.toNat + 10
  else c.toNat - 'A'.toNat + 10

/-- The number that digits denote in a base. -/
def ofDigits (base : Nat) (digits : Text) : Nat :=
  digits.foldl (fun n c => n * base + digitValue c) 0

/-- A hexadecimal digit. -/
def isHexDigit (c : Char) : Bool :=
  c.isDigit || ('a' ≤ c && c ≤ 'f') || ('A' ≤ c && c ≤ 'F')

/-- One more character if it is the closing semicolon. -/
def semicolon (t : Text) : Nat :=
  if t.head? == some ';' then 1 else 0

/-- A reference by number behind its ampersand and number sign: what it stands for, and its length
in characters. -/
def numberReference? (t : Text) : Option (Text × Nat) :=
  let decimal := t.takeWhile Char.isDigit
  if !decimal.isEmpty then
    some (numbered (ofDigits 10 decimal), decimal.length + semicolon (t.drop decimal.length))
  else
    match t with
    | x :: t =>
      let digits := t.takeWhile isHexDigit
      if (x == 'x' || x == 'X') && !digits.isEmpty then
        some (numbered (ofDigits 16 digits), 1 + digits.length + semicolon (t.drop digits.length))
      else none
    | [] => none

/-! ## Names -/

/-- What a name stands for. -/
def named? (name : Text) : Option Text :=
  match name with
  | [] => none
  | c :: _ =>
    ((ReferenceTable.namesFrom c).find? fun entry => entry.1.toList == name).map fun entry =>
      entry.2.map Char.ofNat

/-- What a name without semicolon stands for. -/
def unterminated? (name : Text) : Option Text :=
  if ReferenceTable.unterminatedNames.any fun n => n.toList == name then named? name else none

/-- The most characters that are tried as a name. -/
def maxNameLength : Nat := 32

/-- A character that a name may hold as far as it is tried. -/
def isNameChar (c : Char) : Bool :=
  !"\t\n\x0c <&#;".toList.contains c

/-- The longest beginning of a text, of at most `n` and at least two characters, that is a name
without semicolon. -/
def longestName? (t : Text) : (n : Nat) → Option (Text × Nat)
  | 0 => none
  | n + 1 =>
    if n == 0 then none
    else
      match unterminated? (t.take (n + 1)) with
      | some value => some (value, n + 1)
      | none => longestName? t n

/-- A reference by name behind its ampersand: what it stands for, and its length in characters. -/
def nameReference? (t : Text) : Option (Text × Nat) :=
  let run := (t.takeWhile isNameChar).take maxNameLength
  let whole := if (t.drop run.length).head? == some ';' then named? run else none
  match whole with
  | some value => some (value, run.length + 1)
  | none => longestName? run run.length

/-! ## Texts -/

/-- A reference behind its ampersand: what it stands for, and its length in characters. -/
def reference? : Text → Option (Text × Nat)
  | '#' :: t => (numberReference? t).map fun (value, n) => (value, n + 1)
  | t => nameReference? t

/-- Replaces the references of a text whose first `skip` characters are part of one. -/
def unescapeFrom : (skip : Nat) → Text → Text
  | _, [] => []
  | skip + 1, _ :: t => unescapeFrom skip t
  | 0, c :: t =>
    if c == '&' then
      match reference? t with
      | some (value, n) => value ++ unescapeFrom n t
      | none => c :: unescapeFrom 0 t
    else c :: unescapeFrom 0 t

/-- The text with every reference replaced. -/
def unescape (t : Text) : Text :=
  unescapeFrom 0 t

/-- The digits of the first decimal reference that has too many of them. -/
def overlong? : Text → Option Nat
  | [] => none
  | c :: t =>
    if c == '&' && t.head? == some '#' then
      let digits := ((t.drop 1).takeWhile Char.isDigit).length
      if Text.maxDecimalDigits < digits then some digits else overlong? t
    else overlong? t

/-- The text with every reference replaced, unless one of them has too many digits; their number is
given then. -/
def decode (t : Text) : Except Nat Text :=
  match overlong? t with
  | some digits => .error digits
  | none => .ok (unescape t)

/-- The report on a decimal reference with too many digits. -/
def overlongMessage (digits : Nat) : String :=
  s!"Exceeds the limit ({Text.maxDecimalDigits} digits) for integer string conversion: value has " ++
    s!"{digits} digits; use sys.set_int_max_str_digits() to increase the limit"

/-! ## Writing -/

/-- The quotes around an attribute's value. -/
inductive Quote where
  | single
  | double
  deriving DecidableEq, Repr

/-- The quote as a character. -/
def Quote.char : Quote → Char
  | .single => '\''
  | .double => '"'

/-- The reference that stands for the quote. -/
def Quote.reference : Quote → Text
  | .single => "&#39;".toList
  | .double => "&quot;".toList

/-- The text with a reference for each ampersand that a letter, a digit or a number sign follows. -/
def escapeAmpersands : Text → Text
  | [] => []
  | '&' :: t =>
    if (t.head?.map fun c => c.isAlphanum || c == '#').getD false then
      "&amp;".toList ++ escapeAmpersands t
    else '&' :: escapeAmpersands t
  | c :: t => c :: escapeAmpersands t

/-- The value as it is written between the given quotes. -/
def escape (quote : Quote) (value : Text) : Text :=
  (escapeAmpersands value).replaceChar quote.char quote.reference

end DataBinding.Markup
