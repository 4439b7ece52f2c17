/-
# Numbers

A number is an integer in base ten, sixteen, eight or two, or a decimal with fraction or exponent.
Single underscores may stand between digits, and an integer may end in `n`.  A decimal with a
fraction or an exponent has an integer part that is `0` or has a digit other than zero among its
first two; integers alone may start with any zeros.
-/
import DataBinding.Lexeme.Word

namespace DataBinding.Lexeme

/-! ## Runs of digits -/

/-- The number of further characters of a run of digits with single underscores between them. -/
def digitsRest (isDigit : Char → Bool) : Text → Nat
  | '_' :: d :: t => if isDigit d then 2 + digitsRest isDigit t else 0
  | c :: t => if isDigit c then 1 + digitsRest isDigit t else 0
  | [] => 0

/-- The length of the run of digits at the head of a text. -/
def digits (isDigit : Char → Bool) : Text → Nat
  | c :: t => if isDigit c then 1 + digitsRest isDigit t else 0
  | [] => 0

/-- The length of an integer with its `n`, given the length of its digits. -/
def withSuffix (t : Text) (n : Nat) : Nat :=
  if (t.drop n).head? == some 'n' then n + 1 else n

/-! ## Forms of numbers -/

/-- The digits of the base that the letter after a leading zero names. -/
def baseDigits? (letter : Char) : Option (Char → Bool) :=
  if letter == 'x' || letter == 'X' then some isHexDigit
  else if letter == 'o' || letter == 'O' then some fun c => '0' ≤ c && c ≤ '7'
  else if letter == 'b' || letter == 'B' then some fun c => c == '0' || c == '1'
  else none

/-- The length of an exponent, zero if there is none. -/
def exponent : Text → Nat
  | e :: t =>
    if e == 'e' || e == 'E' then
      match t with
      | s :: r =>
        if s == '+' || s == '-' then
          if digits Char.isDigit r == 0 then 0 else 2 + digits Char.isDigit r
        else if digits Char.isDigit t == 0 then 0 else 1 + digits Char.isDigit t
      | [] => 0
    else 0
  | [] => 0

/-- The digits form an integer part that a fraction or an exponent may follow. -/
def isIntegerPart (run : Text) : Bool :=
  match run with
  | ['0'] => true
  | '0' :: d :: _ => d.isDigit && d != '0'
  | d :: _ => d.isDigit
  | [] => false

/-- The length of a decimal number. -/
def decimal? (t : Text) : Option Nat :=
  let n := digits Char.isDigit t
  let rest := t.drop n
  if n == 0 then
    match rest with
    | '.' :: fraction =>
      let f := digits Char.isDigit fraction
      if f == 0 then none else some (1 + f + exponent (fraction.drop f))
    | _ => none
  else if isIntegerPart (t.take n) then
    match rest with
    | '.' :: fraction =>
      let f := digits Char.isDigit fraction
      some (n + 1 + f + exponent (fraction.drop f))
    | _ =>
      let e := exponent rest
      if e == 0 then some (withSuffix t n) else some (n + e)
  else some (withSuffix t n)

/-- The length of the number at the head of a text. -/
def number? : Text → Option Nat
  | '0' :: letter :: t =>
    match baseDigits? letter with
    | some isDigit =>
      let n := digits isDigit t
      if n == 0 then some 1 else some (withSuffix ('0' :: letter :: t) (2 + n))
    | none => decimal? ('0' :: letter :: t)
  | t => decimal? t

end DataBinding.Lexeme
