/-
# Texts as bytes

Spans of expressions and of scripts count bytes of the UTF-8 form.  `encode` writes a text as bytes
and `decode` reads it back; a byte sequence that is no UTF-8 is refused with the place and the
extent of its first broken character.
-/
import DataBinding.Text.Quoted

namespace DataBinding

/-- Raw contents of a file. -/
abbrev Bytes := List UInt8

namespace Text

/-! ## Writing -/

/-- The UTF-8 form of a text. -/
def encode (t : Text) : Bytes :=
  t.flatMap String.utf8EncodeChar

/-- The number of bytes of the UTF-8 form. -/
def byteLength : Text → Nat
  | [] => 0
  | c :: t => c.utf8Size + byteLength t

/-! ## Reading -/

/-- Why a byte sequence is not UTF-8. -/
inductive DecodeReason where
  | invalidStart
  | invalidContinuation
  | unexpectedEnd

/-- The first broken character: where it starts, its bytes up to the fault, and what is wrong. -/
structure DecodeFault where
  position : Nat
  bytes : Bytes
  reason : DecodeReason

/-- A byte that continues a character. -/
def isTail (b : UInt8) : Bool :=
  0x80 ≤ b && b ≤ 0xBF

/-- The bytes that may follow the first byte of a character of three or four bytes. -/
def isSecond (first b : UInt8) : Bool :=
  (if first == 0xE0 then 0xA0 else if first == 0xF0 then 0x90 else 0x80) ≤ b &&
    b ≤ (if first == 0xED then 0x9F else if first == 0xF4 then 0x8F else 0xBF)

/-- The six low bits that a continuing byte contributes. -/
def tailBits (b : UInt8) : Nat :=
  b.toNat % 0x40

/-- Reads bytes that start at `position` as UTF-8. -/
def decodeAt (position : Nat) : Bytes → Except DecodeFault Text
  | [] => .ok []
  | a :: rest =>
    if a < 0x80 then
      (Char.ofNat a.toNat :: ·) <$> decodeAt (position + 1) rest
    else if 0xC2 ≤ a && a ≤ 0xDF then
      match rest with
      | [] => .error ⟨position, [a], .unexpectedEnd⟩
      | b :: rest =>
        if isTail b then
          (Char.ofNat (a.toNat % 0x20 * 0x40 + tailBits b) :: ·) <$> decodeAt (position + 2) rest
        else .error ⟨position, [a], .invalidContinuation⟩
    else if 0xE0 ≤ a && a ≤ 0xEF then
      match rest with
      | [] => .error ⟨position, [a], .unexpectedEnd⟩
      | b :: rest =>
        if isSecond a b then
          match rest with
          | [] => .error ⟨position, [a, b], .unexpectedEnd⟩
          | c :: rest =>
            if isTail c then
              (Char.ofNat ((a.toNat % 0x10 * 0x40 + tailBits b) * 0x40 + tailBits c) :: ·) <$>
                decodeAt (position + 3) rest
            else .error ⟨position, [a, b], .invalidContinuation⟩
        else .error ⟨position, [a], .invalidContinuation⟩
    else if 0xF0 ≤ a && a ≤ 0xF4 then
      match rest with
      | [] => .error ⟨position, [a], .unexpectedEnd⟩
      | b :: rest =>
        if isSecond a b then
          match rest with
          | [] => .error ⟨position, [a, b], .unexpectedEnd⟩
          | c :: rest =>
            if isTail c then
              match rest with
              | [] => .error ⟨position, [a, b, c], .unexpectedEnd⟩
              | d :: rest =>
                if isTail d then
                  (Char.ofNat (((a.toNat % 0x08 * 0x40 + tailBits b) * 0x40 + tailBits c) * 0x40 +
                    tailBits d) :: ·) <$> decodeAt (position + 4) rest
                else .error ⟨position, [a, b, c], .invalidContinuation⟩
            else .error ⟨position, [a, b], .invalidContinuation⟩
        else .error ⟨position, [a], .invalidContinuation⟩
    else .error ⟨position, [a], .invalidStart⟩

/-- Reads bytes as UTF-8. -/
def decode (bytes : Bytes) : Except DecodeFault Text :=
  decodeAt 0 bytes

/-! ## Reporting -/

/-- What is wrong, in words. -/
def DecodeReason.phrase : DecodeReason → String
  | .invalidStart => "invalid start byte"
  | .invalidContinuation => "invalid continuation byte"
  | .unexpectedEnd => "unexpected end of data"

/-- The report on a broken character: its one byte in hexadecimal, or its range of positions. -/
def DecodeFault.message (fault : DecodeFault) : String :=
  let place :=
    match fault.bytes with
    | [b] => s!"byte 0x{String.ofList (hexDigits 2 b.toNat)} in position {fault.position}"
    | bytes =>
      s!"bytes in position {fault.position}-{fault.position + bytes.length - 1}"
  s!"'utf-8' codec can't decode {place}: {fault.reason.phrase}"

end Text
end DataBinding
