/-
# Reading back what was written as bytes

The UTF-8 form of a text always reads back as the text.  The proof goes character by character, with
one lemma for each number of bytes.

* `decodeAt_encodeChar` : the bytes of one character read back as the character.
* `decode_encode`       : the UTF-8 form of a text reads back as the text.
* `length_encode`       : the form has as many bytes as the text counts.
-/
import DataBinding.Text.Utf8
import Mathlib.Tactic.SplitIfs

namespace DataBinding.Text

/-! ## Bytes of a character -/

variable {c : Char}

/-- A number below 256 is kept by its byte. -/
theorem toNat_ofNat_of_lt {n : Nat} (hn : n < 256) : (UInt8.ofNat n).toNat = n := by
  rw [UInt8.toNat_ofNat']
  exact Nat.mod_eq_of_lt hn

/-- The character of a code point that is a character's own. -/
theorem ofNat_of_eq_toNat {n : Nat} (hn : n = c.toNat) : Char.ofNat n = c := by
  rw [hn, Char.ofNat_toNat]

/-- A continuing byte of six given bits. -/
theorem isTail_of_toNat {b : UInt8} {n : Nat} (h : b.toNat = n % 0x40 + 0x80) :
    isTail b = true ∧ tailBits b = n % 0x40 := by
  constructor
  · simp only [isTail, UInt8.le_iff_toNat_le, h, Bool.and_eq_true, decide_eq_true_eq]
    show 128 ≤ n % 64 + 128 ∧ n % 64 + 128 ≤ 191
    omega
  · rw [tailBits, h]
    omega

/-- The code points that are characters lie below the surrogates or above them. -/
theorem toNat_ranges (c : Char) : c.toNat < 0xD800 ∨ (0xDFFF < c.toNat ∧ c.toNat < 0x110000) :=
  c.valid

/-! ## One character -/

/-- A character of one byte reads back. -/
theorem decodeAt_of_one (h : c.toNat ≤ 0x7F) (position : Nat) (rest : Bytes) :
    decodeAt position (String.utf8EncodeChar c ++ rest) =
      (c :: ·) <$> decodeAt (position + 1) rest := by
  have hform : String.utf8EncodeChar c = [UInt8.ofNat c.toNat] := if_pos h
  have hcode : (UInt8.ofNat c.toNat).toNat = c.toNat := toNat_ofNat_of_lt (by omega)
  have hlow : UInt8.ofNat c.toNat < 0x80 := by
    rw [UInt8.lt_iff_toNat_lt, hcode]
    show c.toNat < 128
    omega
  rw [hform, List.singleton_append, decodeAt.eq_def]
  simp only [if_pos hlow, hcode, Char.ofNat_toNat]

/-- A character of two bytes reads back. -/
theorem decodeAt_of_two (hlow : 0x7F < c.toNat) (hhigh : c.toNat ≤ 0x7FF) (position : Nat)
    (rest : Bytes) :
    decodeAt position (String.utf8EncodeChar c ++ rest) =
      (c :: ·) <$> decodeAt (position + 2) rest := by
  obtain ⟨v, hv⟩ : ∃ v, v = c.toNat := ⟨_, rfl⟩
  have hform : String.utf8EncodeChar c =
      [UInt8.ofNat (v / 64 % 0x20 + 0xC0), UInt8.ofNat (v % 0x40 + 0x80)] := by
    rw [hv]
    exact (if_neg (by show ¬ c.toNat ≤ 0x7F; omega)).trans (if_pos hhigh)
  have h₁ := toNat_ofNat_of_lt (n := v / 64 % 0x20 + 0xC0) (by omega)
  have h₂ := toNat_ofNat_of_lt (n := v % 0x40 + 0x80) (by omega)
  rw [hform]
  generalize UInt8.ofNat (v / 64 % 0x20 + 0xC0) = a at *
  generalize UInt8.ofNat (v % 0x40 + 0x80) = b at *
  have ha : ¬ a < 0x80 ∧ 0xC2 ≤ a ∧ a ≤ 0xDF := by
    simp only [UInt8.lt_iff_toNat_lt, UInt8.le_iff_toNat_le, h₁]
    show ¬ v / 64 % 32 + 192 < 128 ∧ 194 ≤ v / 64 % 32 + 192 ∧ v / 64 % 32 + 192 ≤ 223
    omega
  obtain ⟨hb, hbits⟩ := isTail_of_toNat h₂
  have hcode : Char.ofNat (a.toNat % 0x20 * 0x40 + tailBits b) = c :=
    ofNat_of_eq_toNat (by rw [hbits, h₁]; omega)
  rw [List.cons_append, List.singleton_append, decodeAt.eq_def]
  simp [ha, hb, hcode]

/-- A character of three bytes reads back. -/
theorem decodeAt_of_three (hlow : 0x7FF < c.toNat) (hhigh : c.toNat ≤ 0xFFFF) (position : Nat)
    (rest : Bytes) :
    decodeAt position (String.utf8EncodeChar c ++ rest) =
      (c :: ·) <$> decodeAt (position + 3) rest := by
  have hrange := toNat_ranges c
  obtain ⟨v, hv⟩ : ∃ v, v = c.toNat := ⟨_, rfl⟩
  have hform : String.utf8EncodeChar c =
      [UInt8.ofNat (v / 4096 % 0x10 + 0xE0), UInt8.ofNat (v / 64 % 0x40 + 0x80),
        UInt8.ofNat (v % 0x40 + 0x80)] := by
    rw [hv]
    exact ((if_neg (by show ¬ c.toNat ≤ 0x7F; omega)).trans
      (if_neg (by show ¬ c.toNat ≤ 0x7FF; omega))).trans (if_pos hhigh)
  have h₁ := toNat_ofNat_of_lt (n := v / 4096 % 0x10 + 0xE0) (by omega)
  have h₂ := toNat_ofNat_of_lt (n := v / 64 % 0x40 + 0x80) (by omega)
  have h₃ := toNat_ofNat_of_lt (n := v % 0x40 + 0x80) (by omega)
  rw [hform]
  generalize UInt8.ofNat (v / 4096 % 0x10 + 0xE0) = a at *
  generalize UInt8.ofNat (v / 64 % 0x40 + 0x80) = b at *
  generalize UInt8.ofNat (v % 0x40 + 0x80) = d at *
  have ha : ¬ a < 0x80 ∧ ¬ a ≤ 0xDF ∧ 0xE0 ≤ a ∧ a ≤ 0xEF := by
    simp only [UInt8.lt_iff_toNat_lt, UInt8.le_iff_toNat_le, h₁]
    show ¬ v / 4096 % 16 + 224 < 128 ∧ ¬ v / 4096 % 16 + 224 ≤ 223 ∧
      224 ≤ v / 4096 % 16 + 224 ∧ v / 4096 % 16 + 224 ≤ 239
    omega
  have hb : isSecond a b = true := by
    simp only [isSecond, beq_iff_eq, ← UInt8.toNat_inj, UInt8.le_iff_toNat_le, h₁, h₂,
      Bool.and_eq_true, decide_eq_true_eq, apply_ite UInt8.toNat, UInt8.reduceToNat]
    split_ifs <;> omega
  obtain ⟨-, hbbits⟩ := isTail_of_toNat h₂
  obtain ⟨hd, hdbits⟩ := isTail_of_toNat h₃
  have hcode : Char.ofNat ((a.toNat % 0x10 * 0x40 + tailBits b) * 0x40 + tailBits d) = c :=
    ofNat_of_eq_toNat (by rw [hbbits, hdbits, h₁]; omega)
  rw [List.cons_append, List.cons_append, List.singleton_append, decodeAt.eq_def]
  simp [ha, hb, hd, hcode]

/-- A character of four bytes reads back. -/
theorem decodeAt_of_four (hlow : 0xFFFF < c.toNat) (position : Nat) (rest : Bytes) :
    decodeAt position (String.utf8EncodeChar c ++ rest) =
      (c :: ·) <$> decodeAt (position + 4) rest := by
  have hrange := toNat_ranges c
  obtain ⟨v, hv⟩ : ∃ v, v = c.toNat := ⟨_, rfl⟩
  have hform : String.utf8EncodeChar c =
      [UInt8.ofNat (v / 262144 % 0x08 + 0xF0), UInt8.ofNat (v / 4096 % 0x40 + 0x80),
        UInt8.ofNat (v / 64 % 0x40 + 0x80), UInt8.ofNat (v % 0x40 + 0x80)] := by
    rw [hv]
    exact ((if_neg (by show ¬ c.toNat ≤ 0x7F; omega)).trans
      (if_neg (by show ¬ c.toNat ≤ 0x7FF; omega))).trans
      (if_neg (by show ¬ c.toNat ≤ 0xFFFF; omega))
  have h₁ := toNat_ofNat_of_lt (n := v / 262144 % 0x08 + 0xF0) (by omega)
  have h₂ := toNat_ofNat_of_lt (n := v / 4096 % 0x40 + 0x80) (by omega)
  have h₃ := toNat_ofNat_of_lt (n := v / 64 % 0x40 + 0x80) (by omega)
  have h₄ := toNat_ofNat_of_lt (n := v % 0x40 + 0x80) (by omega)
  rw [hform]
  -- only the values of the bytes matter from here on
  generalize UInt8.ofNat (v / 262144 % 0x08 + 0xF0) = a at *
  generalize UInt8.ofNat (v / 4096 % 0x40 + 0x80) = b at *
  generalize UInt8.ofNat (v / 64 % 0x40 + 0x80) = d at *
  generalize UInt8.ofNat (v % 0x40 + 0x80) = e at *
  have ha : ¬ a < 0x80 ∧ ¬ a ≤ 0xDF ∧ ¬ a ≤ 0xEF ∧ 0xF0 ≤ a ∧ a ≤ 0xF4 := by
    simp only [UInt8.lt_iff_toNat_lt, UInt8.le_iff_toNat_le, h₁, UInt8.reduceToNat]
    omega
  have hb : isSecond a b = true := by
    simp only [isSecond, beq_iff_eq, ← UInt8.toNat_inj, UInt8.le_iff_toNat_le, h₁, h₂,
      Bool.and_eq_true, decide_eq_true_eq, apply_ite UInt8.toNat, UInt8.reduceToNat]
    split_ifs <;> omega
  obtain ⟨-, hbbits⟩ := isTail_of_toNat h₂
  obtain ⟨hd, hdbits⟩ := isTail_of_toNat h₃
  obtain ⟨he, hebits⟩ := isTail_of_toNat h₄
  have hcode : Char.ofNat (((a.toNat % 0x08 * 0x40 + tailBits b) * 0x40 + tailBits d) * 0x40 +
      tailBits e) = c :=
    ofNat_of_eq_toNat (by rw [hbbits, hdbits, hebits, h₁]; omega)
  rw [List.cons_append, List.cons_append, List.cons_append, List.singleton_append, decodeAt.eq_def]
  simp [ha, hb, hd, he, hcode]

/-- The bytes of a character read back as the character. -/
theorem decodeAt_encodeChar (c : Char) (position : Nat) (rest : Bytes) :
    ∃ next, decodeAt position (String.utf8EncodeChar c ++ rest) =
      (c :: ·) <$> decodeAt next rest := by
  rcases Nat.lt_or_ge 0xFFFF c.toNat with h | h
  · exact ⟨_, decodeAt_of_four h position rest⟩
  · rcases Nat.lt_or_ge 0x7FF c.toNat with h' | h'
    · exact ⟨_, decodeAt_of_three h' h position rest⟩
    · rcases Nat.lt_or_ge 0x7F c.toNat with h'' | h''
      · exact ⟨_, decodeAt_of_two h'' h' position rest⟩
      · exact ⟨_, decodeAt_of_one h'' position rest⟩

/-! ## Texts -/

/-- **The UTF-8 form of a text reads back as the text.** -/
theorem decode_encode (t : Text) : decode (encode t) = .ok t := by
  suffices h : ∀ position, decodeAt position (encode t) = .ok t from h 0
  induction t with
  | nil => intro position; rfl
  | cons c t ih =>
    intro position
    obtain ⟨next, hnext⟩ := decodeAt_encodeChar c position (encode t)
    show decodeAt position (String.utf8EncodeChar c ++ encode t) = .ok (c :: t)
    rw [hnext, ih next]
    rfl

/-- The UTF-8 form of joined texts. -/
theorem encode_append (s t : Text) : encode (s ++ t) = encode s ++ encode t :=
  List.flatMap_append

/-- The UTF-8 form has the number of bytes that the text counts. -/
theorem length_encode (t : Text) : (encode t).length = byteLength t := by
  induction t with
  | nil => rfl
  | cons c t ih =>
    show (String.utf8EncodeChar c ++ encode t).length = c.utf8Size + byteLength t
    rw [List.length_append, String.length_utf8EncodeChar, ih]

/-- Texts behind each other are as long as both. -/
theorem byteLength_append (s t : Text) : byteLength (s ++ t) = byteLength s + byteLength t := by
  rw [← length_encode, ← length_encode, ← length_encode, encode_append, List.length_append]

/-- Only the empty text has no bytes. -/
theorem byteLength_pos {t : Text} (ht : t ≠ []) : 0 < byteLength t := by
  cases t with
  | nil => exact absurd rfl ht
  | cons c t =>
    have := c.utf8Size_pos
    rw [byteLength]
    omega

end DataBinding.Text
