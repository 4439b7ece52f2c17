/-
# Identifiers are words

The identifiers of every writing system are words of scripts: the code points of blanks, marks and
controls lie between the ranges of the characters of identifiers.

* `notMem_breakRanges` : what the ranges of these characters leave out.
* `word_of_isIdentifier` : an identifier is a word.
-/
import DataBinding.Proofs.Lexeme.Words
import DataBinding.Text.Blank
import DataBinding.Text.Identifier

namespace DataBinding

namespace Text

/-! ## Ranges -/

/-- A code point of a class lies in one of its ranges. -/
theorem CharRanges.exists_of_contains {ranges : CharRanges} {n : Nat}
    (h : ranges.contains n = true) : ∃ r ∈ ranges, r.1 ≤ n ∧ n ≤ r.2 := by
  induction ranges with
  | nil => cases h
  | cons r ranges ih =>
    rw [CharRanges.contains] at h
    split at h
    · cases h
    · rename_i hfirst
      rw [Bool.or_eq_true, decide_eq_true_eq] at h
      rcases h with hlast | h
      · exact ⟨r, List.mem_cons_self, Nat.le_of_not_lt hfirst, hlast⟩
      · obtain ⟨r', hr', hin⟩ := ih h
        exact ⟨r', List.mem_cons_of_mem r hr', hin⟩

/-- The code points of controls, blanks and marks, and those between them. -/
def breakRanges : CharRanges :=
  [(0x00, 0x2F), (0x3A, 0x40), (0x5B, 0x5E), (0x60, 0x60), (0x7B, 0xA0), (0x1680, 0x1680),
    (0x2000, 0x200B), (0x2028, 0x2029), (0x202F, 0x202F), (0x205F, 0x2060), (0x3000, 0x3000),
    (0xFEFF, 0xFEFF)]

/-- A class of characters has no code point in common with those of controls, blanks and marks. -/
def CharRanges.isPlain (ranges : CharRanges) : Bool :=
  ranges.all fun r => breakRanges.all fun s => r.2 < s.1 || s.2 < r.1

theorem isPlain_identifierStartRanges : identifierStartRanges.isPlain = true := by
  decide +kernel

theorem isPlain_identifierContinueRanges : identifierContinueRanges.isPlain = true := by
  decide +kernel

/-- A character of a plain class is no control, no blank and no mark. -/
theorem notMem_breakRanges {ranges : CharRanges} (hplain : ranges.isPlain = true) {n : Nat}
    (h : ranges.contains n = true) : ∀ s ∈ breakRanges, n < s.1 ∨ s.2 < n := by
  obtain ⟨r, hr, hfirst, hlast⟩ := CharRanges.exists_of_contains h
  intro s hs
  have hapart := List.all_eq_true.mp (List.all_eq_true.mp hplain r hr) s hs
  rw [Bool.or_eq_true, decide_eq_true_eq, decide_eq_true_eq] at hapart
  omega

end Text

namespace Lexeme

open Text (breakRanges)

/-- Marks are among them. -/
theorem break_of_mem_marks : ∀ c ∈ marks, ∃ s ∈ breakRanges, s.1 ≤ c.toNat ∧ c.toNat ≤ s.2 := by
  decide

section Breaks

variable {c : Char} (h : ∀ s ∈ breakRanges, c.toNat < s.1 ∨ s.2 < c.toNat)
include h

theorem isBlank_of_not_break : Text.isBlank c = false := by
  simp only [breakRanges, List.forall_mem_cons, List.not_mem_nil, false_implies, implies_true,
    and_true] at h
  rw [Bool.eq_false_iff]
  intro hblank
  simp only [Text.isBlank, Bool.or_eq_true, Bool.and_eq_true, decide_eq_true_eq,
    beq_iff_eq] at hblank
  omega

theorem isWordPart_of_not_break : isWordPart c = true := by
  have hmark : c ∉ marks := by
    intro hmem
    obtain ⟨s, hs, hin⟩ := break_of_mem_marks c hmem
    have := h s hs
    omega
  simp only [breakRanges, List.forall_mem_cons, List.not_mem_nil, false_implies, implies_true,
    and_true] at h
  have hspacing : isSpacing c = false := by
    rw [Bool.eq_false_iff]
    intro hblank
    simp only [isSpacing, isWide, Bool.or_eq_true, Bool.and_eq_true, decide_eq_true_eq,
      beq_iff_eq] at hblank
    omega
  have hlow : 0x20 ≤ c.toNat := by omega
  simp [isWordPart, hspacing, hmark, hlow]

end Breaks

theorem isWordPart_of_isIdentifierContinue {c : Char} (h : Text.isIdentifierContinue c = true) :
    isWordPart c = true :=
  isWordPart_of_not_break (Text.notMem_breakRanges Text.isPlain_identifierContinueRanges h)

/-- A character that starts an identifier is no control, no blank, no mark and no digit. -/
theorem of_isIdentifierStart {c : Char} (h : Text.isIdentifierStart c = true) :
    isWordStart c = true ∧ Text.isBlank c = false := by
  rw [Text.isIdentifierStart, Bool.or_eq_true, beq_iff_eq] at h
  rcases h with rfl | h
  · exact ⟨by decide, by decide⟩
  · have hbreak := Text.notMem_breakRanges Text.isPlain_identifierStartRanges h
    refine ⟨?_, isBlank_of_not_break hbreak⟩
    obtain ⟨r, hr, hfirst, -⟩ := Text.CharRanges.exists_of_contains h
    have hletter : ∀ r ∈ Text.identifierStartRanges, 0x41 ≤ r.1 := by decide +kernel
    have hle := hletter r hr
    have hdigit : c.isDigit = false := by
      rw [Bool.eq_false_iff]
      intro hdigit
      have hrange : 0x30 ≤ c.toNat ∧ c.toNat ≤ 0x39 := by
        simpa [Char.isDigit, Char.le_def, UInt32.le_iff_toNat_le] using hdigit
      omega
    rw [isWordStart, isWordPart_of_not_break hbreak, hdigit]
    rfl

/-- **An identifier is a word**, and starts with no blank. -/
theorem word_of_isIdentifier {t : Text} (h : t.isIdentifier = true) :
    Word t ∧ ∀ c ∈ t.head?, Text.isBlank c = false := by
  cases t with
  | nil => cases h
  | cons c t =>
    rw [Text.isIdentifier, Bool.and_eq_true, List.all_eq_true] at h
    obtain ⟨hstart, hblank⟩ := of_isIdentifierStart h.1
    refine ⟨.start hstart (wordTail_of_parts fun d hd =>
      isWordPart_of_isIdentifierContinue (h.2 d hd)), fun d hd => ?_⟩
    obtain rfl := Option.some.inj hd
    exact hblank

end Lexeme
end DataBinding
