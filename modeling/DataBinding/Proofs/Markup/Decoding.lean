/-
# Texts that can be decoded

A text is decoded unless a decimal reference in it has more digits than a number is read from.  Which
texts these are is said without the reader.

* `Overlong`              : a reference in the text has too many digits;
* `overlong?_eq_none_iff` : the reader stops at such a reference, and at nothing else.
-/
import DataBinding.Proofs.Markup.Escaping

namespace DataBinding.Markup

/-- The text holds a decimal reference with more digits than are read. -/
def Overlong (t : Text) : Prop :=
  ∃ before digits rest, t = before ++ ("&#".toList ++ (digits ++ rest)) ∧
    (∀ c ∈ digits, c.isDigit = true) ∧ Text.maxDecimalDigits < digits.length

section Overlong

variable {c : Char} {t u : Text}

/-- An overlong reference starts at the first character, or the text behind it holds one. -/
theorem overlong_cons_iff : Overlong (c :: t) ↔
    (c = '&' ∧ t.head? = some '#' ∧
      Text.maxDecimalDigits < ((t.drop 1).takeWhile Char.isDigit).length) ∨ Overlong t := by
  constructor
  · rintro ⟨before, digits, rest, heq, hdigits, hlong⟩
    cases before with
    | nil =>
      obtain ⟨rfl, rfl⟩ := List.cons.inj heq
      refine .inl ⟨rfl, rfl, Nat.lt_of_lt_of_le hlong ?_⟩
      show digits.length ≤ ((digits ++ rest).takeWhile Char.isDigit).length
      rw [List.takeWhile_append_of_pos hdigits, List.length_append]
      exact Nat.le_add_right ..
    | cons _ before =>
      obtain ⟨rfl, rfl⟩ := List.cons.inj heq
      exact .inr ⟨before, digits, rest, rfl, hdigits, hlong⟩
  · rintro (⟨rfl, hhead, hlong⟩ | ⟨before, digits, rest, rfl, hdigits, hlong⟩)
    · cases t with
      | nil => cases hhead
      | cons sign t =>
        obtain rfl := Option.some.inj hhead
        refine ⟨[], t.takeWhile Char.isDigit, t.dropWhile Char.isDigit, ?_,
          fun _ => List.mem_takeWhile_imp, hlong⟩
        rw [List.takeWhile_append_dropWhile]
        rfl
    · exact ⟨c :: before, digits, rest, rfl, hdigits, hlong⟩

/-- **The reader stops** at an overlong reference and at nothing else. -/
theorem overlong?_eq_none_iff : overlong? t = none ↔ ¬ Overlong t := by
  induction t with
  | nil =>
    refine iff_of_true rfl ?_
    rintro ⟨before, digits, rest, heq, -⟩
    simp at heq
  | cons c t ih =>
    rw [overlong_cons_iff, not_or, ← ih]
    by_cases hsign : c = '&' ∧ t.head? = some '#'
    · obtain ⟨rfl, hhead⟩ := hsign
      rw [overlong?, if_pos (by simp [hhead])]
      dsimp only
      split
      · rename_i hlong
        exact iff_of_false (Option.some_ne_none _) fun h => h.1 ⟨rfl, hhead, hlong⟩
      · rename_i hshort
        exact ⟨fun h => ⟨fun hthis => hshort hthis.2.2, h⟩, And.right⟩
    · rw [overlong?_cons fun hc hhead => hsign ⟨hc, hhead⟩]
      exact ⟨fun h => ⟨fun hthis => hsign ⟨hthis.1, hthis.2.1⟩, h⟩, And.right⟩

/-- **The texts that can be decoded** hold no overlong reference. -/
theorem exists_decode_iff : (∃ u, decode t = .ok u) ↔ ¬ Overlong t := by
  rw [← overlong?_eq_none_iff]
  simp only [decode_eq_ok_iff, exists_and_left, exists_eq', and_true]

end Overlong

/-- The letter A as a reference by number, with as many zeros in front that it has a digit too much. -/
def longReference : Text :=
  "&#".toList ++ (List.replicate 4299 '0' ++ "65;".toList)

theorem overlong_longReference : Overlong longReference := by
  have hdigits : "65;".toList = "65".toList ++ ";".toList := rfl
  refine ⟨[], List.replicate 4299 '0' ++ "65".toList, ";".toList, ?_, fun c hc => ?_, ?_⟩
  · rw [longReference, hdigits, List.nil_append, List.append_assoc]
  · rcases List.mem_append.mp hc with hc | hc
    · rw [List.eq_of_mem_replicate hc]
      rfl
    · rcases List.mem_pair.mp hc with rfl | rfl <;> rfl
  · rw [List.length_append, List.length_replicate]
    decide

end DataBinding.Markup
