/-
# Readers before a closing parenthesis

A closing parenthesis belongs to no number, word or code and to no mark but its own.  A reader that
comes to the end of a text therefore reads the same when a parenthesis follows, with the exception of
what runs to the end of a line or to a closing mark.

* `number?_close`, `word?_close` : numbers and words are the same.
* `comment?_close_none`          : no comment comes about, unless a block comment was left open.
* `markupRemark?_local`          : a line that is set aside inside of a text ends there.
-/
import DataBinding.Proofs.Lexeme.Lookahead
import DataBinding.Proofs.Lexeme.Numbers

namespace DataBinding.Lexeme

/-! ## Numbers -/

section Numbers

variable {isDigit : Char → Bool} {r : Text}

theorem digitsRest_close (hparen : isDigit ')' = false) (hunder : isDigit '_' = false) :
    ∀ t : Text, digitsRest isDigit (t ++ ')' :: r) = digitsRest isDigit t
  | [] => by simp [digitsRest, hparen]
  | [x] => by
    by_cases hx : x = '_'
    · subst hx
      simp [digitsRest, hparen, hunder]
    · simp [digitsRest_cons hx, digitsRest, hparen]
  | x :: y :: t => by
    by_cases hx : x = '_'
    · subst hx
      simp only [List.cons_append, digitsRest, digitsRest_close hparen hunder t]
    · have hrest := digitsRest_close hparen hunder (y :: t)
      rw [List.cons_append, digitsRest_cons hx, digitsRest_cons hx, hrest]

theorem digits_close (hparen : isDigit ')' = false) (hunder : isDigit '_' = false) (t : Text) :
    digits isDigit (t ++ ')' :: r) = digits isDigit t := by
  cases t with
  | nil => simp [digits, hparen]
  | cons c t => rw [List.cons_append, digits, digits, digitsRest_close hparen hunder]

theorem exponent_close (t : Text) : exponent (t ++ ')' :: r) = exponent t := by
  have hdigits : ∀ t : Text, digits Char.isDigit (t ++ ')' :: r) = digits Char.isDigit t :=
    digits_close (by decide) (by decide)
  cases t with
  | nil => rfl
  | cons e t =>
    cases t with
    | nil =>
      have hnone : digits Char.isDigit (')' :: r) = 0 := hdigits []
      simp [exponent, hnone]
    | cons s t =>
      have hrest := hdigits (s :: t)
      rw [List.cons_append] at hrest
      simp only [List.cons_append, exponent, hdigits t, hrest]

theorem withSuffix_close {t : Text} {n : Nat} (hn : n ≤ t.length) :
    withSuffix (t ++ ')' :: r) n = withSuffix t n := by
  unfold withSuffix
  rw [List.drop_append_of_le_length hn]
  cases t.drop n <;> rfl

/-- What stands behind the integer part of a number. -/
theorem decimalBehind?_close (u s : Text) :
    decimalBehind? u (s ++ ')' :: r) = decimalBehind? u s := by
  have hdigits : ∀ t : Text, digits Char.isDigit (t ++ ')' :: r) = digits Char.isDigit t :=
    digits_close (by decide) (by decide)
  have hsuffix : withSuffix (u ++ (s ++ ')' :: r)) u.length = withSuffix (u ++ s) u.length := by
    rw [← List.append_assoc]
    exact withSuffix_close (by simp)
  have hfraction : ∀ fraction : Text,
      exponent ((fraction ++ ')' :: r).drop (digits Char.isDigit fraction)) =
        exponent (fraction.drop (digits Char.isDigit fraction)) := by
    intro fraction
    rw [List.drop_append_of_le_length (digits_le Char.isDigit fraction), exponent_close]
  unfold decimalBehind?
  rw [hsuffix, exponent_close]
  cases s with
  | nil => rfl
  | cons x fraction =>
    by_cases hx : x = '.'
    · subst hx
      simp only [List.cons_append, hdigits, hfraction]
    · simp [hx]

theorem decimal?_close (t : Text) : decimal? (t ++ ')' :: r) = decimal? t := by
  obtain ⟨u, s, rfl, hu⟩ : ∃ u s, t = u ++ s ∧ digits Char.isDigit t = u.length :=
    ⟨_, _, (List.take_append_drop (digits Char.isDigit t) t).symm,
      (List.length_take_of_le (digits_le Char.isDigit t)).symm⟩
  rw [decimal?_append hu, List.append_assoc, decimal?_append, decimalBehind?_close]
  rw [← List.append_assoc, digits_close (by decide) (by decide), hu]

/-- **A number is the same before a closing parenthesis.** -/
theorem number?_close (t : Text) : number? (t ++ ')' :: r) = number? t := by
  by_cases hbase : ∃ letter u isDigit, t = '0' :: letter :: u ∧ baseDigits? letter = some isDigit
  · obtain ⟨letter, u, isDigit, rfl, hbase⟩ := hbase
    have hnone : ∀ d, isHexDigit d = false → isDigit d = false := fun d hd =>
      Bool.eq_false_iff.mpr fun h => Bool.eq_false_iff.mp hd (digit_of_baseDigits? hbase h)
    have hdigits : digits isDigit (u ++ ')' :: r) = digits isDigit u :=
      digits_close (hnone _ (by decide)) (hnone _ (by decide)) u
    have hsuffix : withSuffix ('0' :: letter :: (u ++ ')' :: r)) (2 + digits isDigit u) =
        withSuffix ('0' :: letter :: u) (2 + digits isDigit u) := by
      have hle := digits_le isDigit u
      refine withSuffix_close (t := '0' :: letter :: u) ?_
      simp only [List.length_cons]
      omega
    simp only [List.cons_append, number?, hbase, hdigits, hsuffix]
  · rw [number?_eq_decimal? hbase, number?_append_eq_decimal? (by decide) (by decide) hbase,
      decimal?_close]

end Numbers

/-! ## Words -/

section Words

variable {t r : Text}

/-- What holds no parenthesis and stands in front lies before the parenthesis. -/
theorem exists_of_append_close {w u : Text} (h : t ++ ')' :: r = w ++ u) (hw : ')' ∉ w) :
    ∃ v, t = w ++ v ∧ u = v ++ ')' :: r := by
  obtain ⟨v, rfl, hv⟩ | h := List.append_eq_append_iff.mp h
  · cases v with
    | nil => exact ⟨[], by simp, hv.symm⟩
    | cons c v =>
      obtain ⟨rfl, -⟩ := List.cons.inj hv
      exact absurd (List.mem_append_right _ (List.mem_cons_self ..)) hw
  · exact h

/-- A code is the same before a closing parenthesis. -/
theorem characterCode?_close : characterCode? (t ++ ')' :: r) = characterCode? t := by
  refine Option.ext fun n => ?_
  simp only [characterCode?_eq_some_iff]
  constructor
  · rintro ⟨w, u, hsplit, hcode, rfl⟩
    obtain ⟨v, rfl, -⟩ := exists_of_append_close hsplit (hcode.notMem (by decide) (by decide))
    exact ⟨w, v, rfl, hcode, rfl⟩
  · rintro ⟨w, u, rfl, hcode, rfl⟩
    exact ⟨w, u ++ ')' :: r, List.append_assoc .., hcode, rfl⟩

/-- A word halts before a closing parenthesis where it halts at the end. -/
theorem halts_close : Halts (t ++ ')' :: r) ↔ Halts t := by
  cases t with
  | nil => exact ⟨fun _ => trivial, fun _ => ⟨by decide, fun h => absurd h (by decide)⟩⟩
  | cons c t => simp only [List.cons_append, Halts, characterCode?_close]

/-- **A word is the same before a closing parenthesis.** -/
theorem word?_close : word? (t ++ ')' :: r) = word? t := by
  refine Option.ext fun n => ?_
  simp only [word?_eq_some_iff]
  constructor
  · rintro ⟨w, u, hsplit, hword, hhalts, rfl⟩
    obtain ⟨v, rfl, rfl⟩ := exists_of_append_close hsplit
      (hword.wordTail.notMem (by decide) (by decide) (by decide))
    exact ⟨w, v, rfl, hword, halts_close.mp hhalts, rfl⟩
  · rintro ⟨w, u, rfl, hword, hhalts, rfl⟩
    exact ⟨w, u ++ ')' :: r, List.append_assoc .., hword, halts_close.mpr hhalts, rfl⟩

end Words

/-! ## Comments -/

section Comments

variable {t r : Text}

/-- A text starts alike before a closing parenthesis, as far as the beginning holds none. -/
theorem startsWith_close {lead : Text} (h : ')' ∉ lead) :
    (t ++ ')' :: r).startsWith lead = t.startsWith lead := by
  rw [Bool.eq_iff_iff, Text.startsWith_iff, Text.startsWith_iff]
  constructor
  · rintro ⟨u, hsplit⟩
    obtain ⟨v, rfl, -⟩ := exists_of_append_close hsplit.symm h
    exact ⟨v, rfl⟩
  · rintro ⟨u, rfl⟩
    exact ⟨u ++ ')' :: r, (List.append_assoc ..).symm⟩

/-- No comment comes about, unless a block comment was left open. -/
theorem comment?_close_none (h : comment? t = none) (hblock : ∀ u, t ≠ '/' :: '*' :: u) :
    comment? (t ++ ')' :: r) = none := by
  cases hclose : comment? (t ++ ')' :: r) with
  | none => rfl
  | some n =>
    exfalso
    obtain ⟨w, u, hsplit, hcomment, -⟩ := comment?_eq_some_iff.mp hclose
    have hmark : ∀ lead v, w = lead ++ v → ')' ∉ lead → ∃ u, lead ++ u = t := by
      rintro lead v rfl hlead
      rw [← List.IsPrefix, ← Text.startsWith_iff, ← startsWith_close hlead, Text.startsWith_iff,
        hsplit, List.append_assoc]
      exact ⟨_, rfl⟩
    cases hcomment with
    | @line v =>
      obtain ⟨u, rfl⟩ := hmark ['/', '/'] v rfl (by decide)
      cases h
    | @block v =>
      obtain ⟨u, rfl⟩ := hmark ['/', '*'] v rfl (by decide)
      exact hblock u rfl

/-- A comment stays one, unless it ran to the end of its line and the text ends there. -/
theorem Comment.close {w : Text} (h : Comment w t) (hend : t = [] → w.startsWith ['/', '/'] = false) :
    Comment w (t ++ ')' :: r) := by
  cases h with
  | block ends => exact .block ends
  | line inside ends =>
    cases t with
    | nil => cases hend rfl
    | cons c t => exact .line inside ends

/-- No line is set aside that was not before. -/
theorem markupRemark?_close_none (h : markupRemark? t = none) :
    markupRemark? (t ++ ')' :: r) = none := by
  rw [markupRemark?_eq_none_iff] at h ⊢
  rwa [startsWith_close (by decide), startsWith_close (by decide)]

/-- A line that is set aside inside a longer text does not depend on what follows that. -/
theorem markupRemark?_local {n : Nat} (h : markupRemark? t = some n) (hn : n < t.length)
    (s : Text) : markupRemark? (t ++ s) = some n := by
  obtain ⟨w, u, rfl, ⟨mark, v, hmark, rfl, inside, ends⟩, rfl⟩ := markupRemark?_eq_some_iff.mp h
  refine markupRemark?_eq_some_iff.mpr ⟨_, u ++ s, List.append_assoc .., ⟨mark, v, hmark, rfl, inside,
    ?_⟩, rfl⟩
  cases u with
  | nil => simp at hn
  | cons c u => exact ends

end Comments

end DataBinding.Lexeme
