/-
# How far the reader of numbers looks

What follows a number matters by its first character only, and most characters are quiet: they
continue no number, whatever follows them.

* `number?_local`       : a number does not depend on what follows a quiet character behind it.
* `number?_eq_none_iff` : a number starts with a digit, or with a point and a digit.
-/
import DataBinding.Lexeme.Number
import Mathlib.Data.List.Basic

namespace DataBinding.Lexeme

/-! ## Quiet characters -/

/-- The character continues no number. -/
def isQuiet (c : Char) : Bool :=
  !(isHexDigit c || "_nxXoO".toList.contains c)

section Quiet

variable {c : Char}

theorem isHexDigit_of_isQuiet (h : isQuiet c = true) : isHexDigit c = false := by
  rw [isQuiet, Bool.not_eq_true', Bool.or_eq_false_iff] at h
  exact h.1

theorem isDigit_of_isQuiet (h : isQuiet c = true) : c.isDigit = false := by
  have hhex := isHexDigit_of_isQuiet h
  rw [isHexDigit, Bool.or_eq_false_iff, Bool.or_eq_false_iff] at hhex
  exact hhex.1.1

/-- A quiet character is none of those that continue a number. -/
theorem ne_of_isQuiet (h : isQuiet c = true) {d : Char} (hd : isQuiet d = false) : c ≠ d := by
  rintro rfl
  rw [h] at hd
  cases hd

/-- No letter behind a zero. -/
theorem baseDigits?_of_isQuiet (h : isQuiet c = true) : baseDigits? c = none := by
  have hne : ∀ d : Char, isQuiet d = false → (c == d) = false :=
    fun d hd => beq_eq_false_iff_ne.mpr (ne_of_isQuiet h hd)
  simp [baseDigits?, hne 'x' (by decide), hne 'X' (by decide), hne 'o' (by decide),
    hne 'O' (by decide), hne 'b' (by decide), hne 'B' (by decide)]

/-- The digits of every base are hexadecimal ones. -/
theorem digit_of_baseDigits? {letter : Char} {isDigit : Char → Bool}
    (h : baseDigits? letter = some isDigit) {d : Char} (hd : isDigit d = true) :
    isHexDigit d = true := by
  unfold baseDigits? at h
  split at h
  · rw [← Option.some.inj h] at hd
    exact hd
  · have hdigit : d.isDigit = true → isHexDigit d = true := fun h => by simp [isHexDigit, h]
    split at h
    · rw [← Option.some.inj h] at hd
      refine hdigit ?_
      simp only [Bool.and_eq_true, decide_eq_true_eq] at hd
      simp only [Char.isDigit, Bool.and_eq_true, decide_eq_true_eq]
      exact ⟨hd.1, Char.le_trans hd.2 (by decide)⟩
    · split at h
      · rw [← Option.some.inj h] at hd
        simp only [Bool.or_eq_true, beq_iff_eq] at hd
        rcases hd with rfl | rfl <;> decide
      · cases h

end Quiet

/-! ## Runs of digits -/

section Digits

variable {isDigit : Char → Bool} {c : Char}

theorem digitsRest_cons (h : c ≠ '_') (t : Text) :
    digitsRest isDigit (c :: t) = if isDigit c then 1 + digitsRest isDigit t else 0 := by
  rw [digitsRest]
  intro d s hc _
  exact h hc

/-- A run of digits ends before a character that continues none. -/
theorem digitsRest_local (hunder : c ≠ '_') (hdigit : isDigit c = false) :
    ∀ w r : Text, digitsRest isDigit (w ++ c :: r) ≤ w.length ∧
      ∀ r', digitsRest isDigit (w ++ c :: r') = digitsRest isDigit (w ++ c :: r)
  | [], r => by simp [digitsRest_cons hunder, hdigit]
  | [x], r => by
    by_cases hx : x = '_'
    · subst hx
      simp [digitsRest, hdigit]
    · simp only [List.cons_append, List.nil_append, digitsRest_cons hx, digitsRest_cons hunder,
        hdigit]
      refine ⟨?_, fun _ => rfl⟩
      split <;> simp
  | x :: y :: w, r => by
    by_cases hx : x = '_'
    · subst hx
      obtain ⟨hle, hsame⟩ := digitsRest_local hunder hdigit w r
      simp only [List.cons_append, digitsRest, List.length_cons]
      refine ⟨?_, fun r' => by rw [hsame r']⟩
      split <;> omega
    · obtain ⟨hle, hsame⟩ := digitsRest_local hunder hdigit (y :: w) r
      simp only [List.cons_append, digitsRest_cons hx, List.length_cons] at hle hsame ⊢
      refine ⟨?_, fun r' => by rw [hsame r']⟩
      split <;> omega

theorem digits_local (hunder : c ≠ '_') (hdigit : isDigit c = false) (w r : Text) :
    digits isDigit (w ++ c :: r) ≤ w.length ∧
      ∀ r', digits isDigit (w ++ c :: r') = digits isDigit (w ++ c :: r) := by
  cases w with
  | nil => simp [digits, hdigit]
  | cons x w =>
    obtain ⟨hle, hsame⟩ := digitsRest_local hunder hdigit w r
    simp only [List.cons_append, digits, List.length_cons]
    refine ⟨?_, fun r' => by rw [hsame r']⟩
    split <;> omega

theorem digitsRest_le (isDigit : Char → Bool) : ∀ t : Text, digitsRest isDigit t ≤ t.length
  | [] => Nat.le_refl _
  | [x] => by
    unfold digitsRest
    split <;> simp_all [digitsRest]
    split <;> omega
  | x :: y :: t => by
    by_cases hx : x = '_'
    · subst hx
      have := digitsRest_le isDigit t
      simp only [digitsRest, List.length_cons]
      split <;> omega
    · have := digitsRest_le isDigit (y :: t)
      simp only [digitsRest_cons hx, List.length_cons] at this ⊢
      split <;> omega

theorem digits_le (isDigit : Char → Bool) (t : Text) : digits isDigit t ≤ t.length := by
  cases t with
  | nil => exact Nat.le_refl _
  | cons c t =>
    have := digitsRest_le isDigit t
    simp only [digits, List.length_cons]
    split <;> omega

end Digits

/-! ## Decimal numbers -/

section Decimals

variable {c : Char}

theorem exponent_le (t : Text) : exponent t ≤ t.length := by
  unfold exponent
  split
  · rename_i e t
    split
    · split
      · rename_i s r
        have hr := digits_le Char.isDigit r
        have ht := digits_le Char.isDigit (s :: r)
        simp only [List.length_cons] at ht ⊢
        split
        · split <;> omega
        · split <;> omega
      · exact Nat.zero_le _
    · exact Nat.zero_le _
  · exact Nat.le_refl _

/-- Quiet characters start no exponent. -/
theorem exponent_of_isQuiet (hquiet : isQuiet c = true) (r : Text) : exponent (c :: r) = 0 := by
  have he : (c == 'e' || c == 'E') = false := by
    rw [Bool.or_eq_false_iff, beq_eq_false_iff_ne, beq_eq_false_iff_ne]
    exact ⟨ne_of_isQuiet hquiet (by decide), ne_of_isQuiet hquiet (by decide)⟩
  simp [exponent, he]

/-- An exponent does not depend on what follows a quiet character behind it. -/
theorem exponent_local (hquiet : isQuiet c = true) {w r : Text}
    (h : exponent (w ++ c :: r) = w.length) (r' : Text) : exponent (w ++ c :: r') = w.length := by
  have hunder : c ≠ '_' := ne_of_isQuiet hquiet (by decide)
  have hdigit := isDigit_of_isQuiet hquiet
  cases w with
  | nil => exact exponent_of_isQuiet hquiet r'
  | cons e w =>
    simp only [List.cons_append, exponent, List.length_cons] at h ⊢
    split at h
    swap
    · omega
    rename_i he
    rw [if_pos he]
    cases w with
    | nil =>
      simp only [List.nil_append, List.length_nil] at h
      split at h
      · split at h <;> omega
      · have hnone : digits Char.isDigit (c :: r) = 0 := by simp [digits, hdigit]
        rw [hnone] at h
        cases h
    | cons s w =>
      simp only [List.cons_append] at h ⊢
      obtain ⟨-, hsame⟩ := digits_local hunder hdigit w r
      obtain ⟨-, hsame'⟩ := digits_local hunder hdigit (s :: w) r
      simp only [List.cons_append] at hsame'
      rw [hsame r', hsame' r']
      exact h

/-- A fraction with its exponent does not depend on what follows a quiet character behind it. -/
theorem fraction_local (hquiet : isQuiet c = true) {v r : Text} {f : Nat}
    (hf : digits Char.isDigit (v ++ c :: r) = f)
    (h : f + exponent ((v ++ c :: r).drop f) = v.length) (r' : Text) :
    digits Char.isDigit (v ++ c :: r') = f ∧
      exponent ((v ++ c :: r').drop f) = exponent ((v ++ c :: r).drop f) := by
  obtain ⟨hle, hsame⟩ := digits_local (ne_of_isQuiet hquiet (by decide))
    (isDigit_of_isQuiet hquiet) v r
  rw [hf] at hle
  refine ⟨(hsame r').trans hf, ?_⟩
  rw [List.drop_append_of_le_length hle] at h ⊢
  rw [List.drop_append_of_le_length hle]
  have hrest : exponent (v.drop f ++ c :: r) = (v.drop f).length := by
    rw [List.length_drop]
    omega
  rw [hrest, exponent_local hquiet hrest r']

theorem withSuffix_le {t : Text} {n : Nat} (h : n ≤ t.length) : withSuffix t n ≤ t.length := by
  unfold withSuffix
  split
  · rename_i hsuffix
    have hlt : n < t.length := by
      rcases Nat.lt_or_ge n t.length with hlt | hge
      · exact hlt
      · rw [List.drop_eq_nil_of_le hge] at hsuffix
        cases hsuffix
    exact hlt
  · exact h

/-- The suffix of an integer does not depend on what follows a quiet character behind it. -/
theorem withSuffix_local (hquiet : isQuiet c = true) {u v r : Text}
    (h : withSuffix (u ++ v ++ c :: r) u.length = (u ++ v).length) (r' : Text) :
    withSuffix (u ++ v ++ c :: r') u.length = (u ++ v).length := by
  unfold withSuffix at h ⊢
  rw [List.append_assoc, List.drop_left] at h ⊢
  cases v with
  | nil => simp [ne_of_isQuiet hquiet (d := 'n') (by decide)]
  | cons x v => exact h

theorem decimal?_le {t : Text} {n : Nat} (h : decimal? t = some n) : 0 < n ∧ n ≤ t.length := by
  have hn := digits_le Char.isDigit t
  unfold decimal? at h
  simp only at h
  generalize digits Char.isDigit t = k at h hn
  have hfraction : ∀ fraction, t.drop k = '.' :: fraction →
      k + 1 + digits Char.isDigit fraction
        + exponent (fraction.drop (digits Char.isDigit fraction)) ≤ t.length := by
    intro fraction hdrop
    have hf := digits_le Char.isDigit fraction
    have he := exponent_le (fraction.drop (digits Char.isDigit fraction))
    have hlength := congrArg List.length hdrop
    rw [List.length_drop, List.length_cons] at hlength
    rw [List.length_drop] at he
    omega
  split at h
  · rename_i hzero
    obtain rfl : k = 0 := by simpa using hzero
    split at h
    · rename_i fraction hdrop
      have := hfraction fraction hdrop
      split at h
      · cases h
      · obtain rfl := Option.some.inj h
        omega
    · cases h
  · rename_i hzero
    have hpos : 0 < k := Nat.pos_of_ne_zero (by simpa using hzero)
    have hsuffix : withSuffix t k ≤ t.length ∧ 0 < withSuffix t k := by
      refine ⟨withSuffix_le hn, ?_⟩
      unfold withSuffix
      split <;> omega
    split at h
    · split at h
      · rename_i fraction hdrop
        have := hfraction fraction hdrop
        obtain rfl := Option.some.inj h
        omega
      · split at h
        · obtain rfl := Option.some.inj h
          exact hsuffix.symm
        · obtain rfl := Option.some.inj h
          have he := exponent_le (t.drop k)
          rw [List.length_drop] at he
          omega
    · obtain rfl := Option.some.inj h
      exact hsuffix.symm

/-- The length of a decimal number with the digits `u` in front of the text `s`. -/
def decimalBehind? (u s : Text) : Option Nat :=
  if u.isEmpty then
    match s with
    | '.' :: fraction =>
      let f := digits Char.isDigit fraction
      if f == 0 then none else some (1 + f + exponent (fraction.drop f))
    | _ => none
  else if isIntegerPart u then
    match s with
    | '.' :: fraction =>
      let f := digits Char.isDigit fraction
      some (u.length + 1 + f + exponent (fraction.drop f))
    | _ =>
      if exponent s == 0 then some (withSuffix (u ++ s) u.length) else some (u.length + exponent s)
  else some (withSuffix (u ++ s) u.length)

theorem decimal?_append {u s : Text} (h : digits Char.isDigit (u ++ s) = u.length) :
    decimal? (u ++ s) = decimalBehind? u s := by
  have hzero : (u.length == 0) = u.isEmpty := by cases u <;> rfl
  unfold decimal? decimalBehind?
  simp only [h, List.drop_left, List.take_left, hzero]
  rfl

/-- What follows an integer does not depend on what follows a quiet character behind it. -/
theorem integer_local (hquiet : isQuiet c = true) {u v r : Text}
    (hdot : ∀ x ∈ v.head?, x ≠ '.')
    (h : (if exponent (v ++ c :: r) == 0 then some (withSuffix (u ++ (v ++ c :: r)) u.length)
      else some (u.length + exponent (v ++ c :: r))) = some (u ++ v).length) (r' : Text) :
    (if exponent (v ++ c :: r') == 0 then some (withSuffix (u ++ (v ++ c :: r')) u.length)
      else some (u.length + exponent (v ++ c :: r'))) = some (u ++ v).length := by
  rw [← List.append_assoc] at h ⊢
  split at h
  · have hsuffix := withSuffix_local hquiet (Option.some.inj h) r'
    -- nothing or the suffix stands behind the digits
    have hnone : exponent (v ++ c :: r') = 0 := by
      cases v with
      | nil => exact exponent_of_isQuiet hquiet r'
      | cons x v =>
        have hlength := Option.some.inj h
        rw [withSuffix, List.append_assoc, List.drop_left, List.length_append,
          List.length_cons] at hlength
        split at hlength
        · rename_i hx
          obtain rfl : x = 'n' := by simpa using hx
          rfl
        · omega
    rw [hnone, hsuffix]
    rfl
  · rename_i hpos
    have htotal := Option.some.inj h
    rw [List.length_append, Nat.add_left_cancel_iff] at htotal
    rw [exponent_local hquiet htotal r', ← htotal, if_neg hpos, htotal, List.length_append]

/-- A number that starts with its point does not depend on what follows a quiet character. -/
theorem decimalBehind?_nil_local (hquiet : isQuiet c = true) {v r : Text}
    (h : decimalBehind? [] (v ++ c :: r) = some v.length) (r' : Text) :
    decimalBehind? [] (v ++ c :: r') = some v.length := by
  simp only [decimalBehind?, List.isEmpty_nil, if_true] at h ⊢
  cases v with
  | nil =>
    simp only [List.nil_append] at h
    split at h
    · split at h
      · cases h
      · have htotal := Option.some.inj h
        rw [List.length_nil] at htotal
        omega
    · cases h
  | cons x v =>
    simp only [List.cons_append] at h ⊢
    split at h
    · rename_i fraction hdot
      obtain ⟨rfl, rfl⟩ := List.cons.inj hdot
      split at h
      · cases h
      · rename_i hf
        have htotal := Option.some.inj h
        rw [List.length_cons] at htotal
        obtain ⟨hdigits, hexponent⟩ := fraction_local hquiet (v := v) (r := r) rfl (by omega) r'
        simp only [hdigits, hexponent]
        rw [if_neg hf]
        exact h
    · cases h

/-- A number with an integer part does not depend on what follows a quiet character. -/
theorem decimalBehind?_integer_local (hquiet : isQuiet c = true) {u v r : Text}
    (hempty : ¬ u.isEmpty = true) (hinteger : isIntegerPart u = true)
    (h : decimalBehind? u (v ++ c :: r) = some (u ++ v).length) (r' : Text) :
    decimalBehind? u (v ++ c :: r') = some (u ++ v).length := by
  simp only [decimalBehind?, if_neg hempty, if_pos hinteger] at h ⊢
  cases v with
  | nil =>
    simp only [List.nil_append] at h ⊢
    split at h
    · -- no point follows the number, since it would belong to it
      have htotal := Option.some.inj h
      rw [List.append_nil] at htotal
      omega
    · rename_i hdot
      have hrest := integer_local hquiet (v := []) (u := u) (by simp) h r'
      split
      · rename_i heq
        exact absurd (by rw [(List.cons.inj heq).1]) (hdot r)
      · exact hrest
  | cons x v =>
    simp only [List.cons_append] at h ⊢
    split at h
    · rename_i fraction hdot
      obtain ⟨rfl, rfl⟩ := List.cons.inj hdot
      have htotal := Option.some.inj h
      rw [List.length_append, List.length_cons] at htotal
      obtain ⟨hdigits, hexponent⟩ := fraction_local hquiet (v := v) (r := r) rfl (by omega) r'
      simp only [hdigits, hexponent]
      exact h
    · rename_i hdot
      have hx : x ≠ '.' := by
        rintro rfl
        exact hdot _ rfl
      have hrest := integer_local hquiet (v := x :: v) (u := u) (by simpa using hx) h r'
      split
      · rename_i heq
        exact absurd (List.cons.inj heq).1 hx
      · exact hrest

/-- What follows the digits of a number does not depend on what follows a quiet character. -/
theorem decimalBehind?_local (hquiet : isQuiet c = true) {u v r : Text}
    (h : decimalBehind? u (v ++ c :: r) = some (u ++ v).length) (r' : Text) :
    decimalBehind? u (v ++ c :: r') = some (u ++ v).length := by
  by_cases hempty : u.isEmpty = true
  · obtain rfl : u = [] := List.isEmpty_iff.mp hempty
    exact decimalBehind?_nil_local hquiet h r'
  · by_cases hinteger : isIntegerPart u = true
    · exact decimalBehind?_integer_local hquiet hempty hinteger h r'
    · simp only [decimalBehind?, if_neg hempty, if_neg hinteger] at h ⊢
      rw [← List.append_assoc] at h ⊢
      rw [withSuffix_local hquiet (Option.some.inj h) r']

/-- A decimal number does not depend on what follows a quiet character behind it. -/
theorem decimal?_local (hquiet : isQuiet c = true) {w r : Text}
    (h : decimal? (w ++ c :: r) = some w.length) (r' : Text) :
    decimal? (w ++ c :: r') = some w.length := by
  obtain ⟨hle, hsame⟩ := digits_local (ne_of_isQuiet hquiet (d := '_') (by decide))
    (isDigit_of_isQuiet hquiet) w r
  obtain ⟨u, v, rfl, hu⟩ : ∃ u v, w = u ++ v ∧ digits Char.isDigit (w ++ c :: r) = u.length :=
    ⟨w.take _, w.drop _, (List.take_append_drop _ w).symm, (List.length_take_of_le hle).symm⟩
  have hu' := (hsame r').trans hu
  rw [List.append_assoc] at h hu hu' ⊢
  rw [decimal?_append hu] at h
  rw [decimal?_append hu']
  exact decimalBehind?_local hquiet h r'

/-! ## Numbers of every base -/

theorem number?_le {t : Text} {n : Nat} (h : number? t = some n) : 0 < n ∧ n ≤ t.length := by
  unfold number? at h
  split at h
  · rename_i letter t
    split at h
    · rename_i isDigit _
      have hd := digits_le isDigit t
      simp only at h
      split at h
      · obtain rfl := Option.some.inj h
        simp
      · obtain rfl := Option.some.inj h
        refine ⟨?_, withSuffix_le (by simp only [List.length_cons]; omega)⟩
        unfold withSuffix
        split <;> omega
    · exact decimal?_le h
  · exact decimal?_le h

/-- Only a zero with the letter of a base behind it starts a number that is no decimal one. -/
theorem number?_eq_decimal? {t : Text}
    (h : ¬ ∃ letter u isDigit, t = '0' :: letter :: u ∧ baseDigits? letter = some isDigit) :
    number? t = decimal? t := by
  unfold number?
  split
  · rename_i letter u
    cases hbase : baseDigits? letter with
    | none => rfl
    | some isDigit => exact absurd ⟨letter, u, isDigit, rfl, hbase⟩ h
  · rfl

/-- A character that is neither a zero nor such a letter does not make a number one of a base. -/
theorem number?_append_eq_decimal? {c : Char} (hc : c ≠ '0') (hletter : baseDigits? c = none)
    {w : Text}
    (h : ¬ ∃ letter u isDigit, w = '0' :: letter :: u ∧ baseDigits? letter = some isDigit)
    (s : Text) : number? (w ++ c :: s) = decimal? (w ++ c :: s) := by
  refine number?_eq_decimal? ?_
  rintro ⟨letter, u, isDigit, heq, hbase⟩
  rcases w with _ | ⟨x, _ | ⟨y, w⟩⟩
  · exact hc (List.cons.inj heq).1
  · obtain ⟨-, hrest⟩ := List.cons.inj heq
    obtain ⟨rfl, -⟩ := List.cons.inj hrest
    rw [hletter] at hbase
    cases hbase
  · obtain ⟨rfl, hrest⟩ := List.cons.inj heq
    obtain ⟨rfl, -⟩ := List.cons.inj hrest
    exact h ⟨_, w, isDigit, rfl, hbase⟩

/-- **A number does not depend on what follows a quiet character behind it.** -/
theorem number?_local (hquiet : isQuiet c = true) {w r : Text}
    (h : number? (w ++ c :: r) = some w.length) (r' : Text) :
    number? (w ++ c :: r') = some w.length := by
  by_cases hzero : ∃ letter v isDigit, w = '0' :: letter :: v ∧ baseDigits? letter = some isDigit
  · obtain ⟨letter, v, isDigit, rfl, hbase⟩ := hzero
    have hdigit : isDigit c = false := by
      rw [Bool.eq_false_iff]
      intro hd
      exact absurd (isHexDigit_of_isQuiet hquiet) (by rw [digit_of_baseDigits? hbase hd]; decide)
    obtain ⟨hle, hsame⟩ := digits_local (ne_of_isQuiet hquiet (d := '_') (by decide)) hdigit v r
    simp only [List.cons_append, number?, hbase, hsame r'] at h ⊢
    split at h
    · simp at h
    · rename_i hn
      rw [if_neg hn]
      obtain ⟨u, x, rfl, hu⟩ : ∃ u x, v = u ++ x ∧ digits isDigit (v ++ c :: r) = u.length :=
        ⟨v.take _, v.drop _, (List.take_append_drop _ v).symm, (List.length_take_of_le hle).symm⟩
      rw [hu] at h ⊢
      have htwo : 2 + u.length = ('0' :: letter :: u).length := by
        simp only [List.length_cons]
        omega
      rw [htwo] at h ⊢
      exact congrArg some
        (withSuffix_local hquiet (u := '0' :: letter :: u) (v := x) (Option.some.inj h) r')
  · have hc : c ≠ '0' := ne_of_isQuiet hquiet (by decide)
    rw [number?_append_eq_decimal? hc (baseDigits?_of_isQuiet hquiet) hzero] at h ⊢
    exact decimal?_local hquiet h r'

/-- A run of digits is empty if its first character is no digit. -/
theorem digits_cons_eq_zero_iff {d : Char} {s : Text} :
    digits Char.isDigit (d :: s) = 0 ↔ d.isDigit = false := by
  rw [digits]
  split
  · rename_i hd
    rw [hd]
    simp
  · rename_i hd
    simpa using hd

/-- A decimal number starts with a digit, or with a point and a digit. -/
theorem decimal?_eq_none_iff {c : Char} {t : Text} :
    decimal? (c :: t) = none ↔ c.isDigit = false ∧
      (c = '.' → ∀ d ∈ t.head?, d.isDigit = false) := by
  unfold decimal?
  simp only
  cases hd : c.isDigit with
  | true =>
    have hpos : (digits Char.isDigit (c :: t) == 0) = false := by
      rw [beq_eq_false_iff_ne, ne_eq, digits_cons_eq_zero_iff, hd]
      exact Bool.noConfusion
    rw [hpos, if_neg Bool.false_ne_true]
    simp only [reduceCtorEq, false_and, iff_false]
    split
    · split
      · simp
      · split <;> simp
    · simp
  | false =>
    rw [digits_cons_eq_zero_iff.mpr hd]
    simp only [beq_self_eq_true, if_true, List.drop_zero, true_and]
    split
    · rename_i fraction heq
      obtain ⟨rfl, rfl⟩ := List.cons.inj heq
      cases t with
      | nil => simp [digits]
      | cons d s => cases hd' : d.isDigit <;> simp [digits_cons_eq_zero_iff, hd']
    · rename_i hdot
      simp only [true_iff]
      rintro rfl
      exact absurd rfl (hdot t)

/-- A number starts with a digit, or with a point and a digit. -/
theorem number?_eq_none_iff {c : Char} {t : Text} :
    number? (c :: t) = none ↔ c.isDigit = false ∧
      (c = '.' → ∀ d ∈ t.head?, d.isDigit = false) := by
  rw [← decimal?_eq_none_iff]
  unfold number?
  split
  · rename_i letter s heq
    obtain ⟨rfl, rfl⟩ := List.cons.inj heq
    split
    · -- a zero is a number, whatever follows it
      have hsome : decimal? ('0' :: letter :: s) ≠ none := by
        rw [ne_eq, decimal?_eq_none_iff]
        exact fun h => Bool.noConfusion h.1
      simp only [hsome, iff_false]
      split <;> simp
    · rfl
  · rfl

end Decimals

end DataBinding.Lexeme
