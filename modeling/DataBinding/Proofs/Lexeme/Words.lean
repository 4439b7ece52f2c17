/-
# The shape of words

The reader of words is told by the words it accepts: a first character, and further characters and
character codes.  What follows a word matters only by its head, so that words can be joined and put
in the place of each other.

* `characterCode?_eq_some_iff` : the codes that may stand for a character.
* `word?_eq_some_iff`          : a word is read exactly where one stands and does not go on.
* `Word.append`                : a word that goes on is a word.
-/
import DataBinding.Lexeme.Word
import DataBinding.Proofs.Text.Runs

namespace DataBinding.Lexeme

/-! ## Properties of all characters of a text -/

section Decidable

variable (p : Char → Prop) [DecidablePred p]

/-- A property of the characters of a text is decided on these, not on all characters there are. -/
instance (priority := 1100) decidableForallMem (t : Text) : Decidable (∀ c ∈ t, p c) :=
  List.decidableBAll p t

/-- A property of a first or last character is decided on that one. -/
instance (priority := 1100) decidableForallMemOption (c? : Option Char) :
    Decidable (∀ c ∈ c?, p c) :=
  Option.decidableForallMem c?

end Decidable

/-! ## Character codes -/

/-- A character code behind a backslash: four hexadecimal digits, or some in braces. -/
inductive Code : Text → Prop
  | braced {digits : Text} (nonempty : digits ≠ []) (hex : digits.all isHexDigit = true) :
      Code ('u' :: '\x7b' :: (digits ++ ['\x7d']))
  | plain {a b c d : Char} (hex : [a, b, c, d].all isHexDigit = true) : Code ['u', a, b, c, d]

/-- The digits of a braced code end at the brace. -/
theorem bracedCode?_eq_some_iff {t : Text} {n : Nat} :
    bracedCode? t = some n ↔ ∃ digits r, t = digits ++ '\x7d' :: r ∧ digits ≠ [] ∧
      digits.all isHexDigit = true ∧ n = digits.length + 1 := by
  constructor
  · intro h
    obtain ⟨digits, rest, rfl, hhex, hstop⟩ := Text.exists_run isHexDigit t
    unfold bracedCode? at h
    simp only [Text.takeWhile_append_stop hhex hstop, List.drop_left] at h
    split at h
    · cases h
    · rename_i hne
      split at h
      · rename_i hbrace
        obtain rfl := Option.some.inj h
        obtain ⟨r, rfl⟩ : ∃ r, rest = '\x7d' :: r := by
          cases rest with
          | nil => simp at hbrace
          | cons c r => exact ⟨r, by simpa using hbrace⟩
        exact ⟨digits, r, rfl, by simpa using hne, List.all_eq_true.mpr hhex, rfl⟩
      · cases h
  · rintro ⟨digits, r, rfl, hne, hhex, rfl⟩
    have htake : (digits ++ '\x7d' :: r).takeWhile isHexDigit = digits :=
      Text.takeWhile_append_stop (List.all_eq_true.mp hhex) (by simp; decide)
    simp [bracedCode?, htake, hne]

/-- The codes that are read are those that stand in front. -/
theorem characterCode?_eq_some_iff {t : Text} {n : Nat} :
    characterCode? t = some n ↔ ∃ w r, t = w ++ r ∧ Code w ∧ n = w.length := by
  constructor
  · intro h
    unfold characterCode? at h
    split at h
    · obtain ⟨k, hk, rfl⟩ := Option.map_eq_some_iff.mp h
      obtain ⟨digits, r, rfl, hne, hhex, rfl⟩ := bracedCode?_eq_some_iff.mp hk
      exact ⟨_, r, by simp, .braced hne hhex, by simp⟩
    · rename_i a b c d r _
      split at h
      · rename_i hhex
        obtain rfl := Option.some.inj h
        exact ⟨['u', a, b, c, d], r, rfl, .plain hhex, rfl⟩
      · cases h
    · cases h
  · rintro ⟨w, r, rfl, hcode, rfl⟩
    cases hcode with
    | @braced digits hne hhex =>
      have hbraced : bracedCode? (digits ++ '\x7d' :: r) = some (digits.length + 1) :=
        bracedCode?_eq_some_iff.mpr ⟨digits, r, rfl, hne, hhex, rfl⟩
      simp [characterCode?, hbraced]
    | @plain a b c d hhex =>
      -- a digit is no brace, so that the reader takes its other branch
      have hbrace : a ≠ '\x7b' := by
        rintro rfl
        simp [isHexDigit] at hhex
      simp only [List.cons_append, List.nil_append]
      unfold characterCode?
      split
      · rename_i heq
        simp only [List.cons.injEq] at heq
        exact absurd heq.2.1 hbrace
      · rename_i heq
        simp only [List.cons.injEq] at heq
        obtain ⟨-, rfl, rfl, rfl, rfl, rfl⟩ := heq
        rw [if_pos hhex]
        rfl
      · rename_i hnone
        exact absurd rfl (hnone a b c d r)

theorem Code.ne_nil {w : Text} (h : Code w) : w ≠ [] := by
  cases h <;> exact List.cons_ne_nil _ _

/-- A character code holds hexadecimal digits, its letter and braces only. -/
theorem Code.notMem {w : Text} (h : Code w) {x : Char} (hhex : isHexDigit x = false)
    (hother : x ∉ ['u', '\x7b', '\x7d']) : x ∉ w := by
  have hdigit : ∀ c : Char, isHexDigit c = true → x ≠ c := by
    rintro c hc rfl
    rw [hhex] at hc
    cases hc
  simp only [List.mem_cons, List.not_mem_nil, or_false, not_or] at hother
  obtain ⟨hletter, hopen, hclose⟩ := hother
  cases h with
  | braced _ hex =>
    simp only [List.all_eq_true] at hex
    simp only [List.mem_cons, List.mem_append, List.not_mem_nil, or_false, not_or]
    exact ⟨hletter, hopen, fun h => hdigit _ (hex _ h) rfl, hclose⟩
  | plain hex =>
    simp only [List.all_cons, List.all_nil, Bool.and_true, Bool.and_eq_true] at hex
    obtain ⟨ha, hb, hc, hd⟩ := hex
    simp only [List.mem_cons, List.not_mem_nil, or_false, not_or]
    exact ⟨hletter, hdigit _ ha, hdigit _ hb, hdigit _ hc, hdigit _ hd⟩

/-- No dot stands in a character code. -/
theorem Code.dot_notMem {w : Text} (h : Code w) : '.' ∉ w :=
  h.notMem (by decide) (by decide)

/-! ## Further characters of words -/

/-- Characters and character codes that continue a word. -/
inductive WordTail : Text → Prop
  | nil : WordTail []
  | part {c : Char} {w : Text} (part : isWordPart c = true) (rest : WordTail w) : WordTail (c :: w)
  | code {code w : Text} (escaped : Code code) (rest : WordTail w) :
      WordTail ('\\' :: (code ++ w))

/-- A text that continues no word. -/
def Halts : Text → Prop
  | [] => True
  | c :: t => isWordPart c = false ∧ (c = '\\' → characterCode? t = none)

/-- A backslash is no part of a word by itself. -/
theorem isWordPart_backslash : isWordPart '\\' = false := by
  decide

/-- The characters of an escape are skipped. -/
theorem wordRest_skip (w t : Text) : wordRest w.length (w ++ t) = w.length + wordRest 0 t := by
  induction w with
  | nil => exact (Nat.zero_add _).symm
  | cons c w ih =>
    show 1 + wordRest w.length (w ++ t) = w.length + 1 + wordRest 0 t
    rw [ih]
    omega

/-- A word goes on as far as its tail. -/
theorem WordTail.wordRest_append {w : Text} (h : WordTail w) (t : Text) :
    wordRest 0 (w ++ t) = w.length + wordRest 0 t := by
  induction h with
  | nil => exact (Nat.zero_add _).symm
  | @part c w part _ ih =>
    rw [List.cons_append, wordRest, if_pos part, ih, List.length_cons]
    omega
  | @code code w escaped _ ih =>
    have hcode : characterCode? (code ++ w ++ t) = some code.length :=
      characterCode?_eq_some_iff.mpr ⟨code, w ++ t, List.append_assoc .., escaped, rfl⟩
    rw [List.cons_append, wordRest, isWordPart_backslash, if_neg Bool.false_ne_true, hcode]
    simp only [beq_self_eq_true, if_true]
    rw [List.append_assoc, wordRest_skip, ih, List.length_cons, List.length_append]
    omega

theorem wordRest_of_halts {t : Text} (h : Halts t) : wordRest 0 t = 0 := by
  cases t with
  | nil => rfl
  | cons c t =>
    obtain ⟨hpart, hcode⟩ := h
    rw [wordRest, hpart, if_neg Bool.false_ne_true]
    split
    · rename_i hslash
      rw [hcode (by simpa using hslash)]
    · rfl

/-- The further characters of a word are a tail, and the word halts behind them. -/
theorem exists_of_wordRest (t : Text) :
    ∃ w r, t = w ++ r ∧ wordRest 0 t = w.length ∧ WordTail w ∧ Halts r := by
  induction hlength : t.length using Nat.strongRecOn generalizing t with
  | ind k ih =>
    subst hlength
    by_cases hhalts : Halts t
    · exact ⟨[], t, rfl, wordRest_of_halts hhalts, .nil, hhalts⟩
    · cases t with
      | nil => exact absurd trivial hhalts
      | cons c t =>
        cases hpart : isWordPart c with
        | true =>
          obtain ⟨w, r, rfl, hrest, htail, hend⟩ := ih t.length (Nat.lt_succ_self _) t rfl
          refine ⟨c :: w, r, rfl, ?_, .part hpart htail, hend⟩
          rw [wordRest, if_pos hpart, hrest, List.length_cons, Nat.add_comm]
        -- what goes on without a part of a word is a character code
        | false =>
          obtain ⟨rfl, n, hcode⟩ : c = '\\' ∧ ∃ n, characterCode? t = some n := by
            by_contra hnot
            refine hhalts ⟨hpart, fun hslash => ?_⟩
            cases hcode : characterCode? t with
            | none => rfl
            | some n => exact absurd ⟨hslash, n, hcode⟩ hnot
          obtain ⟨code, s, rfl, hescaped, rfl⟩ := characterCode?_eq_some_iff.mp hcode
          have hshorter : s.length < ('\\' :: (code ++ s)).length := by
            rw [List.length_cons, List.length_append]
            omega
          obtain ⟨w, r, rfl, -, htail, hend⟩ := ih s.length hshorter s rfl
          refine ⟨'\\' :: (code ++ w), r, by simp, ?_, .code hescaped htail, hend⟩
          have hall := (WordTail.code hescaped htail).wordRest_append r
          rw [wordRest_of_halts hend] at hall
          simpa using hall

theorem WordTail.append {w v : Text} (h : WordTail w) (h' : WordTail v) : WordTail (w ++ v) := by
  induction h with
  | nil => exact h'
  | part part _ ih => exact .part part ih
  | code escaped _ ih =>
    rw [List.cons_append, List.append_assoc]
    exact .code escaped ih

/-- The tail of a word holds no other marks than those of character codes. -/
theorem WordTail.notMem {w : Text} (h : WordTail w) {x : Char} (hpart : isWordPart x = false)
    (hhex : isHexDigit x = false) (hother : x ∉ ['u', '\x7b', '\x7d', '\\']) : x ∉ w := by
  induction h with
  | nil => exact List.not_mem_nil
  | part part _ ih =>
    rw [List.mem_cons, not_or]
    refine ⟨?_, ih⟩
    rintro rfl
    rw [hpart] at part
    cases part
  | code escaped _ ih =>
    simp only [List.mem_cons, List.not_mem_nil, or_false, not_or] at hother
    rw [List.mem_cons, List.mem_append, not_or, not_or]
    exact ⟨hother.2.2.2, escaped.notMem hhex (by simp [hother]), ih⟩

/-- No dot stands in the tail of a word. -/
theorem WordTail.dot_notMem {w : Text} (h : WordTail w) : '.' ∉ w :=
  h.notMem (by decide) (by decide) (by decide)

/-- Characters that continue a word are the tail of one. -/
theorem wordTail_of_parts {w : Text} (h : ∀ c ∈ w, isWordPart c = true) : WordTail w := by
  induction w with
  | nil => exact .nil
  | cons c w ih =>
    exact .part (h c (List.mem_cons_self ..)) (ih fun d hd => h d (List.mem_cons_of_mem _ hd))

/-- Digits continue words. -/
theorem isWordPart_of_isDigit {c : Char} (h : c.isDigit = true) : isWordPart c = true := by
  have hrange : 0x30 ≤ c.toNat ∧ c.toNat ≤ 0x39 := by
    simpa [Char.isDigit, Char.le_def, UInt32.le_iff_toNat_le] using h
  have hspacing : isSpacing c = false := by
    rw [Bool.eq_false_iff]
    intro hblank
    simp only [isSpacing, isWide, Bool.or_eq_true, Bool.and_eq_true,
      decide_eq_true_eq, beq_iff_eq] at hblank
    omega
  have hmark : c ∉ marks := by
    have hnone : ∀ d ∈ marks, d.isDigit = false := by decide
    intro hmem
    rw [hnone c hmem] at h
    cases h
  have hlow : 0x20 ≤ c.toNat := by omega
  simp [isWordPart, hspacing, hmark, hlow]

/-! ## Words -/

/-- A word: a first character, or an escaped one, and a tail. -/
inductive Word : Text → Prop
  | start {c : Char} {w : Text} (start : isWordStart c = true) (tail : WordTail w) : Word (c :: w)
  | code {code w : Text} (escaped : Code code) (tail : WordTail w) : Word ('\\' :: (code ++ w))

theorem Word.wordTail {w : Text} (h : Word w) : WordTail w := by
  cases h with
  | start start tail =>
    unfold isWordStart at start
    rw [Bool.and_eq_true] at start
    exact .part start.1 tail
  | code escaped tail => exact .code escaped tail

/-- **A word that goes on is a word.** -/
theorem Word.append {w v : Text} (h : Word w) (h' : WordTail v) : Word (w ++ v) := by
  cases h with
  | start start tail => exact .start start (tail.append h')
  | code escaped tail =>
    rw [List.cons_append, List.append_assoc]
    exact .code escaped (tail.append h')

theorem Word.ne_nil {w : Text} (h : Word w) : w ≠ [] := by
  cases h <;> exact List.cons_ne_nil _ _

/-- A backslash starts no word by itself. -/
theorem isWordStart_backslash : isWordStart '\\' = false := by
  decide

/-- **The words that are read are those that stand in front and do not go on.** -/
theorem word?_eq_some_iff {t : Text} {n : Nat} :
    word? t = some n ↔ ∃ w r, t = w ++ r ∧ Word w ∧ Halts r ∧ n = w.length := by
  constructor
  · intro h
    cases t with
    | nil => cases h
    | cons c t =>
      rw [word?] at h
      split at h
      · rename_i hstart
        obtain ⟨w, r, rfl, hrest, htail, hend⟩ := exists_of_wordRest t
        refine ⟨c :: w, r, rfl, .start hstart htail, hend, ?_⟩
        rw [← Option.some.inj h, hrest, List.length_cons, Nat.add_comm]
      · split at h
        · rename_i hslash
          obtain rfl : c = '\\' := by simpa using hslash
          -- a word may start with a character code, of which the backslash is only the first character
          obtain ⟨k, hcode, rfl⟩ := Option.map_eq_some_iff.mp h
          obtain ⟨code, s, rfl, hescaped, rfl⟩ := characterCode?_eq_some_iff.mp hcode
          obtain ⟨w, r, rfl, hrest, htail, hend⟩ := exists_of_wordRest s
          refine ⟨'\\' :: (code ++ w), r, by simp, .code hescaped htail, hend, ?_⟩
          rw [wordRest_skip, hrest, List.length_cons, List.length_append, Nat.add_comm]
        · cases h
  · rintro ⟨w, r, rfl, hword, hend, rfl⟩
    cases hword with
    | start start tail =>
      rw [List.cons_append, word?, if_pos start, tail.wordRest_append, wordRest_of_halts hend,
        List.length_cons, Nat.add_zero, Nat.add_comm]
    | @code code w escaped tail =>
      have hcode : characterCode? (code ++ w ++ r) = some code.length :=
        characterCode?_eq_some_iff.mpr ⟨code, w ++ r, List.append_assoc .., escaped, rfl⟩
      rw [List.cons_append, word?, isWordStart_backslash, if_neg Bool.false_ne_true, hcode]
      simp only [beq_self_eq_true, if_true, Option.map_some]
      rw [List.append_assoc, wordRest_skip, tail.wordRest_append, wordRest_of_halts hend,
        List.length_cons, List.length_append]
      congr 1
      omega

end DataBinding.Lexeme
