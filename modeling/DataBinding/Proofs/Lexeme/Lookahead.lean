/-
# How far readers look

A reader of a comment or a quotation sees what it reads and little of what follows.  Texts that agree
up to a place where a name or a parenthesis stands are therefore read alike up to there.

* `Alike`                     : texts that agree up to a place where an operand starts.
* `comment?_eq_some_iff`      : the comments that are read, with what may follow them.
* `markupRemark?_eq_some_iff` : the lines that are set aside, with what may follow them.
* `quotation?_local`          : a quotation does not depend on what follows it.
-/
import DataBinding.Lexeme.Quotation
import DataBinding.Proofs.Binding.Scanning
import DataBinding.Proofs.Lexeme.Words

namespace DataBinding.Lexeme

/-! ## Texts that agree up to an operand -/

/-- A name or an operand in parentheses starts with the character. -/
def startsOperand (c : Char) : Bool :=
  c == '(' || c == '\\' || isWordStart c

/-- Texts that agree up to a place where operands start in both. -/
inductive Alike : Text → Text → Prop
  | nil : Alike [] []
  | cons {t t' : Text} (c : Char) (rest : Alike t t') : Alike (c :: t) (c :: t')
  | swap {c c' : Char} {t t' : Text} (left : startsOperand c = true)
      (right : startsOperand c' = true) : Alike (c :: t) (c' :: t')

theorem Alike.append {t t' : Text} (w : Text) (h : Alike t t') : Alike (w ++ t) (w ++ t') := by
  induction w with
  | nil => exact h
  | cons c w ih => exact .cons c ih

/-- A blank starts no operand. -/
theorem startsOperand_of_isSpacing {c : Char} (h : isSpacing c = true) : startsOperand c = false := by
  have hpart : isWordPart c = false := by simp [isWordPart, h]
  have hparen : c ≠ '(' := by
    rintro rfl
    revert h
    decide
  have hslash : c ≠ '\\' := by
    rintro rfl
    revert h
    decide
  simp [startsOperand, isWordStart, hpart, hparen, hslash]

/-- A digit starts no operand but a number. -/
theorem startsOperand_of_isDigit {c : Char} (h : c.isDigit = true) : startsOperand c = false := by
  have hparen : c ≠ '(' := by
    rintro rfl
    revert h
    decide
  have hslash : c ≠ '\\' := by
    rintro rfl
    revert h
    decide
  simp [startsOperand, isWordStart, h, hparen, hslash]

theorem isSpacing_of_startsOperand {c : Char} (h : startsOperand c = true) : isSpacing c = false := by
  rw [Bool.eq_false_iff]
  intro hblank
  rw [startsOperand_of_isSpacing hblank] at h
  cases h

theorem isDigit_of_startsOperand {c : Char} (h : startsOperand c = true) : c.isDigit = false := by
  rw [Bool.eq_false_iff]
  intro hdigit
  rw [startsOperand_of_isDigit hdigit] at h
  cases h

/-- Texts that agree up to an operand start alike with a text in which no operand starts. -/
theorem Alike.startsWith_eq {t t' lead : Text} (h : Alike t t')
    (hlead : ∀ c ∈ lead, startsOperand c = false) : t.startsWith lead = t'.startsWith lead := by
  induction lead generalizing t t' with
  | nil => rfl
  | cons l lead ih =>
    rw [List.forall_mem_cons] at hlead
    have hne : ∀ c, startsOperand c = true → (l == c) = false := by
      intro c hc
      rw [beq_eq_false_iff_ne]
      rintro rfl
      rw [hlead.1] at hc
      cases hc
    unfold Text.startsWith
    cases h with
    | nil => rfl
    | cons c rest =>
      simp only [Text.dropLead?]
      split
      · exact ih rest hlead.2
      · rfl
    | swap left right =>
      simp [Text.dropLead?, hne _ left, hne _ right]

/-! ## Comments -/

/-- The character ends a line comment. -/
def endsLine (c : Char) : Bool :=
  isLineEnd c || c == '\r'

theorem isSpacing_of_endsLine {c : Char} (h : endsLine c = true) : isSpacing c = true := by
  simp only [endsLine, isLineEnd, Bool.or_eq_true, beq_iff_eq] at h
  rcases h with ((rfl | rfl) | rfl) | rfl <;> decide

/-- A text that is a comment in front of another one. -/
inductive Comment : Text → Text → Prop
  | line {w r : Text} (inside : ∀ c ∈ w, endsLine c = false)
      (ends : ∀ c ∈ r.head?, endsLine c = true) : Comment ('/' :: '/' :: w) r
  | block {w r : Text} (ends : blockEnd? w = some w.length) : Comment ('/' :: '*' :: w) r

/-- The end of a block comment stands where it was found. -/
theorem blockEnd?_append {t : Text} {n : Nat} (h : blockEnd? t = some n) :
    n ≤ t.length ∧ ∀ r, blockEnd? (t.take n ++ r) = some n := by
  fun_induction blockEnd? t generalizing n with
  | case1 => cases h
  | case2 t =>
    obtain rfl := Option.some.inj h
    exact ⟨by simp, fun r => rfl⟩
  | case3 c t hne ih =>
    obtain ⟨k, hk, rfl⟩ := Option.map_eq_some_iff.mp h
    obtain ⟨hle, hall⟩ := ih hk
    refine ⟨Nat.succ_le_succ hle, fun r => ?_⟩
    rw [List.take_succ_cons, List.cons_append, blockEnd?, hall r]
    · rfl
    · intro s hc hs
      subst hc
      cases k with
      | zero =>
        have := hall []
        simp [blockEnd?] at this
      | succ k =>
        cases t with
        | nil => simp at hle
        | cons d t =>
          rw [List.take_succ_cons, List.cons_append, List.cons.injEq] at hs
          exact hne t rfl (by rw [hs.1])

/-- A block comment ends with a slash. -/
theorem getLast?_of_blockEnd? {w : Text} (h : blockEnd? w = some w.length) :
    w.getLast? = some '/' := by
  fun_induction blockEnd? w with
  | case1 => cases h
  | case2 t =>
    obtain rfl : t = [] := by simpa using h
    rfl
  | case3 c t _ ih =>
    obtain ⟨n, hn, hlength⟩ := Option.map_eq_some_iff.mp h
    rw [List.getLast?_cons, ih (by rw [hn, Nat.succ.inj hlength])]
    rfl

/-- A line comment goes up to the end of its line. -/
theorem lineLength_append {w r : Text} (inside : ∀ c ∈ w, endsLine c = false)
    (ends : ∀ c ∈ r.head?, endsLine c = true) : lineLength (w ++ r) = w.length :=
  congrArg List.length (Text.takeWhile_append_until (p := endsLine) inside ends)

/-- **The comments that are read are those that stand in front.** -/
theorem comment?_eq_some_iff {t : Text} {n : Nat} :
    comment? t = some n ↔ ∃ w r, t = w ++ r ∧ Comment w r ∧ n = w.length := by
  constructor
  · intro h
    unfold comment? at h
    split at h
    · rename_i t
      obtain rfl := Option.some.inj h
      obtain ⟨w, r, rfl, inside, ends⟩ := Text.exists_run_until endsLine t
      refine ⟨'/' :: '/' :: w, r, rfl, .line inside ends, ?_⟩
      rw [lineLength_append inside ends, List.length_cons, List.length_cons]
      omega
    · rename_i t
      obtain ⟨k, hk, rfl⟩ := Option.map_eq_some_iff.mp h
      obtain ⟨hle, hall⟩ := blockEnd?_append hk
      refine ⟨'/' :: '*' :: t.take k, t.drop k, by simp, .block ?_, ?_⟩
      · rw [List.length_take_of_le hle, ← List.append_nil (t.take k)]
        exact hall []
      · simp [hle]
    · cases h
  · rintro ⟨w, r, rfl, hcomment, rfl⟩
    cases hcomment with
    | @line w _ inside ends =>
      simp only [List.cons_append, comment?, lineLength_append inside ends, List.length_cons]
      congr 1
      omega
    | @block w _ ends =>
      obtain ⟨-, hall⟩ := blockEnd?_append ends
      have hr := hall r
      rw [List.take_length] at hr
      simp [comment?, hr]

/-- A comment is one in front of each text that agrees with what follows it. -/
theorem Comment.alike {w t t' : Text} (h : Comment w t) (halike : Alike t t') : Comment w t' := by
  cases h with
  | block ends => exact .block ends
  | line inside ends =>
    refine .line inside ?_
    cases halike with
    | nil => exact ends
    | cons c rest => exact ends
    | swap left right =>
      have hblank := isSpacing_of_endsLine (ends _ rfl)
      rw [startsOperand_of_isSpacing hblank] at left
      cases left

/-- What is shorter than a beginning is a beginning of it. -/
theorem exists_of_append_eq {w t u r : Text} (h : w ++ t = u ++ r) (hlt : u.length < w.length) :
    ∃ c v, w = u ++ c :: v ∧ r = c :: (v ++ t) := by
  rcases List.append_eq_append_iff.mp h with ⟨v, rfl, -⟩ | ⟨v, rfl, rfl⟩
  · rw [List.length_append] at hlt
    omega
  · cases v with
    | nil => simp at hlt
    | cons c v => exact ⟨c, v, rfl, rfl⟩

/-- A comment inside a longer text does not depend on what follows that. -/
theorem comment?_local {w t : Text} {n : Nat} (h : comment? (w ++ t) = some n) (hn : n < w.length)
    (t' : Text) : comment? (w ++ t') = some n := by
  obtain ⟨u, r, hsplit, hcomment, rfl⟩ := comment?_eq_some_iff.mp h
  obtain ⟨c, v, rfl, rfl⟩ := exists_of_append_eq hsplit hn
  rw [List.append_assoc]
  refine comment?_eq_some_iff.mpr ⟨u, _, rfl, ?_, rfl⟩
  cases hcomment with
  | line inside ends => exact .line inside ends
  | block ends => exact .block ends

/-- A comment starts with a slash. -/
theorem Comment.head? {w t : Text} (h : Comment w t) : ∃ u, w = '/' :: u ∧ u ≠ [] := by
  cases h <;> exact ⟨_, rfl, List.cons_ne_nil _ _⟩

/-! ## Lines set aside -/

/-- A line that is set aside in front of a text. -/
def SetAside (w r : Text) : Prop :=
  ∃ mark u, (mark = "<!--".toList ∨ mark = "-->".toList) ∧ w = mark ++ u ∧
    (∀ c ∈ u, isLineEnd c = false) ∧ ∀ c ∈ r.head?, isLineEnd c = true

/-- **The lines that are set aside are those that stand in front.** -/
theorem markupRemark?_eq_some_iff {t : Text} {n : Nat} :
    markupRemark? t = some n ↔ ∃ w r, t = w ++ r ∧ SetAside w r ∧ n = w.length := by
  constructor
  · intro h
    unfold markupRemark? at h
    split at h
    · rename_i t
      obtain rfl := Option.some.inj h
      obtain ⟨u, r, rfl, inside, ends⟩ := Text.exists_run_until isLineEnd t
      rw [Text.takeWhile_append_until inside ends]
      exact ⟨"<!--".toList ++ u, r, by simp, ⟨_, u, .inl rfl, rfl, inside, ends⟩,
        by rw [List.length_append]; rfl⟩
    · rename_i t
      obtain rfl := Option.some.inj h
      obtain ⟨u, r, rfl, inside, ends⟩ := Text.exists_run_until isLineEnd t
      rw [Text.takeWhile_append_until inside ends]
      exact ⟨"-->".toList ++ u, r, by simp, ⟨_, u, .inr rfl, rfl, inside, ends⟩,
        by rw [List.length_append]; rfl⟩
    · cases h
  · rintro ⟨w, r, rfl, ⟨mark, u, hmark, rfl, inside, ends⟩, rfl⟩
    have htake : (u ++ r).takeWhile (!isLineEnd ·) = u := Text.takeWhile_append_until inside ends
    rw [List.append_assoc, List.length_append]
    rcases hmark with rfl | rfl <;> exact congrArg (fun u => some (_ + List.length u)) htake

/-- A line is set aside in front of each text that agrees with what follows it. -/
theorem SetAside.alike {w t t' : Text} (h : SetAside w t) (halike : Alike t t') : SetAside w t' := by
  obtain ⟨mark, u, hmark, rfl, inside, ends⟩ := h
  refine ⟨mark, u, hmark, rfl, inside, ?_⟩
  cases halike with
  | nil => exact ends
  | cons c rest => exact ends
  | swap left right =>
    have hblank : isSpacing _ = true :=
      isSpacing_of_endsLine (by rw [endsLine, ends _ rfl, Bool.true_or])
    rw [startsOperand_of_isSpacing hblank] at left
    cases left

/-- Whether a line is set aside is told by its mark. -/
theorem markupRemark?_eq_none_iff {t : Text} :
    markupRemark? t = none ↔
      t.startsWith "<!--".toList = false ∧ t.startsWith "-->".toList = false := by
  have hmark : ∀ mark : Text, t.startsWith mark = false ↔ ¬ ∃ r, t = mark ++ r := by
    intro mark
    rw [← Bool.not_eq_true, Text.startsWith_iff, List.IsPrefix]
    simp only [eq_comm]
  rw [hmark, hmark]
  constructor
  · intro h
    constructor <;>
    · rintro ⟨r, rfl⟩
      cases h
  · rintro ⟨hopen, hclose⟩
    unfold markupRemark?
    split
    · exact absurd ⟨_, rfl⟩ hopen
    · exact absurd ⟨_, rfl⟩ hclose
    · rfl

/-! ## Quotations -/

/-- An escape that is no hexadecimal one. -/
theorem escape?_of_ne {c : Char} (hx : c ≠ 'x') (u : Text) :
    escape? (c :: u) =
      if c == 'u' then characterCode? (c :: u)
      else if c == 'x' then none
      else if (c == '\r' || c == '?') && (u.head?.map isLineEnd).getD false then some 2
      else some 1 := by
  unfold escape?
  split
  · rename_i heq
    exact absurd (List.cons.inj heq).1 hx
  · rename_i heq
    obtain ⟨rfl, rfl⟩ := List.cons.inj heq
    rfl
  · rename_i heq
    cases heq

/-- The digits of a hexadecimal escape lie inside a longer text if the escape does. -/
theorem escape?_x_local {w t : Text} {n : Nat} (h : escape? ('x' :: (w ++ t)) = some n)
    (hn : n ≤ w.length) (t' : Text) : escape? ('x' :: (w ++ t')) = some n := by
  cases w with
  | nil =>
    obtain rfl : n = 0 := Nat.le_zero.mp hn
    rcases t with _ | ⟨a, _ | ⟨b, t⟩⟩ <;> simp [escape?] at h
  | cons a w =>
    cases w with
    | nil =>
      cases t with
      | nil => simp [escape?] at h
      | cons b t =>
        simp only [List.cons_append, List.nil_append, escape?] at h
        split at h
        · obtain rfl := Option.some.inj h
          simp at hn
        · cases h
    | cons b w => simpa [escape?] using h

/-- An escape inside a longer text does not depend on what follows that. -/
theorem escape?_local {w t : Text} {n : Nat} (h : escape? (w ++ t) = some n) (hn : n < w.length)
    (t' : Text) : escape? (w ++ t') = some n := by
  cases w with
  | nil => cases hn
  | cons c w =>
    rw [List.cons_append] at h ⊢
    by_cases hx : c = 'x'
    · subst hx
      exact escape?_x_local h (Nat.le_of_lt_succ hn) t'
    · rw [escape?_of_ne hx] at h ⊢
      split at h
      · rename_i hu
        rw [if_pos hu]
        obtain ⟨code, r, hsplit, hcode, rfl⟩ := characterCode?_eq_some_iff.mp h
        rw [← List.cons_append] at hsplit ⊢
        obtain ⟨d, v, hw, -⟩ := exists_of_append_eq hsplit hn
        rw [hw]
        exact characterCode?_eq_some_iff.mpr ⟨code, _, List.append_assoc .., hcode, rfl⟩
      · rename_i hu
        rw [if_neg hu]
        -- two characters decide on a continued line, and both lie inside
        cases w with
        | nil =>
          split at h
          · cases h
          · split at h <;>
            · obtain rfl := Option.some.inj h
              simp at hn
        | cons d w => exact h

/-- One step through a quotation: it ends, or it goes on behind the character, with the rest of an
escape or of a comment to be skipped.  What lies behind the skipped characters has no part in that. -/
theorem quotationRest_step {quote c : Char} {live : Bool} {t : Text} {n : Nat}
    (h : quotationRest quote 0 live (c :: t) = some n) :
    (n = 1 ∧ ∀ t', quotationRest quote 0 live (c :: t') = some 1) ∨
      ∃ skip live' k, quotationRest quote skip live' t = some k ∧ n = k + 1 ∧
        ∀ w r, t = w ++ r → skip < w.length → ∀ t',
          quotationRest quote 0 live (c :: (w ++ t')) =
            (quotationRest quote skip live' (w ++ t')).map (· + 1) := by
  by_cases hquote : (c == quote) = true
  · have hend : ∀ t', quotationRest quote 0 live (c :: t') = some 1 := by
      intro t'
      cases live <;> rw [quotationRest, if_pos hquote]
    exact .inl ⟨Option.some.inj (h.symm.trans (hend t)), hend⟩
  -- the step reads the character alone, or an escape or a comment with it
  refine .inr ?_
  cases live with
  | true =>
    rw [quotationRest, if_neg hquote] at h
    by_cases hslash : (c == '\\') = true
    · rw [if_pos hslash] at h
      split at h
      · rename_i skip hescape
        obtain ⟨k, hk, rfl⟩ := Option.map_eq_some_iff.mp h
        refine ⟨skip, true, k, hk, rfl, ?_⟩
        rintro w r rfl hskip t'
        rw [quotationRest, if_neg hquote, if_pos hslash, escape?_local hescape hskip t']
      · cases h
    · rw [if_neg hslash] at h
      obtain ⟨k, hk, rfl⟩ := Option.map_eq_some_iff.mp h
      refine ⟨0, _, k, hk, rfl, fun w r _ _ t' => ?_⟩
      rw [quotationRest, if_neg hquote, if_neg hslash]
  | false =>
    rw [quotationRest, if_neg hquote] at h
    by_cases hblank : isSpacing c = true
    · rw [if_pos hblank] at h
      obtain ⟨k, hk, rfl⟩ := Option.map_eq_some_iff.mp h
      refine ⟨0, false, k, hk, rfl, fun w r _ _ t' => ?_⟩
      rw [quotationRest, if_neg hquote, if_pos hblank]
    · rw [if_neg hblank] at h
      split at h
      · rename_i skip hcomment
        obtain ⟨k, hk, rfl⟩ := Option.map_eq_some_iff.mp h
        refine ⟨skip - 1, true, k, hk, rfl, ?_⟩
        rintro w r rfl hskip t'
        have hinside : skip < (c :: w).length := by
          rw [List.length_cons]
          omega
        rw [← List.cons_append] at hcomment ⊢
        rw [List.cons_append, quotationRest, if_neg hquote, if_neg hblank, ← List.cons_append,
          comment?_local hcomment hinside t']
      · cases h

/-- What is skipped in a quotation lies before its end. -/
theorem lt_of_quotationRest {quote : Char} {skip : Nat} {live : Bool} {t : Text} {n : Nat}
    (h : quotationRest quote skip live t = some n) : skip < n ∧ n ≤ t.length := by
  induction t generalizing skip live n with
  | nil => cases skip <;> cases live <;> cases h
  | cons c t ih =>
    rw [List.length_cons]
    cases skip with
    | succ skip =>
      obtain ⟨k, hk, rfl⟩ := Option.map_eq_some_iff.mp h
      have := ih hk
      omega
    | zero =>
      obtain ⟨rfl, -⟩ | ⟨skip, live', k, hk, rfl, -⟩ := quotationRest_step h
      · omega
      · have := ih hk
        omega

/-- The rest of a quotation does not depend on what follows it. -/
theorem quotationRest_local {quote : Char} {skip : Nat} {live : Bool} {w t : Text}
    (h : quotationRest quote skip live (w ++ t) = some w.length) (t' : Text) :
    quotationRest quote skip live (w ++ t') = some w.length := by
  induction w generalizing skip live with
  | nil =>
    have := lt_of_quotationRest h
    simp at this
  | cons c w ih =>
    rw [List.cons_append] at h ⊢
    cases skip with
    | succ skip =>
      obtain ⟨k, hk, hlength⟩ := Option.map_eq_some_iff.mp h
      obtain rfl : k = w.length := Nat.succ.inj hlength
      rw [quotationRest, ih hk]
      rfl
    | zero =>
      obtain ⟨hlength, hend⟩ | ⟨skip, live', k, hk, hlength, hstep⟩ := quotationRest_step h
      · rw [hlength]
        exact hend _
      · obtain rfl : k = w.length := (Nat.succ.inj hlength).symm
        rw [hstep w t rfl (lt_of_quotationRest hk).1 t', ih hk]
        rfl

/-- **A quotation does not depend on what follows it.** -/
theorem quotation?_local {w t : Text} (h : quotation? (w ++ t) = some w.length) (t' : Text) :
    quotation? (w ++ t') = some w.length := by
  cases w with
  | nil =>
    cases t with
    | nil => cases h
    | cons c t =>
      rw [List.nil_append, quotation?] at h
      split at h
      · obtain ⟨k, -, hk⟩ := Option.map_eq_some_iff.mp h
        cases hk
      · cases h
  | cons c w =>
    rw [List.cons_append, quotation?] at h ⊢
    split at h
    · rename_i hquote
      obtain ⟨k, hk, hlength⟩ := Option.map_eq_some_iff.mp h
      obtain rfl : k = w.length := Nat.succ.inj hlength
      rw [if_pos hquote, quotationRest_local hk t']
      rfl
    · cases h

theorem le_of_quotation? {t : Text} {n : Nat} (h : quotation? t = some n) :
    0 < n ∧ n ≤ t.length := by
  cases t with
  | nil => cases h
  | cons c t =>
    rw [quotation?] at h
    split at h
    · obtain ⟨k, hk, rfl⟩ := Option.map_eq_some_iff.mp h
      have := lt_of_quotationRest hk
      rw [List.length_cons]
      omega
    · cases h

end DataBinding.Lexeme
