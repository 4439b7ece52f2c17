/-
# Texts in slots

The tokens of a text lie in slots: tokens that stay and references that are replaced.  Replacing the
stretches of references by names gives a text whose tokens are the renamed ones, except that an
operator spelled as a word is lost where a name comes to stand directly behind it.

* `Pieced`         : a text, its slots, and the text after replacement, one gap and one slot at a time.
* `Pieced.alike`   : up to the first replaced reference nothing changes.
* `Fused`          : the renamed tokens, with the operators that were lost in names.
* `Relexed`        : the text after replacement has such tokens; one lemma for each kind of slot.
* `Pieced.lexed`   : the tokens after replacement; none is lost exactly if no reference stands behind
  a word.
-/
import DataBinding.Proofs.Expression.Stretches

namespace DataBinding.Expression

open Lexeme (Alike Word Halts Comment isSpacing isWide isWordPart isWordStart isQuiet)

/-! ## Texts with replaced references -/

section Pieced

variable (kept : Reference → Bool) (name : Text → Text)

/-- What stands in the place of a reference with the given text. -/
def replacement (r : Reference) (u : Text) : Text :=
  if kept r then name r.path else u

/-- A text whose first byte has the given position, its slots, and the text after replacement. -/
inductive Pieced : Nat → Expecting → Bool → Text → List Slot → Text → Prop
  | done {position : Nat} {now : Expecting} {wide wide' : Bool} {g : Text}
      (gap : Gap wide g [] wide') : Pieced position now wide g [] g
  | keep {position start stop : Nat} {now : Expecting} {wide wide' : Bool} {g w t s : Text}
      {shape : Shape} {slots : List Slot} (gap : Gap wide g (w ++ t) wide')
      (head : Heads now wide' w t shape) (fits : Slot.admits now shape = true)
      (hstart : start = position + Text.byteLength g) (hstop : stop = start + Text.byteLength w)
      (rest : Pieced stop (now.next shape) true t slots s) :
      Pieced position now wide (g ++ (w ++ t)) (.keep ⟨shape, ⟨start, stop⟩⟩ :: slots)
        (g ++ (w ++ s))
  | swap {position start stop : Nat} {wide wide' : Bool} {g u t s : Text} {written : List Token}
      {r : Reference} {slots : List Slot} (gap : Gap wide g (u ++ t) wide')
      (stretch : Stretch start .operand wide' u t written) (writes : Writes written r)
      (hstart : start = position + Text.byteLength g) (hstop : stop = start + Text.byteLength u)
      (rest : Pieced stop .operator true t slots s) :
      Pieced position .operand wide (g ++ (u ++ t)) (.swap written r :: slots)
        (g ++ (replacement kept name r u ++ s))

end Pieced

variable {kept : Reference → Bool} {name : Text → Text} {position : Nat} {now : Expecting}
  {wide : Bool} {t s : Text} {slots : List Slot}

/-- A text can be taken apart into the slots of its tokens. -/
theorem exists_pieced (kept : Reference → Bool) (name : Text → Text) {final : Expecting}
    (h : Lexed position now wide t (slots.flatMap Slot.tokens)) (hleads : Leads now slots final) :
    ∃ s, Pieced kept name position now wide t slots s := by
  induction slots generalizing position now wide t with
  | nil =>
    cases h with
    | done gap => exact ⟨_, .done gap⟩
  | cons slot slots ih =>
    cases hleads with
    | cons fits rest =>
      cases slot with
      | keep token =>
        rw [List.flatMap_cons, Slot.tokens_keep, List.singleton_append] at h
        cases h with
        | token gap head hstart hstop hrest =>
          obtain ⟨s, hs⟩ := ih hrest rest
          exact ⟨_, .keep gap head fits hstart hstop hs⟩
      | swap written r =>
        obtain ⟨rfl, writes⟩ := fits
        obtain ⟨token, others, hfirst, -⟩ := writes.first
        obtain ⟨g, u, t', start, wide', rfl, gap, hstart, stretch, hrest⟩ :=
          h.cut (by rw [Slot.tokens, hfirst]; exact List.cons_ne_nil _ _)
        rw [Slot.tokens, writes.foldl_next] at hrest
        obtain ⟨s, hs⟩ := ih hrest rest
        exact ⟨_, .swap gap stretch writes hstart rfl hs⟩

/-- No reference starts before the text. -/
theorem Pieced.start_le (h : Pieced kept name position now wide t slots s) :
    ∀ r ∈ slots.filterMap Slot.reference?, position ≤ r.span.start := by
  induction h with
  | done => simp
  | keep _ _ _ hstart hstop _ ih =>
    intro r hr
    have := ih r hr
    omega
  | swap _ stretch writes hstart hstop _ ih =>
    intro r hr
    rcases List.mem_cons.mp hr with rfl | hr
    · rw [(stretch.span writes).1, hstart]
      exact Nat.le_add_right _ _
    · have := ih r hr
      omega

/-! ## Heads of texts -/

/-- A blank continues no number. -/
theorem isQuiet_of_isSpacing {c : Char} (h : isSpacing c = true) : isQuiet c = true := by
  -- the characters that continue a number lie between the blanks of ASCII and the others
  have hrange : ∀ d : Char, isQuiet d = false → 0x30 ≤ d.toNat ∧ d.toNat ≤ 0x78 := by
    intro d hd
    simp only [isQuiet, Bool.not_eq_false', Bool.or_eq_true, Lexeme.isHexDigit, Char.isDigit,
      Bool.and_eq_true, decide_eq_true_eq, List.contains_iff_mem] at hd
    rcases hd with ((hd | hd) | hd) | hd
    · exact ⟨hd.1, hd.2.trans (by decide)⟩
    · exact ⟨(show (0x30 : Nat) ≤ 0x61 by decide).trans hd.1,
        (show d.toNat ≤ 0x66 from hd.2).trans (by decide)⟩
    · exact ⟨(show (0x30 : Nat) ≤ 0x41 by decide).trans hd.1,
        (show d.toNat ≤ 0x46 from hd.2).trans (by decide)⟩
    · revert d
      decide
  cases hquiet : isQuiet c with
  | true => rfl
  | false =>
    have := hrange c hquiet
    simp only [isSpacing, isWide, Bool.or_eq_true, Bool.and_eq_true, decide_eq_true_eq,
      beq_iff_eq] at h
    omega

/-- A gap that is not empty starts with a blank or a slash. -/
theorem Gap.head {wide wide' : Bool} {c : Char} {g t : Text} (h : Gap wide (c :: g) t wide') :
    isSpacing c = true ∨ c = '/' := by
  generalize hg : c :: g = g' at h
  cases h with
  | nil => cases hg
  | blank blank _ =>
    obtain ⟨rfl, rfl⟩ := List.cons.inj hg
    exact .inl blank
  | comment comment _ _ =>
    obtain ⟨u, rfl, -⟩ := comment.head?
    exact .inr (List.cons.inj hg).1

/-- An empty gap changes nothing. -/
theorem Gap.wide_eq {wide wide' : Bool} {t : Text} (h : Gap wide [] t wide') : wide' = wide := by
  generalize hg : [] = g at h
  cases h with
  | nil => rfl
  | blank => cases hg
  | comment comment _ _ =>
    obtain ⟨u, rfl, -⟩ := comment.head?
    cases hg

/-- Only blanks and comments are passed over. -/
theorem Gap.eq_nil {wide wide' : Bool} {c : Char} {g w t : Text} (h : Gap wide g w wide')
    (hsplit : g ++ w = c :: t) (hblank : isSpacing c = false) (hslash : c ≠ '/') : g = [] := by
  cases g with
  | nil => rfl
  | cons d g =>
    obtain rfl : d = c := (List.cons.inj hsplit).1
    obtain hd | hd := h.head
    · rw [hblank] at hd
      cases hd
    · exact absurd hd hslash

/-- A token that starts with a character of no remark, number or quotation is a word or a mark. -/
theorem Heads.word_or_mark {c : Char} {v : Text} {shape : Shape}
    (h : Heads now wide (c :: v) t shape) (hc : c = '/' ∨ c = '*' ∨ c = '\\') :
    Lexeme.word? (c :: v ++ t) = some (c :: v).length ∨
      ∃ m, shape = .mark m ∧ (c :: v, some m) ∈ markTable := by
  obtain ⟨-, mark, u, hmark, hsplit, -⟩ | ⟨-, hliteral⟩ | ⟨-, hword, hhalts⟩ | hmark :=
    shapeAt?_cases h.read
  · exfalso
    rcases hmark with rfl | rfl <;> obtain ⟨rfl, -⟩ := List.cons.inj hsplit <;> revert hc <;> decide
  · exfalso
    rcases hliteral with hnumber | hquotation
    · have hnone : Lexeme.number? (c :: v ++ t) = none :=
        Lexeme.number?_eq_none_iff.mpr (by
          rcases hc with rfl | rfl | rfl <;> exact ⟨by decide, fun h => absurd h (by decide)⟩)
      rw [hnone] at hnumber
      cases hnumber
    · have hnone : Lexeme.quotation? (c :: v ++ t) = none := by
        rcases hc with rfl | rfl | rfl <;> rfl
      rw [hnone] at hquotation
      cases hquotation
  · exact .inl (Lexeme.word?_eq_some_iff.mpr ⟨_, _, rfl, hword, hhalts, rfl⟩)
  · exact .inr hmark

/-- Where an operand is expected stands no star. -/
theorem Pieced.star (h : Pieced kept name position .operand wide ('*' :: t) slots s) : False := by
  generalize hnow : Expecting.operand = now at h
  generalize ht : '*' :: t = t' at h
  cases h with
  | done gap =>
    have := gap.eq_nil ((List.append_nil _).trans ht.symm) (by decide) (by decide)
    rw [this] at ht
    cases ht
  | keep gap head fits =>
    obtain rfl := gap.eq_nil ht.symm (by decide) (by decide)
    obtain ⟨c, v, rfl⟩ := List.exists_cons_of_ne_nil head.ne_nil
    obtain rfl : '*' = c := (List.cons.inj ht).1
    obtain hword | ⟨m, rfl, hmem⟩ := head.word_or_mark (.inr (.inl rfl))
    · cases hword
    · rw [← hnow, star_of_mem_markTable _ hmem rfl m rfl] at fits
      cases fits
  | swap gap stretch writes =>
    obtain rfl := gap.eq_nil ht.symm (by decide) (by decide)
    obtain ⟨c, v, rfl, hc, -⟩ := stretch.starts writes
    obtain rfl : '*' = c := (List.cons.inj ht).1
    cases hc

/-- Behind an operand the texts go on alike, with a quiet character. -/
theorem Pieced.quiet (h : Pieced kept name position .operator wide t slots s) :
    t = s ∨ ∃ c a b, isQuiet c = true ∧ t = c :: a ∧ s = c :: b := by
  have hgap : ∀ {wide wide' : Bool} {c : Char} {g t : Text}, Gap wide (c :: g) t wide' →
      isQuiet c = true := by
    intro wide wide' c g t hgap
    obtain hc | rfl := hgap.head
    · exact isQuiet_of_isSpacing hc
    · decide
  generalize hnow : Expecting.operator = now at h
  cases h with
  | done => exact .inl rfl
  | @keep _ _ _ _ _ _ g w _ _ shape _ gap head fits =>
    refine .inr ?_
    cases g with
    | cons c g => exact ⟨c, _, _, hgap gap, rfl, rfl⟩
    | nil =>
      obtain ⟨c, v, rfl⟩ := List.exists_cons_of_ne_nil head.ne_nil
      refine ⟨c, _, _, ?_, rfl, rfl⟩
      subst hnow
      obtain ⟨rfl, -⟩ | ⟨rfl, -⟩ | ⟨rfl, -⟩ | ⟨m, rfl, hmem⟩ := shapeAt?_cases head.read
      · cases fits
      · cases fits
      · obtain hself | ⟨-, -, -, hquiet⟩ := wordShape_cases .operator (c :: v)
        · rw [hself] at fits
          cases fits
        · exact hquiet rfl c rfl
      · exact (ends_of_mem_markTable _ hmem).1 c rfl
  | swap => cases hnow

/-- Where no reference is replaced at once, a word halts after replacement if it did before. -/
theorem Pieced.halts (h : Pieced kept name position now wide t slots s)
    (hbehind : ∀ r ∈ slots.filterMap Slot.reference?, position < r.span.start) (hhalts : Halts t) :
    Halts s := by
  -- only a backslash depends on what follows it
  have hsame : ∀ {c : Char} {a b : Text}, c ≠ '\\' → Halts (c :: a) → Halts (c :: b) :=
    fun hc h => ⟨h.1, fun hslash => absurd hslash hc⟩
  have hgap : ∀ {wide wide' : Bool} {c : Char} {g t : Text}, Gap wide (c :: g) t wide' →
      c ≠ '\\' := by
    rintro wide wide' c g t hgap rfl
    obtain hc | hc := hgap.head
    · revert hc
      decide
    · cases hc
  cases h with
  | done => exact hhalts
  | @keep _ _ _ _ _ _ g w _ _ _ _ gap head =>
    cases g with
    | cons c g => exact hsame (hgap gap) hhalts
    | nil =>
      obtain ⟨c, v, rfl⟩ := List.exists_cons_of_ne_nil head.ne_nil
      refine hsame ?_ hhalts
      rintro rfl
      obtain hword | ⟨m, -, hmem⟩ := head.word_or_mark (.inr (.inr rfl))
      · rw [List.nil_append] at hhalts
        rw [word?_of_halts hhalts] at hword
        cases hword
      · exact (head_of_mem_markTable _ hmem '\\' rfl).2.2.1 rfl
  | @swap _ _ _ _ _ g u _ _ _ r _ gap stretch writes hstart =>
    cases g with
    | cons c g => exact hsame (hgap gap) hhalts
    | nil =>
      have := hbehind r (List.mem_cons_self ..)
      rw [(stretch.span writes).1, hstart] at this
      exact absurd this (Nat.lt_irrefl _)

/-! ## Names in the place of references -/

/-- The name that is given to the path of a reference can stand in its place: a word that is no
reserved one, `await` only if it was, and with an underscore if the path has a dot. -/
structure Suits (name : Text → Text) (r : Reference) : Prop where
  word : Word (name r.path)
  free : Lexeme.isReserved (name r.path) = false
  await : name r.path = awaitName → r.path = awaitName
  long : '.' ∈ r.path → '_' ∈ name r.path

/-- Every reference is replaced. -/
def always : Reference → Bool :=
  fun _ => true

/-- Up to the first replaced reference the texts are alike. -/
theorem Pieced.alike (h : Pieced always name position now wide t slots s)
    (hname : ∀ r ∈ slots.filterMap Slot.reference?, Suits name r) : Alike t s := by
  induction h with
  | @done _ _ _ _ g _ =>
    rw [← List.append_nil g]
    exact Alike.nil.append g
  | keep _ _ _ _ _ _ ih => exact ((ih hname).append _).append _
  | swap _ stretch writes _ _ _ _ =>
    obtain ⟨c, v, rfl, hc, -⟩ := stretch.starts writes
    obtain ⟨c', v', hnamed, hc', -⟩ := startsOperand_of_word (hname _ (List.mem_cons_self ..)).word
    rw [replacement, always, if_pos rfl, hnamed]
    exact (Alike.swap hc hc').append _

/-- A token stays one when the text behind it changes from the next reference on. -/
theorem Heads.alike {w t t' : Text} {shape : Shape} (h : Heads now wide w t shape)
    (halike : Alike t t') (hblock : ∀ r, w ++ t ≠ '/' :: '*' :: r)
    (hword : Word w → Halts t → Halts t')
    (hnumber : shape = .literal w → t = t' ∨ ∃ c a b, isQuiet c = true ∧ t = c :: a ∧ t' = c :: b) :
    Heads now wide w t' shape where
  tight := h.tight
  plain := by
    -- the marks of comments hold no character that starts an operand
    have hstarts : ∀ lead : Text, (∀ c ∈ lead, Lexeme.startsOperand c = false) →
        (w ++ t').startsWith lead = (w ++ t).startsWith lead :=
      fun lead hlead => ((halike.append w).startsWith_eq hlead).symm
    cases hcomment : Lexeme.comment? (w ++ t') with
    | none => rfl
    | some n =>
      exfalso
      obtain ⟨v, r, hsplit, hstands, -⟩ := Lexeme.comment?_eq_some_iff.mp hcomment
      cases hstands with
      | @line v =>
        have hline := hstarts ['/', '/'] (by decide)
        rw [Text.startsWith_iff.mpr ⟨v ++ r, hsplit.symm⟩] at hline
        obtain ⟨x, hx⟩ := Text.startsWith_iff.mp hline.symm
        have hplain := h.plain
        rw [← hx] at hplain
        cases hplain
      | @block v =>
        have hline := hstarts ['/', '*'] (by decide)
        rw [Text.startsWith_iff.mpr ⟨v ++ r, hsplit.symm⟩] at hline
        obtain ⟨x, hx⟩ := Text.startsWith_iff.mp hline.symm
        exact hblock x hx.symm
  read := by
    refine shapeAt?_alike h.read halike hword fun hread => hnumber ?_
    have hremark : Lexeme.markupRemark? (w ++ t) = none := by
      cases hremark : Lexeme.markupRemark? (w ++ t) with
      | none => rfl
      | some n =>
        obtain ⟨v, r, hsplit, ⟨mark, u, hmark, rfl, -⟩, -⟩ :=
          Lexeme.markupRemark?_eq_some_iff.mp hremark
        rw [hsplit] at hread
        rcases hmark with rfl | rfl <;>
        · have hnone := (Lexeme.number?_eq_none_iff.mpr
            ⟨by decide, fun h => absurd h (by decide)⟩).symm.trans hread
          cases hnone
    have hshape := h.read
    simp only [shapeAt?, hremark, ite_self, hread, List.take_left] at hshape
    exact (Prod.mk.inj (Option.some.inj hshape)).1.symm

/-! ## References behind words -/

/-- No character of a word stands directly before a byte of a text. -/
def Clear (position : Nat) (t : Text) (start : Nat) : Prop :=
  ∀ u c v, t = u ++ c :: v → position + Text.byteLength (u ++ [c]) = start → isWordPart c = false

namespace Clear

variable {w : Text} {start stop : Nat}

/-- Nothing of the text stands before its first byte. -/
theorem atStart : Clear position t position := by
  intro u c v _ hstart
  have := Text.byteLength_pos (List.append_ne_nil_of_right_ne_nil u (List.cons_ne_nil c []))
  omega

/-- What stands before a byte inside the rest of a text belongs to the rest. -/
theorem behind (hstop : stop = position + Text.byteLength w) (hlt : stop < start) :
    Clear position (w ++ t) start ↔ Clear stop t start := by
  constructor
  · rintro h u c v rfl hstart
    refine h (w ++ u) c v (List.append_assoc ..).symm ?_
    rw [List.append_assoc, Text.byteLength_append]
    omega
  · intro h u c v hsplit hstart
    rw [List.append_cons] at hsplit
    obtain ⟨a, ha, rfl⟩ | ⟨a, rfl, -⟩ := List.append_eq_append_iff.mp hsplit
    · cases List.eq_nil_or_concat a with
      | inl hnil =>
        rw [hnil, List.append_nil] at ha
        rw [ha] at hstart
        omega
      | inr hlast =>
        obtain ⟨a, d, rfl⟩ := hlast
        rw [List.concat_eq_append, ← List.append_assoc] at ha
        obtain ⟨rfl, hd⟩ := List.append_inj' ha rfl
        obtain rfl := List.cons.inj hd |>.1
        refine h a c v (by simp) ?_
        rw [List.append_assoc, Text.byteLength_append] at hstart
        omega
    · rw [Text.byteLength_append] at hstop
      omega

/-- What stands before the byte behind a stretch is its last character. -/
theorem atEnd (hstop : stop = position + Text.byteLength w) :
    Clear position (w ++ t) stop ↔ ∀ c ∈ w.getLast?, isWordPart c = false := by
  constructor
  · intro h c hc
    obtain ⟨u, rfl⟩ := List.getLast?_eq_some_iff.mp hc
    exact h u c t (by simp) hstop.symm
  · intro h u c v hsplit hstart
    rw [List.append_cons] at hsplit
    -- stretches of one text with as many bytes are equal
    have hnil : ∀ a b : Text, Text.byteLength (b ++ a) = Text.byteLength b → a = [] := by
      intro a b hlength
      by_contra ha
      have := Text.byteLength_pos ha
      rw [Text.byteLength_append] at hlength
      omega
    have hw : w = u ++ [c] := by
      obtain ⟨a, ha, -⟩ | ⟨a, ha, -⟩ := List.append_eq_append_iff.mp hsplit
      · rw [ha, hnil a w (by rw [← ha]; omega), List.append_nil]
      · rw [ha, hnil a (u ++ [c]) (by rw [← ha]; omega), List.append_nil]
    exact h c (by simp [hw])

/-- What stands before a byte behind a stretch belongs to what follows the stretch, unless it is its
last character. -/
theorem append_iff (hstop : stop = position + Text.byteLength w) (hle : stop ≤ start)
    (hlast : stop = start → ∀ c ∈ w.getLast?, isWordPart c = false) :
    Clear position (w ++ t) start ↔ Clear stop t start := by
  rcases Nat.eq_or_lt_of_le hle with rfl | hlt
  · exact ⟨fun _ => atStart, fun _ => (atEnd hstop).mpr (hlast rfl)⟩
  · exact behind hstop hlt

end Clear

/-- A gap in front of an operand does not end in a word. -/
theorem Gap.last {wide wide' : Bool} {g : Text} {c : Char} {u : Text}
    (h : Gap wide g (c :: u) wide') (hc : isSpacing c = false) :
    ∀ d ∈ g.getLast?, isWordPart d = false := by
  generalize ht : c :: u = t at h
  induction h with
  | nil => simp
  | @blank _ _ d g _ blank _ ih =>
    cases g with
    | nil =>
      intro e he
      obtain rfl := Option.some.inj he
      simp [isWordPart, blank]
    | cons e g =>
      rw [List.getLast?_cons_cons]
      exact ih ht
  | @comment _ _ w g _ comment _ _ ih =>
    cases g with
    | cons e g =>
      rw [List.getLast?_append_of_ne_nil _ (List.cons_ne_nil _ _)]
      exact ih ht
    | nil =>
      rw [List.append_nil]
      cases comment with
      | @line w _ _ ends =>
        have hline := Lexeme.isSpacing_of_endsLine (ends c (by rw [← ht]; rfl))
        rw [hc] at hline
        cases hline
      | @block w _ ends =>
        intro d hd
        cases w with
        | nil => cases ends
        | cons e w =>
          rw [List.getLast?_cons_cons, List.getLast?_cons_cons,
            Lexeme.getLast?_of_blockEnd? ends] at hd
          obtain rfl := Option.some.inj hd
          decide

/-! ## The tokens after replacement -/

/-- The tokens after replacement.  A kept operator that is directly in front of a replaced reference
may be lost: the two are then one word.  The number counts the lost operators. -/
inductive Fused (name : Text → Text) : Nat → List Slot → List Token → Prop
  | nil : Fused name 0 [] []
  | keep {n : Nat} {token : Token} {s : Span} {slots : List Slot} {w : List Token}
      (rest : Fused name n slots w) : Fused name n (.keep token :: slots) (⟨token.shape, s⟩ :: w)
  | swap {n : Nat} {written : List Token} {r : Reference} {s : Span} {slots : List Slot}
      {w : List Token} (writes : Writes written r) (suits : Suits name r)
      (rest : Fused name n slots w) :
      Fused name n (.swap written r :: slots) (⟨.word (name r.path), s⟩ :: w)
  | fuse {n : Nat} {token : Token} {written : List Token} {r : Reference} {x : Text} {s : Span}
      {slots : List Slot} {w : List Token} (operator : token.shape.isWordOperator = true)
      (writes : Writes written r) (rest : Fused name n slots w) :
      Fused name (n + 1) (.keep token :: .swap written r :: slots) (⟨.word x, s⟩ :: w)

/-- Where no operator is lost the tokens are the renamed ones. -/
theorem Fused.renamed {w : List Token} (h : Fused name 0 slots w) : Renamed name slots w := by
  generalize hn : 0 = n at h
  induction h with
  | nil => exact .nil
  | keep _ ih => exact .keep (ih hn)
  | swap _ suits _ ih => exact .swap suits.free suits.await (ih hn)
  | fuse => cases hn

/-- The operators after replacement are those before it without the lost ones. -/
theorem Fused.wordOperatorsIn {n : Nat} {w : List Token} (h : Fused name n slots w) :
    wordOperatorsIn w + n = wordOperatorsIn (slots.flatMap Slot.tokens) := by
  induction h with
  | nil => rfl
  | keep _ ih =>
    rw [List.flatMap_cons, Slot.tokens_keep, List.singleton_append, wordOperatorsIn_cons,
      wordOperatorsIn_cons, Nat.add_assoc, ih]
  | swap writes _ _ ih =>
    rw [List.flatMap_cons, wordOperatorsIn_append, Slot.tokens, writes.wordOperatorsIn,
      wordOperatorsIn_cons, Nat.add_assoc, ih]
    rfl
  | fuse operator writes _ ih =>
    rw [List.flatMap_cons, List.flatMap_cons, wordOperatorsIn_append, wordOperatorsIn_append,
      Slot.tokens_keep, Slot.tokens, writes.wordOperatorsIn, wordOperatorsIn_cons,
      wordOperatorsIn_cons, wordOperatorsIn_nil, operator, ← ih]
    simp only [Shape.isWordOperator, Bool.toNat_false, Bool.toNat_true]
    omega

/-- The first reference stands behind the start of the text, or the text starts with it. -/
theorem Pieced.front (h : Pieced kept name position now wide t slots s) :
    (∀ r ∈ slots.filterMap Slot.reference?, position < r.span.start) ∨
      now = .operand ∧ ∃ u t' s' written r slots', t = u ++ t' ∧
        s = replacement kept name r u ++ s' ∧ slots = .swap written r :: slots' ∧
        Stretch position .operand wide u t' written ∧ Writes written r ∧
        Pieced kept name (position + Text.byteLength u) .operator true t' slots' s' := by
  have hbehind : ∀ {stop : Nat} {now : Expecting} {t s : Text} {slots : List Slot},
      Pieced kept name stop now true t slots s → position < stop →
      ∀ r ∈ slots.filterMap Slot.reference?, position < r.span.start :=
    fun rest hlt r hr => Nat.lt_of_lt_of_le hlt (rest.start_le r hr)
  cases h with
  | done => exact .inl (by simp)
  | @keep _ start stop _ _ _ g w _ _ _ _ gap head _ hstart hstop rest =>
    have hlt : position < stop := by
      have := Text.byteLength_pos head.ne_nil
      omega
    exact .inl fun r hr => hbehind rest hlt r hr
  | @swap _ start stop _ _ g u _ _ _ r _ gap stretch writes hstart hstop rest =>
    obtain ⟨hspan, -⟩ := stretch.span writes
    -- without a gap the reference stands at the start itself
    cases g with
    | nil =>
      subst hstop
      obtain rfl : start = position := hstart
      obtain rfl := gap.wide_eq
      exact .inr ⟨rfl, u, _, _, _, r, _, rfl, rfl, rfl, stretch, writes, rest⟩
    | cons c g =>
      have hlt : position < start := by
        have := Text.byteLength_pos (List.cons_ne_nil c g)
        omega
      refine .inl fun r' hr' => ?_
      rcases List.mem_cons.mp hr' with rfl | hr'
      · rw [hspan]
        exact hlt
      · exact hbehind rest (hlt.trans_le (hstop ▸ Nat.le_add_right _ _)) r' hr'

/-- Behind an operand stands no reference. -/
theorem Pieced.start_lt (h : Pieced kept name position .operator wide t slots s) :
    ∀ r ∈ slots.filterMap Slot.reference?, position < r.span.start := by
  obtain hbehind | ⟨hnow, -⟩ := h.front
  · exact hbehind
  · cases hnow

/-- A token that stays and the text behind it do not look like a comment. -/
theorem Pieced.no_block {w : Text} {shape : Shape} {stop : Nat} {wide' : Bool}
    (head : Heads now wide' w t shape)
    (rest : Pieced kept name stop (now.next shape) true t slots s) :
    ∀ r, w ++ t ≠ '/' :: '*' :: r := by
  intro r hr
  obtain ⟨c, v, rfl⟩ := List.exists_cons_of_ne_nil head.ne_nil
  obtain rfl : c = '/' := (List.cons.inj hr).1
  obtain hword | ⟨m, rfl, hmem⟩ := head.word_or_mark (.inl rfl)
  · cases hword
  · obtain hnone | hdivide := slash_of_mem_markTable _ hmem rfl
    · cases hnone
    · obtain ⟨hv, hm⟩ := Prod.mk.inj hdivide
      obtain rfl : v = [] := (List.cons.inj hv).2
      obtain rfl := Option.some.inj hm
      obtain rfl : t = '*' :: r := (List.cons.inj hr).2
      exact rest.star

/-- A mark is no word. -/
theorem not_word_of_mem_markTable {w : Text} {m : Option Mark} (h : (w, m) ∈ markTable) :
    ¬ Word w := by
  intro hword
  obtain ⟨c, u, rfl, hc, hparen⟩ := startsOperand_of_word hword
  obtain ⟨-, hstart, hslash, -⟩ := head_of_mem_markTable _ h c rfl
  simp [Lexeme.startsOperand, hstart, hslash, hparen] at hc

/-- The tokens after replacement are the renamed ones with some operators lost.  None is lost exactly
if no replaced reference stands directly behind a character of a word. -/
def Relexed (name : Text → Text) (q position : Nat) (now : Expecting) (wide : Bool) (t s : Text)
    (slots : List Slot) : Prop :=
  ∃ n w, Lexed q now wide s w ∧ Fused name n slots w ∧
    (n = 0 ↔ ∀ r ∈ slots.filterMap Slot.reference?, Clear position t r.span.start)

namespace Relexed

variable {q start stop : Nat} {wide' : Bool} {g u w : Text} {shape : Shape} {written : List Token}
  {r : Reference}

/-- A name in the place of a reference is one token. -/
theorem swap (gap : Gap wide g (u ++ t) wide')
    (stretch : Stretch start .operand wide' u t written) (writes : Writes written r)
    (hstart : start = position + Text.byteLength g) (hstop : stop = start + Text.byteLength u)
    (rest : Pieced always name stop .operator true t slots s)
    (hname : ∀ r' ∈ r :: slots.filterMap Slot.reference?, Suits name r')
    (h : Relexed name (q + Text.byteLength g + Text.byteLength (name r.path)) stop .operator true t s
      slots) :
    Relexed name q position .operand wide (g ++ (u ++ t)) (g ++ (name r.path ++ s))
      (.swap written r :: slots) := by
  obtain ⟨n, w, hlexed, hfused, hiff⟩ := h
  have hsuits := hname r (List.mem_cons_self ..)
  obtain ⟨hspan, hhalts⟩ := stretch.span writes
  have hheads : Heads .operand wide' (name r.path) s (.word (name r.path)) := by
    rw [← wordShape_of_free hsuits.free]
    exact heads_of_word hsuits.word (rest.halts rest.start_lt hhalts)
  have halike := (Pieced.swap .nil stretch writes rfl hstop rest).alike hname
  obtain ⟨c, v, rfl, hc, -⟩ := stretch.starts writes
  refine ⟨n, _, .token (gap.alike halike) hheads rfl rfl hlexed, hfused.swap writes hsuits, ?_⟩
  have hfirst : Clear position (g ++ (c :: v ++ t)) r.span.start := by
    rw [hspan, Clear.atEnd hstart]
    exact gap.last (Lexeme.isSpacing_of_startsOperand hc)
  have hrest : ∀ r' ∈ slots.filterMap Slot.reference?,
      (Clear position (g ++ (c :: v ++ t)) r'.span.start ↔ Clear stop t r'.span.start) := by
    intro r' hr'
    rw [← List.append_assoc]
    refine Clear.behind ?_ (rest.start_lt r' hr')
    rw [Text.byteLength_append, hstop, hstart, Nat.add_assoc]
  rw [hiff, show (Slot.swap written r :: slots).filterMap Slot.reference? =
    r :: slots.filterMap Slot.reference? from rfl, List.forall_mem_cons]
  exact ⟨fun h => ⟨hfirst, fun r' hr' => (hrest r' hr').mpr (h r' hr')⟩,
    fun h r' hr' => (hrest r' hr').mp (h.2 r' hr')⟩

/-- A token that is read alike is not lost. -/
theorem keep (gap : Gap wide g (w ++ s) wide') (head : Heads now wide' w s shape)
    (hstart : start = position + Text.byteLength g) (hstop : stop = start + Text.byteLength w)
    (hle : ∀ r ∈ slots.filterMap Slot.reference?, stop ≤ r.span.start)
    (hlast : ∀ r ∈ slots.filterMap Slot.reference?, stop = r.span.start →
      ∀ c ∈ w.getLast?, isWordPart c = false)
    (h : Relexed name (q + Text.byteLength g + Text.byteLength w) stop (now.next shape) true t s
      slots) :
    Relexed name q position now wide (g ++ (w ++ t)) (g ++ (w ++ s))
      (.keep ⟨shape, start, stop⟩ :: slots) := by
  obtain ⟨n, tokens, hlexed, hfused, hiff⟩ := h
  have hmiddle : stop = position + Text.byteLength (g ++ w) := by
    rw [Text.byteLength_append, hstop, hstart, Nat.add_assoc]
  refine ⟨n, _, .token gap head rfl rfl hlexed, hfused.keep, hiff.trans ?_⟩
  refine forall₂_congr fun r hr => ?_
  rw [← List.append_assoc]
  refine (Clear.append_iff hmiddle (hle r hr) fun heq => ?_).symm
  rw [List.getLast?_append_of_ne_nil _ head.ne_nil]
  exact hlast r hr heq

/-- An operator spelled as a word, directly in front of a name with an underscore, becomes one word
with it. -/
theorem fuse (gap : Gap wide g (w ++ (name r.path ++ s)) wide') (hword : Word w)
    (hmem : w ∈ operatorWords) (operator : shape.isWordOperator = true)
    (hnow : now.next shape = .operand) (hstart : start = position + Text.byteLength g)
    (hstop : stop = start + Text.byteLength w) (hspan : r.span.start = stop)
    (writes : Writes written r) (suits : Suits name r) (hlong : '_' ∈ name r.path) (hhalts : Halts s)
    (h : Relexed name (q + Text.byteLength g + Text.byteLength w) stop (now.next shape) true (u ++ t)
      (name r.path ++ s) (.swap written r :: slots)) :
    Relexed name q position now wide (g ++ (w ++ (u ++ t))) (g ++ (w ++ (name r.path ++ s)))
      (.keep ⟨shape, start, stop⟩ :: .swap written r :: slots) := by
  obtain ⟨n, tokens, hlexed, hfused, -⟩ := h
  -- the one word is no operator, for it has an underscore
  have hshape : wordShape now (w ++ name r.path) = .word (w ++ name r.path) := by
    obtain hself | ⟨-, hoperator, -⟩ := wordShape_cases now (w ++ name r.path)
    · exact hself
    · exact absurd (List.mem_append_right w hlong) (letters_of_mem_operatorWords _ hoperator).1
  have hwhole : Heads now wide' (w ++ name r.path) s (.word (w ++ name r.path)) := by
    rw [← hshape]
    exact heads_of_word (hword.append suits.word.wordTail) hhalts
  have hnamed : Heads .operand true (name r.path) s (.word (name r.path)) := by
    rw [← wordShape_of_free suits.free]
    exact heads_of_word suits.word hhalts
  rw [hnow] at hlexed
  obtain ⟨others, rfl, hbehind⟩ := Lexed.behind hnamed hlexed
  have hlexed' : Lexed q now wide (g ++ ((w ++ name r.path) ++ s))
      (⟨.word (w ++ name r.path), q + Text.byteLength g,
        q + Text.byteLength g + Text.byteLength (w ++ name r.path)⟩ :: others) := by
    refine .token ?_ hwhole rfl rfl ?_
    · rwa [List.append_assoc w]
    · rw [Text.byteLength_append, ← Nat.add_assoc]
      exact hbehind
  rw [List.append_assoc w] at hlexed'
  refine ⟨n + 1, _, hlexed', ?_, fun h => absurd h (Nat.succ_ne_zero n), fun hclear => ?_⟩
  · cases hfused with
    | swap _ _ rest => exact .fuse operator writes rest
  · have hmiddle : stop = position + Text.byteLength (g ++ w) := by
      rw [Text.byteLength_append, hstop, hstart, Nat.add_assoc]
    have hfirst := hclear r (List.mem_cons_self ..)
    rw [hspan, ← List.append_assoc, Clear.atEnd hmiddle,
      List.getLast?_append_of_ne_nil _ hword.ne_nil] at hfirst
    obtain ⟨d, hd⟩ := Option.isSome_iff_exists.mp (List.getLast?_isSome.mpr hword.ne_nil)
    have hpart := (letters_of_mem_operatorWords _ hmem).2 d hd
    rw [hfirst d hd] at hpart
    cases hpart

end Relexed

/-- **The tokens after replacement.**  No operator is lost exactly if no replaced reference stands
directly behind a character of a word. -/
theorem Pieced.lexed (h : Pieced always name position now wide t slots s)
    (hname : ∀ r ∈ slots.filterMap Slot.reference?, Suits name r) (q : Nat) :
    Relexed name q position now wide t s slots := by
  induction h generalizing q with
  | done gap => exact ⟨0, [], .done gap, .nil, by simp⟩
  | swap gap stretch writes hstart hstop rest ih =>
    have hothers := fun r' hr' => hname r' (List.mem_cons_of_mem _ hr')
    exact .swap gap stretch writes hstart hstop rest hname (ih hothers _)
  | @keep position start stop now wide wide' g w t s shape slots gap head fits hstart hstop rest ih =>
    have halike : Alike t s := rest.alike hname
    have hgap := gap.alike (halike.append w)
    obtain hbehind | ⟨hnow, u, t', s', written, r, slots', rfl, rfl, rfl, stretch, writes, rest'⟩ :=
      rest.front
    · have head' : Heads now wide' w s shape := by
        refine head.alike halike (rest.no_block head) (fun _ => rest.halts hbehind) ?_
        rintro rfl
        exact rest.quiet
      exact .keep hgap head' hstart hstop rest.start_le
        (fun r hr heq => absurd heq (Nat.ne_of_lt (hbehind r hr))) (ih hname _)
    · obtain ⟨hspan, hhalts⟩ := stretch.span writes
      obtain ⟨c, v, rfl, hc, hstarts⟩ := stretch.starts writes
      -- a reference follows an operator: a word, with which its name becomes one, or a mark
      obtain ⟨rfl, -, -, -, -, -, hline⟩ | ⟨rfl, -⟩ | ⟨hshape, hword, hhalts'⟩ | ⟨m, rfl, hmem⟩ :=
        shapeAt?_cases head.read
      · -- a line set aside ends at a line end
        have hblank := Lexeme.isSpacing_of_endsLine (c := c)
          (by rw [Lexeme.endsLine, hline c rfl, Bool.true_or])
        rw [Lexeme.startsOperand_of_isSpacing hblank] at hc
        cases hc
      · cases hnow
      · obtain hself | ⟨-, hoperator, hcounts, -⟩ := wordShape_cases now w
        · rw [hshape, hself] at hnow
          cases hnow
        · obtain ⟨-, hdot⟩ := hstarts.resolve_right (not_not.mpr (word?_of_halts hhalts'))
          have hsuits := hname r (List.mem_cons_self ..)
          exact .fuse hgap hword hoperator (hshape ▸ hcounts) hnow hstart hstop
            (congrArg Span.start hspan) writes hsuits (hsuits.long hdot)
            (rest'.halts rest'.start_lt hhalts) (ih hname _)
      · have head' := head.alike halike (rest.no_block head)
          (fun hword => absurd hword (not_word_of_mem_markTable hmem)) (fun h => by cases h)
        exact .keep hgap head' hstart hstop rest.start_le
          (fun _ _ _ => (ends_of_mem_markTable _ hmem).2) (ih hname _)

end DataBinding.Expression
