/-
# The text of a reference

Some tokens in a row are written with a stretch of the text.  The stretch of a reference starts with
a word or a parenthesis, ends in a word, and has the span of the reference.

* `heads_of_word`  : a word that halts is read as a token.
* `Stretch`        : the text that some tokens are written with.
* `Lexed.cut`      : tokens in front of others are written with a stretch.
* `Stretch.span`   : a reference has the span of its stretch.
-/
import DataBinding.Proofs.Expression.Lexing
import DataBinding.Proofs.Expression.Renaming

namespace DataBinding.Expression

open Lexeme (Alike Word Halts Comment isSpacing isWide isWordPart isWordStart isQuiet)

/-! ## Marks and words -/

/-- The words that are operators. -/
def operatorWords : List Text :=
  ["typeof", "void", "delete", "in", "instanceof"].map String.toList

/-- What may stand before an operand starts with a quiet character and does not end in a word. -/
theorem ends_of_mem_markTable : ∀ entry ∈ markTable,
    (∀ c ∈ entry.1.head?, isQuiet c = true) ∧ ∀ c ∈ entry.1.getLast?, isWordPart c = false := by
  decide

/-- The only mark with a meaning that starts like a comment is the one of division. -/
theorem slash_of_mem_markTable : ∀ entry ∈ markTable, entry.1.head? = some '/' →
    entry.2 = none ∨ entry = (['/'], some (.binary .divide)) := by
  decide

/-- No mark that starts with a star stands where an operand is expected. -/
theorem star_of_mem_markTable : ∀ entry ∈ markTable, entry.1.head? = some '*' →
    ∀ m, entry.2 = some m → Slot.admits .operand (.mark m) = false := by
  decide

/-- An opening parenthesis is spelled in one way. -/
theorem openParen_of_mem_markTable : ∀ entry ∈ markTable,
    entry.2 = some .openParen → entry.1 = ['('] := by
  decide

/-- Operators are spelled with letters. -/
theorem letters_of_mem_operatorWords : ∀ x ∈ operatorWords,
    '_' ∉ x ∧ ∀ c ∈ x.getLast?, isWordPart c = true := by
  decide

/-- The operators in front of an operand that are spelled as words. -/
theorem unaryWord?_eq_some {x : Text} {op : UnaryOperator} (h : unaryWord? x = some op) :
    op ∈ [UnaryOperator.typeof, .void, .delete] ∧ x = op.symbol.toList :=
  ⟨List.mem_of_find?_eq_some h, Eq.symm (by simpa using List.find?_some h)⟩

/-- The operators between operands that are spelled as words. -/
theorem binaryWord?_eq_some {x : Text} {op : BinaryOperator} (h : binaryWord? x = some op) :
    op ∈ [BinaryOperator.instanceOf, .inside] ∧ x = op.symbol.toList :=
  ⟨List.mem_of_find?_eq_some h, Eq.symm (by simpa using List.find?_some h)⟩

/-- A word is an operator or stands for itself. -/
theorem wordShape_cases (now : Expecting) (x : Text) :
    wordShape now x = .word x ∨ (∃ m, wordShape now x = .mark m) ∧ x ∈ operatorWords ∧
      (wordShape now x).isWordOperator = true ∧
      (now = .operator → ∀ c ∈ x.head?, isQuiet c = true) := by
  cases now with
  | name => exact .inl rfl
  | operand =>
    cases hword : unaryWord? x with
    | none => exact .inl (by simp [wordShape, hword])
    | some op =>
      obtain ⟨hmem, rfl⟩ := unaryWord?_eq_some hword
      have hall : ∀ op ∈ [UnaryOperator.typeof, .void, .delete],
          op.symbol.toList ∈ operatorWords ∧ (Shape.mark (.unary op)).isWordOperator = true := by
        decide
      have hshape : wordShape .operand op.symbol.toList = .mark (.unary op) := by
        simp [wordShape, hword]
      exact .inr ⟨⟨_, hshape⟩, (hall op hmem).1, by rw [hshape]; exact (hall op hmem).2,
        fun h => by cases h⟩
  | operator =>
    cases hword : binaryWord? x with
    | none => exact .inl (by simp [wordShape, hword])
    | some op =>
      obtain ⟨hmem, rfl⟩ := binaryWord?_eq_some hword
      have hall : ∀ op ∈ [BinaryOperator.instanceOf, .inside],
          op.symbol.toList ∈ operatorWords ∧ (Shape.mark (.binary op)).isWordOperator = true ∧
            ∀ c ∈ op.symbol.toList.head?, isQuiet c = true := by
        decide
      have hshape : wordShape .operator op.symbol.toList = .mark (.binary op) := by
        simp [wordShape, hword]
      exact .inr ⟨⟨_, hshape⟩, (hall op hmem).1, by rw [hshape]; exact (hall op hmem).2.1,
        fun _ => (hall op hmem).2.2⟩

/-- Where an operand is expected, only reserved words are operators. -/
theorem wordShape_of_free {x : Text} (h : Lexeme.isReserved x = false) :
    wordShape .operand x = .word x := by
  cases hword : unaryWord? x with
  | none => simp [wordShape, hword]
  | some op =>
    obtain ⟨hmem, rfl⟩ := unaryWord?_eq_some hword
    have hall : ∀ op ∈ [UnaryOperator.typeof, .void, .delete],
        Lexeme.isReserved op.symbol.toList = true := by
      decide
    rw [hall op hmem] at h
    cases h

/-- Words start an operand, and are none but words. -/
theorem startsOperand_of_word {x : Text} (h : Word x) :
    ∃ c u, x = c :: u ∧ Lexeme.startsOperand c = true ∧ c ≠ '(' := by
  cases h with
  | @start c w start _ =>
    refine ⟨c, w, rfl, by simp [Lexeme.startsOperand, start], ?_⟩
    rintro rfl
    revert start
    decide
  | code => exact ⟨_, _, rfl, by decide, by decide⟩

/-- **A word that halts is read as a token.** -/
theorem heads_of_word {now : Expecting} {wide : Bool} {x t : Text} (hword : Word x)
    (hhalts : Halts t) : Heads now wide x t (wordShape now x) := by
  obtain ⟨c, u, rfl, hc, hparen⟩ := startsOperand_of_word hword
  -- no reader but that of words reads something from the first character on
  have hne : ∀ d : Char, Lexeme.startsOperand d = false → c ≠ d := by
    rintro d hd rfl
    rw [hc] at hd
    cases hd
  have hspacing := Lexeme.isSpacing_of_startsOperand hc
  have hdigit := Lexeme.isDigit_of_startsOperand hc
  have hremark : Lexeme.markupRemark? (c :: u ++ t) = none := by
    rw [List.cons_append, Lexeme.markupRemark?_eq_none_iff]
    have h1 := beq_eq_false_iff_ne.mpr (hne '<' (by decide)).symm
    have h2 := beq_eq_false_iff_ne.mpr (hne '-' (by decide)).symm
    constructor
    · show Text.startsWith _ ('<' :: "!--".toList) = false
      rw [startsWith_cons, h1, Bool.false_and]
    · show Text.startsWith _ ('-' :: "->".toList) = false
      rw [startsWith_cons, h2, Bool.false_and]
  have hnumber : Lexeme.number? (c :: u ++ t) = none :=
    Lexeme.number?_eq_none_iff.mpr ⟨hdigit, fun h => absurd h (hne '.' (by decide))⟩
  have hquotation : Lexeme.quotation? (c :: u ++ t) = none := by
    simp [Lexeme.quotation?, hne '"' (by decide), hne '\'' (by decide)]
  have hread : Lexeme.word? (c :: u ++ t) = some (c :: u).length :=
    Lexeme.word?_eq_some_iff.mpr ⟨_, _, rfl, hword, hhalts, rfl⟩
  refine ⟨fun d hd => ?_, ?_, ?_⟩
  · obtain rfl := Option.some.inj hd
    exact hspacing
  · cases hcomment : Lexeme.comment? (c :: u ++ t) with
    | none => rfl
    | some n =>
      obtain ⟨w, r, hsplit, hstands, -⟩ := Lexeme.comment?_eq_some_iff.mp hcomment
      obtain ⟨v, rfl, -⟩ := hstands.head?
      exact absurd (List.cons.inj hsplit).1 (hne '/' (by decide))
  · simp only [shapeAt?, hremark, hnumber, hquotation, hread, ite_self, List.take_left]

/-- In front of a text that halts stands no word. -/
theorem word?_of_halts {t : Text} (h : Halts t) : Lexeme.word? t = none := by
  cases t with
  | nil => rfl
  | cons c t =>
    obtain ⟨hpart, hcode⟩ := h
    have hstart : isWordStart c = false := by simp [isWordStart, hpart]
    rw [Lexeme.word?, hstart, if_neg Bool.false_ne_true]
    split
    · rename_i hslash
      rw [hcode (by simpa using hslash)]
      rfl
    · rfl

/-! ## Stretches -/

/-- The text that tokens are written with, from the first character of the first token to the last
character of the last one, in front of another text. -/
inductive Stretch : Nat → Expecting → Bool → Text → Text → List Token → Prop
  | last {position stop : Nat} {now : Expecting} {wide : Bool} {w t : Text} {shape : Shape}
      (head : Heads now wide w t shape) (hstop : stop = position + Text.byteLength w) :
      Stretch position now wide w t [⟨shape, ⟨position, stop⟩⟩]
  | more {position middle start : Nat} {now : Expecting} {wide wide' : Bool} {w g u t : Text}
      {shape : Shape} {tokens : List Token} (head : Heads now wide w (g ++ (u ++ t)) shape)
      (hmiddle : middle = position + Text.byteLength w) (gap : Gap true g (u ++ t) wide')
      (hstart : start = middle + Text.byteLength g)
      (rest : Stretch start (now.next shape) wide' u t tokens) :
      Stretch position now wide (w ++ (g ++ u)) t (⟨shape, ⟨position, middle⟩⟩ :: tokens)

/-- Some tokens in front of others are written with a stretch of the text. -/
theorem Lexed.cut {position : Nat} {now : Expecting} {wide : Bool} {t : Text}
    {tokens more : List Token} (h : Lexed position now wide t (tokens ++ more)) (hne : tokens ≠ []) :
    ∃ g u t' start wide', t = g ++ (u ++ t') ∧ Gap wide g (u ++ t') wide' ∧
      start = position + Text.byteLength g ∧ Stretch start now wide' u t' tokens ∧
      Lexed (start + Text.byteLength u)
        (tokens.foldl (fun now token => now.next token.shape) now) true t' more := by
  induction tokens generalizing position now wide t with
  | nil => exact absurd rfl hne
  | cons token tokens ih =>
    cases h with
    | token gap head hstart hstop rest =>
      cases tokens with
      | nil =>
        subst hstop
        exact ⟨_, _, _, _, _, rfl, gap, hstart, .last head rfl, rest⟩
      | cons token' tokens =>
        obtain ⟨g, u, t', start, wide', rfl, hgap, hstart', hstretch, hrest⟩ :=
          ih rest (List.cons_ne_nil _ _)
        refine ⟨_, _, t', _, _, ?_, ?_, hstart, .more head hstop hgap hstart' hstretch, ?_⟩
        · simp only [List.append_assoc]
        · simpa only [List.append_assoc] using gap
        · rw [Text.byteLength_append, Text.byteLength_append, ← Nat.add_assoc, ← Nat.add_assoc,
            ← hstop, ← hstart']
          exact hrest

/-- A word is read as itself or as an operator. -/
theorem Heads.word {now : Expecting} {wide : Bool} {w t x : Text}
    (h : Heads now wide w t (.word x)) : w = x ∧ Word x ∧ Halts t := by
  obtain ⟨hshape, -⟩ | ⟨hshape, -⟩ | ⟨hshape, hword, hhalts⟩ | ⟨m, hshape, -⟩ := shapeAt?_cases h.read
  · cases hshape
  · cases hshape
  · obtain hself | ⟨⟨m, hmark⟩, -⟩ := wordShape_cases now w
    · obtain rfl : x = w := Shape.word.inj (hshape.trans hself)
      exact ⟨rfl, hword, hhalts⟩
    · rw [hmark] at hshape
      cases hshape
  · cases hshape

/-- An opening parenthesis is read from itself. -/
theorem Heads.openParen {now : Expecting} {wide : Bool} {w t : Text}
    (h : Heads now wide w t (.mark .openParen)) : w = ['('] := by
  obtain ⟨hshape, -⟩ | ⟨hshape, -⟩ | ⟨hshape, -⟩ | ⟨m, hshape, hmem⟩ := shapeAt?_cases h.read
  · cases hshape
  · cases hshape
  · obtain hself | ⟨-, -, hoperator, -⟩ := wordShape_cases now w
    · rw [hself] at hshape
      cases hshape
    · rw [← hshape] at hoperator
      cases hoperator
  · obtain rfl := Shape.mark.inj hshape
    exact openParen_of_mem_markTable _ hmem rfl

/-- The words among the tokens of a text are words. -/
theorem Lexed.words {position : Nat} {now : Expecting} {wide : Bool} {t : Text}
    {tokens : List Token} (h : Lexed position now wide t tokens) :
    ∀ token ∈ tokens, ∀ x, token.shape = .word x → Word x := by
  induction h with
  | done => simp
  | @token _ _ _ _ _ _ _ _ _ shape _ _ head _ _ _ ih =>
    intro token htoken x hx
    rcases List.mem_cons.mp htoken with rfl | htoken
    · obtain rfl : shape = .word x := hx
      exact head.word.2.1
    · exact ih token htoken x hx

/-- The tokens of a text start one after the other. -/
theorem Lexed.ordered {position : Nat} {now : Expecting} {wide : Bool} {t : Text}
    {tokens : List Token} (h : Lexed position now wide t tokens) :
    Ordered tokens ∧ ∀ token ∈ tokens, position ≤ token.span.start := by
  induction h with
  | done => exact ⟨List.Pairwise.nil, by simp⟩
  | @token _ start stop _ _ _ _ w _ _ _ _ head hstart hstop _ ih =>
    have hpos := Text.byteLength_pos head.ne_nil
    refine ⟨List.pairwise_cons.mpr ⟨fun token htoken => ?_, ih.1⟩, fun token htoken => ?_⟩
    · have := ih.2 token htoken
      show start < token.span.start
      omega
    · rcases List.mem_cons.mp htoken with rfl | htoken
      · show _ ≤ start
        omega
      · have := ih.2 token htoken
        omega

namespace Stretch

variable {position : Nat} {now : Expecting} {wide : Bool} {u t : Text} {tokens : List Token}

/-- The first token starts where the stretch does. -/
theorem head (h : Stretch position now wide u t tokens) :
    ∃ token rest, tokens = token :: rest ∧ token.span.start = position ∧
      ∃ w v, u = w ++ v ∧ Heads now wide w (v ++ t) token.shape := by
  cases h with
  | last head hstop => exact ⟨_, _, rfl, rfl, _, [], (List.append_nil _).symm, head⟩
  | more head =>
    refine ⟨_, _, rfl, rfl, _, _, rfl, ?_⟩
    rwa [List.append_assoc]

/-- The last token stops where the stretch does. -/
theorem stop (h : Stretch position now wide u t tokens) : ∀ token ∈ tokens.getLast?,
    token.span.stop = position + Text.byteLength u ∧ ∀ x, token.shape = .word x → Halts t := by
  induction h with
  | last head hstop =>
    intro token htoken
    obtain rfl := Option.some.inj htoken
    refine ⟨hstop, ?_⟩
    rintro x rfl
    exact head.word.2.2
  | @more _ _ _ _ _ _ _ _ _ _ _ tokens _ hmiddle _ hstart rest ih =>
    intro token htoken
    obtain ⟨first, others, rfl, -⟩ := rest.head
    rw [List.getLast?_cons_cons] at htoken
    rw [Text.byteLength_append, Text.byteLength_append, ← Nat.add_assoc, ← Nat.add_assoc, ← hmiddle,
      ← hstart]
    exact ih token htoken

/-- A word alone is written as itself. -/
theorem eq_of_word {x : Text} {s : Span} (h : Stretch position now wide u t [⟨.word x, s⟩]) :
    u = x := by
  cases h with
  | last head => exact head.word.1
  | more _ _ _ _ rest =>
    obtain ⟨_, _, hnil, -⟩ := rest.head
    cases hnil

end Stretch

/-! ## How references are written -/

/-- The first token of an operand, which is a word or a parenthesis if the operand has a path. -/
def Begins : Phrase → List Token → Prop
  | .primary o, w => ∃ first rest, w = first :: rest ∧ o.span.start = first.span.start ∧
      ∀ path, o.expr.path? = some path →
        (∃ x, first.shape = .word x) ∨ first.shape = .mark .openParen
  | _, _ => True

/-- An operand starts at its first token. -/
theorem Reads.begins {phrase : Phrase} {w : List Token} (h : Reads phrase w) : Begins phrase w := by
  induction h with
  | word admitted =>
    refine ⟨_, _, rfl, ?_, fun _ _ => .inl ⟨_, rfl⟩⟩
    obtain ⟨-, rfl⟩ | ⟨-, rfl⟩ | ⟨-, rfl⟩ := wordOperand?_eq_some admitted <;> rfl
  | literal => exact ⟨_, _, rfl, rfl, fun _ hpath => by cases hpath⟩
  | parenthesized => exact ⟨_, _, rfl, rfl, fun _ _ => .inr rfl⟩
  | member _ _ ih =>
    obtain ⟨first, rest, rfl, hstart, hpath⟩ := ih
    refine ⟨first, _, rfl, hstart, fun path h => ?_⟩
    obtain ⟨head, hhead, -⟩ := Expr.path?_member h
    exact hpath head hhead
  | index _ _ _ _ ih =>
    obtain ⟨first, rest, rfl, hstart, -⟩ := ih
    exact ⟨first, _, rfl, hstart, fun _ hpath => by cases hpath⟩
  | call _ _ _ ih =>
    obtain ⟨first, rest, rfl, hstart, -⟩ := ih
    exact ⟨first, _, rfl, hstart, fun _ hpath => by cases hpath⟩
  | array => exact ⟨_, _, rfl, rfl, fun _ hpath => by cases hpath⟩
  | _ => trivial

namespace Writes

variable {written : List Token} {r : Reference}

/-- A reference starts with a word or a parenthesis. -/
theorem first (h : Writes written r) : ∃ token rest, written = token :: rest ∧
    r.span.start = token.span.start ∧
      ((∃ x, token.shape = .word x) ∨ token.shape = .mark .openParen) := by
  cases h with
  | name => exact ⟨_, _, rfl, rfl, .inl ⟨_, rfl⟩⟩
  | dotted front path =>
    obtain ⟨token, rest, rfl, hstart, hpath⟩ := front.begins
    exact ⟨token, _, rfl, hstart, hpath _ path⟩

/-- A reference ends in a word. -/
theorem last (h : Writes written r) :
    ∃ front x e, written = front ++ [⟨.word x, e⟩] ∧ r.span.stop = e.stop := by
  cases h with
  | name => exact ⟨[], _, _, rfl, rfl⟩
  | @dotted _ w remarks _ x s e =>
    exact ⟨w ++ (⟨.mark .dot, s⟩ :: remarks), x, e, by simp, rfl⟩

/-- A reference is a plain word or has a dot in its path. -/
theorem plain_or_dotted (h : Writes written r) :
    (written = [⟨.word r.path, r.span⟩] ∧ Lexeme.isReserved r.path = false) ∨ '.' ∈ r.path := by
  cases h with
  | name free => exact .inl ⟨rfl, free⟩
  | dotted => exact .inr (by simp)

/-- No operator spelled as a word stands in a reference. -/
theorem wordOperatorsIn (h : Writes written r) : wordOperatorsIn written = 0 := by
  cases h with
  | name => rfl
  | @dotted object _ _ _ _ _ _ front path set =>
    have hfront : object.expr.wordOperators = _ := front.wordOperators
    rw [wordOperatorsIn_append, ← hfront, Expr.wordOperators_of_path path, wordOperatorsIn_cons,
      wordOperatorsIn_append, set.wordOperatorsIn]
    rfl

end Writes

/-- The references in slots that may follow each other are written with the tokens there. -/
theorem Leads.writes {now final : Expecting} {slots : List Slot} (h : Leads now slots final) :
    ∀ r ∈ slots.filterMap Slot.reference?, ∃ written, .swap written r ∈ slots ∧ Writes written r := by
  induction h with
  | nil => simp
  | @cons _ _ slot slots fits _ ih =>
    intro r hr
    cases slot with
    | keep token =>
      obtain ⟨written, hmem, hwrites⟩ := ih r hr
      exact ⟨written, List.mem_cons_of_mem _ hmem, hwrites⟩
    | swap written r' =>
      rcases List.mem_cons.mp hr with rfl | hr
      · exact ⟨written, List.mem_cons_self .., fits.2⟩
      · obtain ⟨written', hmem, hwrites⟩ := ih r hr
        exact ⟨written', List.mem_cons_of_mem _ hmem, hwrites⟩

/-- Behind a reference an operator is expected. -/
theorem Writes.foldl_next {written : List Token} {r : Reference} (h : Writes written r)
    (now : Expecting) :
    written.foldl (fun now token => now.next token.shape) now = .operator := by
  obtain ⟨front, x, e, rfl, -⟩ := h.last
  rw [List.foldl_append]
  rfl

section Span

variable {position : Nat} {now : Expecting} {wide : Bool} {u t : Text} {written : List Token}
  {r : Reference}

/-- **A reference has the span of its stretch**, and its last word halts there. -/
theorem Stretch.span (h : Stretch position now wide u t written) (hwrites : Writes written r) :
    r.span = ⟨position, position + Text.byteLength u⟩ ∧ Halts t := by
  obtain ⟨token, rest, hfirst, hstart, -⟩ := hwrites.first
  obtain ⟨token', rest', hhead, hposition, -⟩ := h.head
  obtain ⟨front, x, e, hlast, hend⟩ := hwrites.last
  obtain ⟨rfl, -⟩ := List.cons.inj (hfirst.symm.trans hhead)
  obtain ⟨hstop, hhalts⟩ := h.stop ⟨.word x, e⟩ (by rw [hlast]; simp)
  obtain ⟨path, start, stop⟩ := r
  simp only at hstart hend
  rw [hstart, hposition, hend]
  exact ⟨by rw [hstop], hhalts x rfl⟩

/-- The text of a reference starts with a word, or with a parenthesis if its path has a dot. -/
theorem Stretch.starts (h : Stretch position now wide u t written) (hwrites : Writes written r) :
    ∃ c v, u = c :: v ∧ Lexeme.startsOperand c = true ∧
      (c = '(' ∧ '.' ∈ r.path ∨ Lexeme.word? (u ++ t) ≠ none) := by
  obtain ⟨token, rest, hfirst, -, hshape⟩ := hwrites.first
  obtain ⟨token', rest', hhead, -, w, v, rfl, hheads⟩ := h.head
  obtain ⟨rfl, -⟩ := List.cons.inj (hfirst.symm.trans hhead)
  obtain ⟨x, hx⟩ | hparen := hshape
  · rw [hx] at hheads
    obtain ⟨rfl, hword, hhalts⟩ := hheads.word
    obtain ⟨c, y, rfl, hc, -⟩ := startsOperand_of_word hword
    have hread : Lexeme.word? (c :: y ++ v ++ t) = some (c :: y).length :=
      Lexeme.word?_eq_some_iff.mpr ⟨_, v ++ t, List.append_assoc .., hword, hhalts, rfl⟩
    exact ⟨c, y ++ v, rfl, hc, .inr (by rw [hread]; exact Option.some_ne_none _)⟩
  · rw [hparen] at hheads
    obtain rfl := hheads.openParen
    refine ⟨'(', v, rfl, by decide, .inl ⟨rfl, ?_⟩⟩
    obtain ⟨hplain, -⟩ | hdotted := hwrites.plain_or_dotted
    · rw [(List.cons.inj (hfirst.symm.trans hplain)).1] at hparen
      cases hparen
    · exact hdotted

end Span

end DataBinding.Expression
