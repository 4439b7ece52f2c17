/-
# Tokens and the gaps between them

A text that is cut into tokens is a row of gaps and tokens.  Whether a stretch is a token depends on
what follows it only up to the next operand.

* `shapeAt?_alike` : a token is read alike in texts that agree up to an operand.
* `Gap`            : blanks and comments in front of a text.
* `Lexed`          : a text with its tokens, one gap and one token at a time.
* `tokensFrom_iff` : the tokens that are cut from a text are the ones it is lexed with.
-/
import Mathlib.Data.List.Find
import DataBinding.Expression.Token
import DataBinding.Proofs.Lexeme.Lookahead
import DataBinding.Proofs.Lexeme.Numbers
import DataBinding.Proofs.Text.Utf8

namespace DataBinding.Expression

open Lexeme (Alike Word Halts Comment SetAside isSpacing isWide isWordStart isQuiet)

/-! ## Marks -/

/-- A text that starts with a character and goes on. -/
theorem startsWith_cons (c l : Char) (t lead : Text) :
    Text.startsWith (c :: t) (l :: lead) = (l == c && Text.startsWith t lead) := by
  unfold Text.startsWith
  rw [Text.dropLead?]
  cases l == c <;> rfl

/-- No operand starts inside a mark. -/
theorem startsOperand_of_mem_markTable :
    ∀ entry ∈ markTable, ∀ c ∈ entry.1.tail, Lexeme.startsOperand c = false := by
  decide

/-- The first characters of marks are no blanks, start no word and no quotation. -/
theorem head_of_mem_markTable :
    ∀ entry ∈ markTable, ∀ c ∈ entry.1.head?,
      isSpacing c = false ∧ isWordStart c = false ∧ c ≠ '\\' ∧ c ≠ '"' ∧ c ≠ '\'' := by
  decide

/-- All marks have characters. -/
theorem ne_nil_of_mem_markTable : ∀ entry ∈ markTable, entry.1 ≠ [] := by
  decide

/-- A mark is looked up in the table, unless it may be that of an optional access. -/
theorem markAt?_eq_find? {c : Char} {t : Text} (h : ¬ ∃ d r, c = '?' ∧ t = '.' :: d :: r) :
    markAt? (c :: t) = (markTable.find? fun entry => Text.startsWith (c :: t) entry.1).bind
      fun entry => entry.2.map fun m => (m, entry.1.length) := by
  unfold markAt?
  split
  · rename_i heq
    obtain ⟨rfl, rfl⟩ := List.cons.inj heq
    exact absurd ⟨_, _, rfl, rfl⟩ h
  · cases markTable.find? fun entry => Text.startsWith (c :: t) entry.1 with
    | none => rfl
    | some entry =>
      obtain ⟨_, _ | _⟩ := entry <;> rfl

/-- A mark is read alike in texts that agree up to an operand behind its first character. -/
theorem markAt?_alike {t t' : Text} (h : Alike t t') (c : Char) :
    markAt? (c :: t) = markAt? (c :: t') := by
  have hfind : (markTable.find? fun entry => Text.startsWith (c :: t) entry.1) =
      markTable.find? fun entry => Text.startsWith (c :: t') entry.1 := by
    refine List.find?_congr fun entry hentry => ?_
    have htail := startsOperand_of_mem_markTable entry hentry
    cases hspelling : entry.1 with
    | nil => rfl
    | cons l lead =>
      rw [hspelling, List.tail_cons] at htail
      rw [startsWith_cons, startsWith_cons, h.startsWith_eq htail]
  -- an optional access is told from a conditional by the character behind its mark
  by_cases hchain : ∃ d s, c = '?' ∧ t = '.' :: d :: s
  · obtain ⟨d, s, rfl, rfl⟩ := hchain
    cases h with
    | cons _ rest =>
      cases rest with
      | cons _ rest => rfl
      | swap left right =>
        simp [markAt?, Lexeme.isDigit_of_startsOperand left, Lexeme.isDigit_of_startsOperand right]
    | swap left => exact absurd left (by decide)
  · have hchain' : ¬ ∃ d s, c = '?' ∧ t' = '.' :: d :: s := by
      rintro ⟨d, s, rfl, rfl⟩
      cases h with
      | cons _ rest =>
        cases rest with
        | cons d rest => exact hchain ⟨_, _, rfl, rfl⟩
        | swap left right => exact hchain ⟨_, _, rfl, rfl⟩
      | swap _ right => exact absurd right (by decide)
    rw [markAt?_eq_find? hchain, markAt?_eq_find? hchain', hfind]

/-- A mark is read where it is spelled. -/
theorem exists_of_markAt? {t : Text} {m : Mark} {n : Nat} (h : markAt? t = some (m, n)) :
    ∃ spelling r, (spelling, some m) ∈ markTable ∧ t = spelling ++ r ∧ n = spelling.length := by
  unfold markAt? at h
  split at h
  · rename_i d r
    split at h
    · obtain ⟨rfl, rfl⟩ := Prod.mk.inj (Option.some.inj h)
      exact ⟨['?'], '.' :: d :: r, by decide, rfl, rfl⟩
    · obtain ⟨rfl, rfl⟩ := Prod.mk.inj (Option.some.inj h)
      exact ⟨['?', '.'], d :: r, by decide, rfl, rfl⟩
  · split at h
    · rename_i spelling m' hfind
      obtain ⟨rfl, rfl⟩ := Prod.mk.inj (Option.some.inj h)
      have hstarts : t.startsWith spelling = true := by simpa using List.find?_some hfind
      obtain ⟨r, rfl⟩ := Text.startsWith_iff.mp hstarts
      exact ⟨spelling, r, List.mem_of_find?_eq_some hfind, rfl, rfl⟩
    · cases h

/-- What is read as a mark starts like one and lies in the text. -/
theorem markAt?_eq_some {t : Text} {m : Mark} {n : Nat} (h : markAt? t = some (m, n)) :
    0 < n ∧ n ≤ t.length ∧ ∃ c r, t = c :: r ∧
      isSpacing c = false ∧ isWordStart c = false ∧ c ≠ '\\' ∧ c ≠ '"' ∧ c ≠ '\'' := by
  obtain ⟨spelling, r, hmem, rfl, rfl⟩ := exists_of_markAt? h
  have hhead := head_of_mem_markTable _ hmem
  cases spelling with
  | nil => exact absurd rfl (ne_nil_of_mem_markTable _ hmem)
  | cons c spelling => exact ⟨Nat.succ_pos _, by simp, c, _, rfl, hhead c rfl⟩

/-! ## Tokens -/

/-- The line at the head of a text that is set aside there: no operator may come, and only wide blanks
precede. -/
def setAside? (now : Expecting) (wide : Bool) (t : Text) : Option Nat :=
  if now != .operator && wide then Lexeme.markupRemark? t else none

/-- What is read at the head of a text, and how long it is.  The readers are asked in turn, and the
first of them that reads something gives the token. -/
inductive ReadAs (now : Expecting) (wide : Bool) (t : Text) : Shape → Nat → Prop
  | remark {n : Nat} (line : setAside? now wide t = some n) (further : n < t.length) :
      ReadAs now wide t .remark n
  | number {n : Nat} (line : setAside? now wide t = none) (number : Lexeme.number? t = some n) :
      ReadAs now wide t (.literal (t.take n)) n
  | quotation {n : Nat} (line : setAside? now wide t = none) (number : Lexeme.number? t = none)
      (quotation : Lexeme.quotation? t = some n) : ReadAs now wide t (.literal (t.take n)) n
  | word {n : Nat} (line : setAside? now wide t = none) (number : Lexeme.number? t = none)
      (quotation : Lexeme.quotation? t = none) (word : Lexeme.word? t = some n) :
      ReadAs now wide t (wordShape now (t.take n)) n
  | mark {m : Mark} {n : Nat} (line : setAside? now wide t = none) (number : Lexeme.number? t = none)
      (quotation : Lexeme.quotation? t = none) (word : Lexeme.word? t = none)
      (mark : markAt? t = some (m, n)) (conditional : m = .question → wide = true) :
      ReadAs now wide t (.mark m) n

/-- **The token at the head of a text is what its readers read there.** -/
theorem shapeAt?_eq_some_iff {now : Expecting} {wide : Bool} {t : Text} {shape : Shape} {n : Nat} :
    shapeAt? now wide t = some (shape, n) ↔ ReadAs now wide t shape n := by
  unfold shapeAt?
  rw [← setAside?]
  constructor
  · intro h
    split at h
    · rename_i line
      obtain ⟨further, heq⟩ := Option.ite_none_right_eq_some.mp h
      cases heq
      exact .remark line further
    -- each reader is tried where those before it read nothing
    rename_i line
    split at h
    · rename_i number
      cases h
      exact .number line number
    rename_i number
    split at h
    · rename_i quotation
      cases h
      exact .quotation line number quotation
    rename_i quotation
    split at h
    · rename_i word
      cases h
      exact .word line number quotation word
    rename_i word
    split at h
    · rename_i mark
      obtain ⟨hwide, heq⟩ := Option.ite_none_right_eq_some.mp h
      cases heq
      exact .mark line number quotation word mark fun _ => hwide
    · rename_i hother mark
      cases h
      exact .mark line number quotation word mark fun heq => absurd heq hother
    · cases h
  · intro h
    cases h with
    | remark line further => simp only [line, further, if_true]
    | number line number => simp only [line, number]
    | quotation line number quotation => simp only [line, number, quotation]
    | word line number quotation word => simp only [line, number, quotation, word]
    | @mark m _ line number quotation word mark conditional =>
      simp only [line, number, quotation, word, mark]
      cases m with
      | question => simp only [conditional rfl, if_true]
      | _ => rfl

/-- The token at the head of a text has characters, and lies in the text. -/
theorem shapeAt?_le {now : Expecting} {wide : Bool} {t : Text} {shape : Shape} {n : Nat}
    (h : shapeAt? now wide t = some (shape, n)) : 0 < n ∧ n ≤ t.length := by
  cases shapeAt?_eq_some_iff.mp h with
  | remark line further =>
    obtain ⟨-, hline⟩ := Option.ite_none_right_eq_some.mp line
    obtain ⟨w, r, rfl, ⟨mark, u, hmark, rfl, -⟩, rfl⟩ := Lexeme.markupRemark?_eq_some_iff.mp hline
    refine ⟨?_, Nat.le_of_lt further⟩
    rcases hmark with rfl | rfl <;> simp
  | number _ number => exact Lexeme.number?_le number
  | quotation _ _ quotation => exact Lexeme.le_of_quotation? quotation
  | word _ _ _ word =>
    obtain ⟨w, r, rfl, hw, -, rfl⟩ := Lexeme.word?_eq_some_iff.mp word
    exact ⟨List.length_pos_iff.mpr hw.ne_nil, by simp⟩
  | mark _ _ _ _ mark _ => exact ⟨(markAt?_eq_some mark).1, (markAt?_eq_some mark).2.1⟩

/-- The kinds of tokens, each as its reader reads it. -/
theorem shapeAt?_cases {now : Expecting} {wide : Bool} {w t : Text} {shape : Shape}
    (h : shapeAt? now wide (w ++ t) = some (shape, w.length)) :
    (shape = .remark ∧ SetAside w t) ∨
      (shape = .literal w ∧ (Lexeme.number? (w ++ t) = some w.length ∨
        Lexeme.quotation? (w ++ t) = some w.length)) ∨
      (shape = wordShape now w ∧ Word w ∧ Halts t) ∨
      ∃ m, shape = .mark m ∧ (w, some m) ∈ markTable := by
  have htake : (w ++ t).take w.length = w := List.take_left
  cases shapeAt?_eq_some_iff.mp h with
  | remark line _ =>
    obtain ⟨-, hline⟩ := Option.ite_none_right_eq_some.mp line
    obtain ⟨w', r, hsplit, hstands, hlength⟩ := Lexeme.markupRemark?_eq_some_iff.mp hline
    obtain ⟨rfl, rfl⟩ := List.append_inj hsplit hlength
    exact .inl ⟨rfl, hstands⟩
  | number _ number => exact .inr (.inl ⟨by rw [htake], .inl number⟩)
  | quotation _ _ quotation => exact .inr (.inl ⟨by rw [htake], .inr quotation⟩)
  | word _ _ _ word =>
    obtain ⟨w', r, hsplit, hword, hhalts, hlength⟩ := Lexeme.word?_eq_some_iff.mp word
    obtain ⟨rfl, rfl⟩ := List.append_inj hsplit hlength
    exact .inr (.inr (.inl ⟨by rw [htake], hword, hhalts⟩))
  | mark _ _ _ _ mark _ =>
    obtain ⟨spelling, r, hmem, hsplit, hlength⟩ := exists_of_markAt? mark
    obtain ⟨rfl, rfl⟩ := List.append_inj hsplit hlength
    exact .inr (.inr (.inr ⟨_, rfl, hmem⟩))

/-- A quotation starts with a quotation mark. -/
theorem quotation?_eq_none {c : Char} (hdouble : c ≠ '"') (hsingle : c ≠ '\'') (t : Text) :
    Lexeme.quotation? (c :: t) = none := by
  simp [Lexeme.quotation?, hdouble, hsingle]

/-- A word starts with no quotation mark. -/
theorem quotation?_of_word? {c : Char} {t : Text} {n : Nat} (h : Lexeme.word? (c :: t) = some n)
    (t' : Text) : Lexeme.quotation? (c :: t') = none := by
  apply quotation?_eq_none
  · rintro rfl
    cases h
  · rintro rfl
    cases h

/-- A mark starts neither a quotation nor a word. -/
theorem readers_of_markAt? {c : Char} {t : Text} {found : Mark × Nat}
    (h : markAt? (c :: t) = some found) (t' : Text) :
    Lexeme.quotation? (c :: t') = none ∧ Lexeme.word? (c :: t') = none := by
  obtain ⟨-, -, d, r, heq, -, hstart, hslash, hdouble, hsingle⟩ := markAt?_eq_some h
  obtain ⟨rfl, -⟩ := List.cons.inj heq
  exact ⟨quotation?_eq_none hdouble hsingle t', by simp [Lexeme.word?, hstart, hslash]⟩

/-- Where no line is set aside, none is in a text that agrees up to an operand. -/
theorem setAside?_eq_none_of_alike {now : Expecting} {wide : Bool} {t t' : Text} (h : Alike t t')
    (hnone : setAside? now wide t = none) : setAside? now wide t' = none := by
  unfold setAside? at hnone ⊢
  split at hnone
  · rename_i happlies
    rw [if_pos happlies, Lexeme.markupRemark?_eq_none_iff, ← h.startsWith_eq (by decide),
      ← h.startsWith_eq (by decide)]
    exact Lexeme.markupRemark?_eq_none_iff.mp hnone
  · rename_i happlies
    rw [if_neg happlies]

/-- A line is set aside in texts that agree up to an operand behind it. -/
theorem setAside?_alike {now : Expecting} {wide : Bool} {w t t' : Text} (h : Alike t t')
    (hline : setAside? now wide (w ++ t) = some w.length) :
    setAside? now wide (w ++ t') = some w.length := by
  obtain ⟨happlies, hread⟩ := Option.ite_none_right_eq_some.mp hline
  obtain ⟨w', r, hsplit, hstands, hlength⟩ := Lexeme.markupRemark?_eq_some_iff.mp hread
  obtain ⟨rfl, rfl⟩ := List.append_inj hsplit hlength
  rw [setAside?, if_pos happlies]
  exact Lexeme.markupRemark?_eq_some_iff.mpr ⟨w, t', rfl, hstands.alike h, rfl⟩

/-- Where no number is read, none is in a text that agrees up to an operand behind the first
character. -/
theorem number?_eq_none_of_alike {c : Char} {t t' : Text} (h : Alike t t')
    (hnone : Lexeme.number? (c :: t) = none) : Lexeme.number? (c :: t') = none := by
  rw [Lexeme.number?_eq_none_iff] at hnone ⊢
  refine ⟨hnone.1, fun hc d hd => ?_⟩
  cases h with
  | nil => cases hd
  | cons d' rest => exact hnone.2 hc d hd
  | swap left right =>
    obtain rfl := Option.some.inj hd
    exact Lexeme.isDigit_of_startsOperand right

/-- **A token is read alike in texts that agree up to an operand behind it**, as long as a word halts
and a number is followed by a quiet character in both. -/
theorem shapeAt?_alike {now : Expecting} {wide : Bool} {w t t' : Text} {shape : Shape}
    (h : shapeAt? now wide (w ++ t) = some (shape, w.length)) (halike : Alike t t')
    (hword : Word w → Halts t → Halts t')
    (hnumber : Lexeme.number? (w ++ t) = some w.length →
      t = t' ∨ ∃ c s s', isQuiet c = true ∧ t = c :: s ∧ t' = c :: s') :
    shapeAt? now wide (w ++ t') = some (shape, w.length) := by
  obtain ⟨c, u, rfl⟩ := List.exists_cons_of_ne_nil (List.length_pos_iff.mp (shapeAt?_le h).1)
  have htake : (c :: u ++ t').take (c :: u).length = (c :: u ++ t).take (c :: u).length := by
    rw [List.take_left, List.take_left]
  have hrest : Alike (u ++ t) (u ++ t') := halike.append _
  -- a reader that reads nothing in the one text reads nothing in the other one
  have hline : setAside? now wide (c :: u ++ t) = none → setAside? now wide (c :: u ++ t') = none :=
    setAside?_eq_none_of_alike (halike.append _)
  have hnone : Lexeme.number? (c :: u ++ t) = none → Lexeme.number? (c :: u ++ t') = none :=
    number?_eq_none_of_alike hrest
  rw [shapeAt?_eq_some_iff] at h ⊢
  cases h with
  | remark line further =>
    refine .remark (setAside?_alike halike line) ?_
    rw [List.length_append] at further ⊢
    cases halike <;> simp at further ⊢
  | number line number =>
    rw [← htake]
    refine .number (hline line) ?_
    rcases hnumber number with rfl | ⟨d, s, s', hquiet, rfl, rfl⟩
    · exact number
    · exact Lexeme.number?_local hquiet number s'
  | quotation line number quotation =>
    rw [← htake]
    exact .quotation (hline line) (hnone number) (Lexeme.quotation?_local quotation t')
  | word line number quotation word =>
    rw [← htake]
    refine .word (hline line) (hnone number) (quotation?_of_word? word _) ?_
    obtain ⟨w, r, hsplit, hw, hend, hlength⟩ := Lexeme.word?_eq_some_iff.mp word
    obtain ⟨rfl, rfl⟩ := List.append_inj hsplit hlength
    exact Lexeme.word?_eq_some_iff.mpr ⟨_, t', rfl, hw, hword hw hend, rfl⟩
  | mark line number quotation word mark conditional =>
    obtain ⟨hquotation, hnoWord⟩ := readers_of_markAt? mark (u ++ t')
    exact .mark (hline line) (hnone number) hquotation hnoWord
      ((markAt?_alike hrest c).symm.trans mark) conditional

/-! ## Gaps -/

/-- Blanks and comments in front of a text.  The last index says whether only wide blanks stand
between the last token or comment and the text, the first whether they did before the gap. -/
inductive Gap : Bool → Text → Text → Bool → Prop
  | nil {wide : Bool} {t : Text} : Gap wide [] t wide
  | blank {wide wide' : Bool} {c : Char} {g t : Text} (blank : isSpacing c = true)
      (rest : Gap (wide && isWide c) g t wide') : Gap wide (c :: g) t wide'
  | comment {wide wide' : Bool} {w g t : Text} (comment : Comment w (g ++ t))
      (closed : isOpenComment (w ++ (g ++ t)) w.length = false) (rest : Gap true g t wide') :
      Gap wide (w ++ g) t wide'

/-- Only a comment that runs to the end of the text is open. -/
theorem isOpenComment_alike {w t t' : Text} (h : Comment w t) (halike : Alike t t') :
    isOpenComment (w ++ t') w.length = isOpenComment (w ++ t) w.length := by
  have hstarts : (w ++ t').startsWith ['/', '/'] = (w ++ t).startsWith ['/', '/'] :=
    ((halike.append w).startsWith_eq (by decide)).symm
  have hlength : (w.length == (w ++ t').length) = (w.length == (w ++ t).length) := by
    cases halike <;> simp
  rw [isOpenComment, isOpenComment, hstarts, hlength]

/-- A gap is one in front of each text that agrees with what follows it. -/
theorem Gap.alike {wide wide' : Bool} {g t t' : Text} (h : Gap wide g t wide')
    (halike : Alike t t') : Gap wide g t' wide' := by
  induction h with
  | nil => exact .nil
  | blank blank _ ih => exact .blank blank (ih halike)
  | comment comment closed _ ih =>
    refine .comment (comment.alike (halike.append _)) ?_ (ih halike)
    rw [isOpenComment_alike comment (halike.append _)]
    exact closed

/-! ## Texts and their tokens -/

/-- A token stands in front of a text, behind a gap. -/
structure Heads (now : Expecting) (wide : Bool) (w t : Text) (shape : Shape) : Prop where
  tight : ∀ c ∈ w.head?, isSpacing c = false
  plain : Lexeme.comment? (w ++ t) = none
  read : shapeAt? now wide (w ++ t) = some (shape, w.length)

/-- A text whose first byte has the given position, with its tokens. -/
inductive Lexed : Nat → Expecting → Bool → Text → List Token → Prop
  | done {position : Nat} {now : Expecting} {wide wide' : Bool} {g : Text}
      (gap : Gap wide g [] wide') : Lexed position now wide g []
  | token {position start stop : Nat} {now : Expecting} {wide wide' : Bool} {g w t : Text}
      {shape : Shape} {tokens : List Token} (gap : Gap wide g (w ++ t) wide')
      (head : Heads now wide' w t shape) (hstart : start = position + Text.byteLength g)
      (hstop : stop = start + Text.byteLength w)
      (rest : Lexed stop (now.next shape) true t tokens) :
      Lexed position now wide (g ++ (w ++ t)) (⟨shape, ⟨start, stop⟩⟩ :: tokens)

theorem Heads.ne_nil {now : Expecting} {wide : Bool} {w t : Text} {shape : Shape}
    (h : Heads now wide w t shape) : w ≠ [] :=
  List.length_pos_iff.mp (shapeAt?_le h.read).1

/-- Skipped characters change the position alone. -/
theorem tokensFrom_skip (skip position : Nat) (now : Expecting) (wide : Bool) (t : Text) :
    tokensFrom skip position now wide t =
      tokensFrom 0 (position + Text.byteLength (t.take skip)) now wide (t.drop skip) := by
  induction skip generalizing position t with
  | zero => rfl
  | succ skip ih =>
    cases t with
    | nil => rfl
    | cons c t =>
      rw [tokensFrom, ih, List.take_succ_cons, List.drop_succ_cons, Text.byteLength, Nat.add_assoc]

/-- Skipping all but the first character of a stretch. -/
theorem tokensFrom_stretch {c : Char} {w t : Text} (position : Nat) (now : Expecting) (wide : Bool) :
    tokensFrom ((c :: w).length - 1) (position + c.utf8Size) now wide (w ++ t) =
      tokensFrom 0 (position + Text.byteLength (c :: w)) now wide t := by
  rw [List.length_cons, Nat.add_sub_cancel, tokensFrom_skip, List.take_left, List.drop_left,
    Text.byteLength, Nat.add_assoc]

/-- Gaps are passed over. -/
theorem tokensFrom_gap {wide wide' : Bool} {g t : Text} (h : Gap wide g t wide') (position : Nat)
    (now : Expecting) :
    tokensFrom 0 position now wide (g ++ t) =
      tokensFrom 0 (position + Text.byteLength g) now wide' t := by
  induction h generalizing position with
  | nil => rfl
  | blank blank _ ih =>
    rw [List.cons_append, tokensFrom, if_pos blank, ih, Text.byteLength, Nat.add_assoc]
  | @comment _ _ w g t comment closed _ ih =>
    obtain ⟨u, rfl, -⟩ := comment.head?
    have hread : Lexeme.comment? ('/' :: u ++ (g ++ t)) = some ('/' :: u).length :=
      Lexeme.comment?_eq_some_iff.mpr ⟨_, _, rfl, comment, rfl⟩
    rw [List.append_assoc, List.cons_append] at *
    rw [tokensFrom, if_neg (by decide), hread]
    simp only [closed]
    rw [if_neg Bool.false_ne_true, tokensFrom_stretch, ih, Text.byteLength_append, Nat.add_assoc]

/-- A token is read where it stands. -/
theorem tokensFrom_token {now : Expecting} {wide : Bool} {w t : Text} {shape : Shape}
    (h : Heads now wide w t shape) (position : Nat) :
    tokensFrom 0 position now wide (w ++ t) =
      (tokensFrom 0 (position + Text.byteLength w) (now.next shape) true t).map
        (⟨shape, position, position + Text.byteLength w⟩ :: ·) := by
  obtain ⟨c, u, rfl⟩ := List.exists_cons_of_ne_nil h.ne_nil
  obtain ⟨tight, plain, read⟩ := h
  rw [List.cons_append] at plain read
  rw [List.cons_append, tokensFrom, if_neg (Bool.eq_false_iff.mp (tight c rfl)), plain]
  simp only [read]
  rw [tokensFrom_stretch, ← List.cons_append, List.take_left]

/-- A blank in front goes with the gap. -/
theorem Lexed.blank {position : Nat} {now : Expecting} {wide : Bool} {c : Char} {t : Text}
    {tokens : List Token} (hblank : isSpacing c = true)
    (h : Lexed (position + c.utf8Size) now (wide && isWide c) t tokens) :
    Lexed position now wide (c :: t) tokens := by
  cases h with
  | done gap => exact .done (.blank hblank gap)
  | token gap head hstart hstop rest =>
    rw [← List.cons_append]
    refine .token (.blank hblank gap) head ?_ hstop rest
    rw [hstart, Text.byteLength, Nat.add_assoc]

/-- A comment in front goes with the gap. -/
theorem Lexed.comment {position : Nat} {now : Expecting} {wide : Bool} {w t : Text}
    {tokens : List Token} (hcomment : Comment w t)
    (hclosed : isOpenComment (w ++ t) w.length = false)
    (h : Lexed (position + Text.byteLength w) now true t tokens) :
    Lexed position now wide (w ++ t) tokens := by
  cases h with
  | done gap =>
    refine .done (.comment ?_ ?_ gap)
    · rwa [List.append_nil]
    · rwa [List.append_nil]
  | token gap head hstart hstop rest =>
    rw [← List.append_assoc]
    refine .token (.comment hcomment hclosed gap) head ?_ hstop rest
    rw [hstart, Text.byteLength_append, Nat.add_assoc]

/-- What is cut off a text starts with its first character. -/
theorem exists_cons_append {c : Char} {t : Text} {n : Nat} (hpos : 0 < n) (hle : n ≤ (c :: t).length) :
    ∃ u r, t = u ++ r ∧ n = (c :: u).length := by
  obtain ⟨n, rfl⟩ : ∃ k, n = k + 1 := ⟨n - 1, by omega⟩
  refine ⟨t.take n, t.drop n, (List.take_append_drop n t).symm, ?_⟩
  rw [List.length_cons, List.length_take_of_le (Nat.le_of_succ_le_succ hle)]

/-- What is cut from a text is what it is lexed with. -/
theorem lexed_of_tokensFrom {position : Nat} {now : Expecting} {wide : Bool} {t : Text}
    {tokens : List Token} (h : tokensFrom 0 position now wide t = some tokens) :
    Lexed position now wide t tokens := by
  -- each step leaves a shorter text
  induction hlength : t.length using Nat.strong_induction_on
    generalizing position now wide t tokens with
  | _ n ih =>
    subst hlength
    cases t with
    | nil =>
      obtain rfl := Option.some.inj h
      exact .done .nil
    | cons c t =>
      rw [tokensFrom] at h
      split at h
      · rename_i hblank
        exact .blank hblank (ih _ (Nat.lt_succ_self _) h rfl)
      · rename_i hblank
        split at h
        · rename_i n hcomment
          obtain ⟨w, r, hsplit, hstands, rfl⟩ := Lexeme.comment?_eq_some_iff.mp hcomment
          obtain ⟨u, rfl, -⟩ := hstands.head?
          obtain rfl : c = '/' := (List.cons.inj hsplit).1
          obtain rfl : t = u ++ r := (List.cons.inj hsplit).2
          split at h
          · cases h
          · rename_i hclosed
            rw [tokensFrom_stretch] at h
            refine .comment hstands (Bool.eq_false_iff.mpr hclosed) (ih _ ?_ h rfl)
            simp only [List.length_cons, List.length_append]
            omega
        · rename_i hcomment
          split at h
          · rename_i shape n hshape
            obtain ⟨rest, hrest, rfl⟩ := Option.map_eq_some_iff.mp h
            obtain ⟨hpos, hle⟩ := shapeAt?_le hshape
            obtain ⟨u, r, rfl, rfl⟩ := exists_cons_append hpos hle
            rw [tokensFrom_stretch] at hrest
            have hhead : Heads now wide (c :: u) r shape :=
              ⟨fun d hd => by
                obtain rfl := Option.some.inj hd
                exact Bool.eq_false_iff.mpr hblank, hcomment, hshape⟩
            rw [← List.cons_append, List.take_left]
            refine .token .nil hhead rfl rfl (ih _ ?_ hrest rfl)
            simp only [List.length_cons, List.length_append]
            omega
          · cases h

/-- **The tokens that are cut from a text are the ones it is lexed with.** -/
theorem tokensFrom_iff {position : Nat} {now : Expecting} {wide : Bool} {t : Text}
    {tokens : List Token} :
    tokensFrom 0 position now wide t = some tokens ↔ Lexed position now wide t tokens := by
  constructor
  · exact lexed_of_tokensFrom
  · intro h
    induction h with
    | done gap =>
      have hpassed := tokensFrom_gap gap
      rw [List.append_nil] at hpassed
      rw [hpassed, tokensFrom]
    | token gap head hstart hstop _ ih =>
      rw [tokensFrom_gap gap, ← hstart, tokensFrom_token head, ← hstop, ih]
      rfl

/-- Behind a token that stands in front the text is lexed with the other tokens. -/
theorem Lexed.behind {position : Nat} {now : Expecting} {wide : Bool} {w t : Text} {shape : Shape}
    {tokens : List Token} (head : Heads now wide w t shape)
    (h : Lexed position now wide (w ++ t) tokens) :
    ∃ rest, tokens = ⟨shape, position, position + Text.byteLength w⟩ :: rest ∧
      Lexed (position + Text.byteLength w) (now.next shape) true t rest := by
  rw [← tokensFrom_iff, tokensFrom_token head] at h
  obtain ⟨rest, hrest, rfl⟩ := Option.map_eq_some_iff.mp h
  exact ⟨rest, rfl, tokensFrom_iff.mp hrest⟩

end DataBinding.Expression
