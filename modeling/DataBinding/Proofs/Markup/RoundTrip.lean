/-
# Writing back what was read

A document is written as the sources of its events, and an event need not be spelled as the piece of
text that it was cut from: end tags are written in small letters and without anything behind their
name, comments and marked sections end without blanks, markup of no known form becomes a comment, and
the contents of a raw element without an end tag are left out.  The key facts are

* `write_eq_iff`    : a document is written as the text it was read from exactly if each piece of the
  text is spelled as its events are and nothing is left over;
* `Respelled.cancel` : two pieces that are spelled differently never make up for each other.
-/
import DataBinding.Proofs.Markup.Pieces
import DataBinding.Proofs.Markup.Reading
import DataBinding.Proofs.Markup.Writing

namespace DataBinding.Markup

/-! ## Spellings -/

/-- How the events of a piece are written. -/
def Piece.written (p : Piece) : Text :=
  p.events.flatMap Event.source

/-- The events of a piece are written as the piece is. -/
def Piece.Verbatim (p : Piece) : Prop :=
  p.written = p.cut

/-- How a piece and its events can differ: up to the end of a tag that only their last characters
are, or in that the piece has no events. -/
inductive Respelled : Text → Text → Prop
  | same {u : Text} : Respelled u u
  | other {p w l : Text} (hw : '>' ∉ w) (hl : '>' ∉ l) :
      Respelled (p ++ w ++ ['>']) (p ++ l ++ ['>'])
  | nothing : Respelled "</>".toList []

/-- A complete piece and its events differ in no other way. -/
theorem Advance.respelled {raw next : Option Text} {t : Text} {events : List Event} {n : Nat}
    (h : Advance raw t events n next) :
    Respelled (t.take n) (Piece.written ⟨t.take n, events⟩) := by
  unfold Piece.written
  cases h with
  | data | reference | startTag | emptyTag =>
    rw [List.flatMap_singleton]
    exact .same
  | declaration _ _ cut | instruction _ _ cut =>
    rw [List.flatMap_singleton, cut]
    exact .same
  | endTag _ cut hw hname =>
    rw [List.flatMap_singleton, cut]
    exact .other hw hname
  | nothing _ cut =>
    rw [cut]
    exact .nothing
  | remark _ _ cut source hw hl =>
    rw [List.flatMap_singleton, cut, source]
    exact .other hw hl

/-- A complete piece is written as it is unless its event is put together anew. -/
theorem Advance.verbatim_or_rebuilt {raw next : Option Text} {t : Text} {events : List Event} {n : Nat}
    (h : Advance raw t events n next) :
    Piece.Verbatim ⟨t.take n, events⟩ ∨ events = [] ∨
      ∃ event, events = [event] ∧ event.isRebuilt = true := by
  cases h with
  | data | reference | startTag | emptyTag => exact .inl (List.flatMap_singleton ..)
  | declaration _ _ cut | instruction _ _ cut =>
    exact .inl ((List.flatMap_singleton ..).trans cut.symm)
  | endTag => exact .inr (.inr ⟨_, rfl, rfl⟩)
  | nothing => exact .inr (.inl rfl)
  | remark _ rebuilt => exact .inr (.inr ⟨_, rfl, rebuilt⟩)

/-- Events end no more tags than their piece. -/
theorem Respelled.count_le {u v : Text} (h : Respelled u v) : v.count '>' ≤ u.count '>' := by
  cases h with
  | same => exact Nat.le_refl _
  | other hw hl => simp [List.count_eq_zero_of_not_mem hw, List.count_eq_zero_of_not_mem hl]
  | nothing => decide

/-- Texts up to the end of a tag that only their last characters are. -/
theorem eq_of_append_close {w l r s : Text} (hw : '>' ∉ w) (hl : '>' ∉ l)
    (h : l ++ '>' :: s = w ++ '>' :: r) : l = w ∧ s = r := by
  induction w generalizing l with
  | nil =>
    cases l with
    | nil => exact ⟨rfl, (List.cons.inj h).2⟩
    | cons c l =>
      obtain rfl := (List.cons.inj h).1
      exact absurd (List.mem_cons_self ..) hl
  | cons c w ih =>
    rw [List.mem_cons, not_or] at hw
    cases l with
    | nil => exact absurd (List.cons.inj h).1 hw.1
    | cons d l =>
      rw [List.mem_cons, not_or] at hl
      obtain ⟨rfl, hrest⟩ := List.cons.inj h
      obtain ⟨rfl, rfl⟩ := ih hw.2 hl.2 hrest
      exact ⟨rfl, rfl⟩

/-- What is spelled differently is never made up for by what follows. -/
theorem Respelled.cancel {u v r s : Text} (h : Respelled u v) (hcount : s.count '>' ≤ r.count '>') :
    v ++ s = u ++ r ↔ v = u ∧ s = r := by
  constructor
  · intro heq
    cases h with
    | same => exact ⟨rfl, List.append_cancel_left heq⟩
    | @other p w l hw hl =>
      rw [List.append_assoc, List.append_assoc, List.append_assoc, List.append_assoc] at heq
      obtain ⟨rfl, rfl⟩ := eq_of_append_close hw hl (List.append_cancel_left heq)
      exact ⟨rfl, rfl⟩
    | nothing =>
      rw [List.nil_append] at heq
      rw [heq, List.count_append] at hcount
      have hone : List.count '>' "</>".toList = 1 := by decide
      omega
  · rintro ⟨rfl, rfl⟩
    rfl

/-! ## Where the cutting stops -/

/-- The piece at which the cutting stops is written as it is, but for an ampersand in front of one
letter at the end of the text. -/
theorem Halt.verbatim {atEnd : Bool} {t : Text} {events : List Event} {n : Nat}
    (h : Halt atEnd t events n) :
    Piece.Verbatim ⟨t.take n, events⟩ ∨
      atEnd = true ∧ events = [] ∧ n = 1 ∧ ∃ a c, t = [a, c] := by
  cases h with
  | here => exact .inl rfl
  | sign => exact .inl (List.flatMap_singleton ..)
  | lost final whole => exact .inr ⟨final, rfl, rfl, _, _, whole⟩

/-! ## Whole texts -/

section Whole

variable {atEnd : Bool} {raw last : Option Text} {t rest tail : Text} {pieces : List Piece}

theorem written_flatMap_cons (p : Piece) (pieces : List Piece) (tail : Text) :
    (p :: pieces).flatMap Piece.written ++ tail
      = p.written ++ (pieces.flatMap Piece.written ++ tail) := by
  rw [List.flatMap_cons, List.append_assoc]

/-- The pieces of a text, with what stands for the rest, end no more tags than the text. -/
theorem Cuts.count_le (h : Cuts atEnd raw t pieces last rest)
    (htail : tail.count '>' ≤ rest.count '>') :
    (pieces.flatMap Piece.written ++ tail).count '>' ≤ t.count '>' := by
  have hsplit : ∀ (t : Text) (n : Nat), t.count '>' = (t.take n).count '>' + (t.drop n).count '>' := by
    intro t n
    rw [← List.count_append, List.take_append_drop]
  induction h with
  | done => exact htail
  | @stop raw t events n _ hstep =>
    rw [written_flatMap_cons, List.count_append, hsplit t n]
    rcases (halt_of_piece hstep).verbatim with hverbatim | ⟨-, rfl, -, -⟩
    · rw [hverbatim]
      exact Nat.add_le_add_left htail _
    · exact Nat.le_trans (Nat.le_of_eq (Nat.zero_add _)) (Nat.le_trans htail (Nat.le_add_left ..))
  | pause => exact htail
  | @next raw _ _ t _ events n _ hne hstep _ ih =>
    rw [written_flatMap_cons, List.count_append, hsplit t n]
    exact Nat.add_le_add (advance_of_piece hne hstep).respelled.count_le (ih htail)
  | @plain raw _ t =>
    rename_i ih
    rw [written_flatMap_cons, List.count_append, hsplit t (plainLength t)]
    refine Nat.add_le_add (Nat.le_of_eq ?_) (ih htail)
    simp [Piece.written, Event.source]

/-- Pieces that are not written as they are have no event or one that is put together anew: start
tags, texts, references, declarations and instructions are always kept, cut short or not. -/
theorem Cuts.verbatim_or_rebuilt (h : Cuts atEnd raw t pieces last rest) {p : Piece} (hp : p ∈ pieces) :
    p.Verbatim ∨ p.events = [] ∨ ∃ event, p.events = [event] ∧ event.isRebuilt = true := by
  induction h with
  | done | pause => cases hp
  | stop _ hstep =>
    obtain rfl := List.mem_singleton.mp hp
    rcases (halt_of_piece hstep).verbatim with hverbatim | ⟨-, rfl, -⟩
    · exact .inl hverbatim
    · exact .inr (.inl rfl)
  | next hne hstep _ ih =>
    rcases List.mem_cons.mp hp with rfl | hp
    · exact (advance_of_piece hne hstep).verbatim_or_rebuilt
    · exact ih hp
  | plain =>
    rename_i ih
    rcases List.mem_cons.mp hp with rfl | hp
    · exact .inl (List.flatMap_singleton ..)
    · exact ih hp

/-- **The pieces of a text are written as the text exactly if each of them is.** -/
theorem Cuts.written_eq_iff (h : Cuts atEnd raw t pieces last rest)
    (htail : tail.count '>' ≤ rest.count '>') (hlength : atEnd = true → tail.length ≤ rest.length) :
    pieces.flatMap Piece.written ++ tail = t ↔ (∀ p ∈ pieces, p.Verbatim) ∧ tail = rest := by
  induction h with
  | done => simp
  | @stop raw t events n hne hstep =>
    rw [List.forall_mem_singleton, List.flatMap_singleton]
    rcases (halt_of_piece hstep).verbatim with hverbatim | ⟨hend, rfl, rfl, a, c, rfl⟩
    · rw [hverbatim]
      dsimp only
      conv_lhs => rhs; rw [← List.take_append_drop n t]
      rw [List.append_right_inj, iff_and_self]
      exact fun _ => hverbatim
    · refine ⟨fun heq => ?_, fun h => absurd h.1 (by simp [Piece.Verbatim, Piece.written])⟩
      -- the tail is too short to make up for the ampersand
      have hshort := hlength hend
      have := congrArg List.length heq
      simp [Piece.written] at this hshort
      omega
  | pause => simp
  | @next raw _ _ t _ events n _ hne hstep htl ih =>
    have hcancel := (advance_of_piece hne hstep).respelled.cancel (htl.count_le htail)
    rw [List.take_append_drop] at hcancel
    rw [written_flatMap_cons, hcancel, ih htail hlength, List.forall_mem_cons, and_assoc]
    rfl
  | @plain raw _ t =>
    rename_i ih
    rw [written_flatMap_cons]
    conv_lhs => rhs; rw [← List.take_append_drop (plainLength t) t]
    have hsame : Piece.written ⟨t.take (plainLength t), [.data (t.take (plainLength t))]⟩
        = t.take (plainLength t) := List.flatMap_singleton ..
    rw [hsame, List.append_right_inj, ih htail hlength, List.forall_mem_cons]
    simp [Piece.Verbatim, hsame]

end Whole

/-! ## Documents -/

/-- Every piece of a text is written as it is, whether it is cut off the first or the second time, and
nothing remains inside a raw element, where it would be lost. -/
def Verbatim (t : Text) : Prop :=
  ∃ first raw middle later last rest,
    Cuts false none t first raw middle ∧ Cuts true raw middle later last rest ∧
      (∀ p ∈ first ++ later, p.Verbatim) ∧ (last = none ∨ rest = [])

/-- What is kept of the rest of a text. -/
def remains (last : Option Text) (rest : Text) : Text :=
  if last = none then rest else []

theorem remains_eq_iff (last : Option Text) (rest : Text) :
    remains last rest = rest ↔ last = none ∨ rest = [] := by
  unfold remains
  split
  · simp [*]
  · simp [*, eq_comm]

theorem remains_le (last : Option Text) (rest : Text) :
    (remains last rest).count '>' ≤ rest.count '>' ∧ (remains last rest).length ≤ rest.length := by
  unfold remains
  split
  · exact ⟨Nat.le_refl _, Nat.le_refl _⟩
  · exact ⟨Nat.zero_le _, Nat.zero_le _⟩

section Documents

variable {t middle rest : Text} {raw last : Option Text} {first later : List Piece}

/-- A text that falls into pieces is read, and its document is written as they are. -/
theorem parse_of_cuts (hfirst : Cuts false none t first raw middle)
    (hlater : Cuts true raw middle later last rest) :
    ∃ document, Document.parse t = .ok document ∧ document.write
      = first.flatMap Piece.written ++ (later.flatMap Piece.written ++ remains last rest) := by
  have hwritten : ∀ pieces : List Piece,
      (pieces.flatMap Piece.events).flatMap Event.source = pieces.flatMap Piece.written :=
    fun pieces => List.flatMap_assoc ..
  have hremains : (if last.isNone && !rest.isEmpty then [Event.data rest] else []).flatMap
      Event.source = remains last rest := by
    unfold remains
    cases last with
    | some name => rfl
    | none => cases rest <;> simp [Event.source]
  refine ⟨_, congrArg (Except.map Document.ofEvents) (events_of_cuts hfirst hlater), ?_⟩
  refine (Growth.writeAll_finish_foldl_take Growth.unclosed_empty _).trans ?_
  rw [List.flatMap_append, List.flatMap_append, hremains, hwritten, hwritten, List.append_assoc]
  rfl

/-- What is written for the pieces of a text is the text exactly if each of them is. -/
theorem Cuts.written_both_eq_iff (hfirst : Cuts false none t first raw middle)
    (hlater : Cuts true raw middle later last rest) :
    first.flatMap Piece.written ++ (later.flatMap Piece.written ++ remains last rest) = t ↔
      (∀ p ∈ first ++ later, p.Verbatim) ∧ (last = none ∨ rest = []) := by
  obtain ⟨hcount, hlength⟩ := remains_le last rest
  rw [hfirst.written_eq_iff (hlater.count_le hcount) nofun,
    hlater.written_eq_iff hcount fun _ => hlength, remains_eq_iff, List.forall_mem_append, and_assoc]

/-- **A document is written as the text it was read from exactly if the text is verbatim**: what is
spelled in another way than it is written changes the text, wherever it stands. -/
theorem write_eq_iff {document : Document} (h : Document.parse t = .ok document) :
    document.write = t ↔ Verbatim t := by
  constructor
  · intro heq
    obtain ⟨read, hevents, -⟩ := Document.exists_events_of_parse h
    obtain ⟨first, raw, middle, later, last, rest, hfirst, hlater⟩ := exists_cuts_of_events hevents
    obtain ⟨found, hfound, hwrite⟩ := parse_of_cuts hfirst hlater
    obtain rfl := Except.ok.inj (h.symm.trans hfound)
    rw [hwrite, hfirst.written_both_eq_iff hlater] at heq
    exact ⟨first, raw, middle, later, last, rest, hfirst, hlater, heq⟩
  · rintro ⟨first, raw, middle, later, last, rest, hfirst, hlater, hall⟩
    obtain ⟨found, hfound, hwrite⟩ := parse_of_cuts hfirst hlater
    obtain rfl := Except.ok.inj (h.symm.trans hfound)
    rw [hwrite]
    exact (hfirst.written_both_eq_iff hlater).mpr hall

end Documents

/-- An element with an end tag in capital letters. -/
def capitalEnd : Text :=
  "<p>a</P>".toList

/-- The same element with an end tag in small letters. -/
def smallEnd : Text :=
  "<p>a</p>".toList

/-- The end tag is written in small letters. -/
theorem write_capitalEnd :
    ∃ document, Document.parse capitalEnd = .ok document ∧ document.write = smallEnd ∧
      document.write ≠ capitalEnd := by
  refine ⟨⟨[.element ⟨['p'], [], some "<p>".toList, false, true, []⟩ [.text ['a']]]⟩, ?_, ?_, ?_⟩
  · rfl
  · decide
  · decide

/-- The element is verbatim with an end tag in small letters only. -/
theorem verbatim_smallEnd : Verbatim smallEnd ∧ ¬ Verbatim capitalEnd := by
  have hparse : ∀ t ∈ [smallEnd, capitalEnd], Document.parse t
      = .ok ⟨[.element ⟨['p'], [], some "<p>".toList, false, true, []⟩ [.text ['a']]]⟩ := by
    intro t ht
    rcases List.mem_pair.mp ht with rfl | rfl <;> rfl
  rw [← write_eq_iff (hparse smallEnd (by simp)), ← write_eq_iff (hparse capitalEnd (by simp))]
  decide

end DataBinding.Markup
