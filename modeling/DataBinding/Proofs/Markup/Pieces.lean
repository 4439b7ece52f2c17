/-
# The pieces of a text

Cutting goes over a text piece by piece.  This file says what one step of it can do, and turns the
cutting of a whole text into the list of its pieces.

* `Advance`, `advance_of_piece` : the forms that a complete piece can have, with the characters it is
  cut from and the events it gives;
* `Halt`, `halt_of_piece`       : the forms in which the cutting stops;
* `Cuts`, `cuts_of_scanFrom`    : the pieces of a text in their order, up to where the cutting stops.
-/
import Mathlib
import DataBinding.Markup.Scan
import DataBinding.Proofs.Text.LowerCase
import DataBinding.Proofs.Text.Runs

namespace DataBinding.Markup

/-! ## Searches -/

/-- What is found lies behind characters of another kind. -/
theorem eq_append_of_before? {p : Char → Bool} {t : Text} {n : Nat} (h : before? p t = some n) :
    ∃ u c r, t = u ++ c :: r ∧ u.length = n ∧ p c = true ∧ ∀ x ∈ u, p x = false := by
  obtain ⟨u, r, rfl, hu, hr⟩ := Text.exists_run_until p t
  unfold before? at h
  dsimp only at h
  rw [Text.takeWhile_append_until hu hr] at h
  split at h
  · rename_i hlt
    obtain rfl := Option.some.inj h
    cases r with
    | nil => simp at hlt
    | cons c r => exact ⟨u, c, r, rfl, rfl, hr c rfl, hu⟩
  · cases h

/-- A text with the end of a tag in it. -/
theorem eq_append_of_before_close {t : Text} {n : Nat} (h : before? (· == '>') t = some n) :
    ∃ u r, t = u ++ '>' :: r ∧ u.length = n ∧ '>' ∉ u := by
  obtain ⟨u, c, r, rfl, hlength, hc, hu⟩ := eq_append_of_before? h
  obtain rfl : c = '>' := eq_of_beq hc
  refine ⟨u, r, rfl, hlength, fun hmem => ?_⟩
  have := hu _ hmem
  simp at this

/-- A reader that succeeds somewhere succeeds behind what precedes. -/
theorem eq_append_of_firstMatch? {α : Type} {reader : Text → Option α} {t : Text} {n : Nat} {a : α}
    (h : firstMatch? reader t = some (n, a)) :
    ∃ u r, t = u ++ r ∧ u.length = n ∧ reader r = some a := by
  induction t generalizing n with
  | nil => cases h
  | cons c t ih =>
    rw [firstMatch?] at h
    split at h
    · rename_i hreader
      cases h
      exact ⟨[], c :: t, rfl, rfl, hreader⟩
    · rw [Option.map_eq_some_iff] at h
      obtain ⟨⟨m, b⟩, hm, heq⟩ := h
      cases heq
      obtain ⟨u, r, rfl, rfl, hr⟩ := ih hm
      exact ⟨c :: u, r, rfl, rfl, hr⟩

/-- No blank ends a tag. -/
theorem close_notMem_blanks (t : Text) : '>' ∉ t.takeWhile Text.isBlank := by
  intro h
  have := List.mem_takeWhile_imp h
  revert this
  decide

/-- Characters with blanks between them, of which the last one ends a tag. -/
theorem eq_append_of_spaced? {parts t : Text} {n : Nat} (hparts : '>' ∉ parts)
    (h : spaced? (parts ++ ['>']) t = some n) :
    ∃ w r, t = w ++ '>' :: r ∧ w.length + 1 = n ∧ '>' ∉ w := by
  induction parts generalizing t n with
  | nil =>
    simp only [List.nil_append, spaced?, blanks] at h
    split at h
    · rename_i c rest hdrop
      split at h
      · rename_i hc
        obtain rfl := eq_of_beq hc
        refine ⟨t.takeWhile Text.isBlank, rest, ?_, by simpa using h, close_notMem_blanks t⟩
        rw [← hdrop, Text.drop_length_takeWhile, List.takeWhile_append_dropWhile]
      · cases h
    · cases h
  | cons p parts ih =>
    rw [List.mem_cons, not_or] at hparts
    simp only [List.cons_append, spaced?, blanks] at h
    split at h
    · rename_i c rest hdrop
      split at h
      · rename_i hc
        obtain rfl := eq_of_beq hc
        obtain ⟨m, hm, rfl⟩ := Option.map_eq_some_iff.mp h
        obtain ⟨w, r, rfl, rfl, hw⟩ := ih hparts.2 hm
        refine ⟨t.takeWhile Text.isBlank ++ c :: w, r, ?_, ?_, ?_⟩
        · rw [List.append_assoc, List.cons_append, ← hdrop, Text.drop_length_takeWhile,
            List.takeWhile_append_dropWhile]
        · rw [List.length_append, List.length_cons]
          omega
        · rw [List.mem_append, List.mem_cons, not_or, not_or]
          exact ⟨close_notMem_blanks t, hparts.1, hw⟩
      · cases h
    · cases h

/-! ## What a step can do -/

/-- The event keeps less than its piece of text, so that its source is put together anew. -/
def Event.isRebuilt : Event → Bool
  | .endTag _ | .comment _ | .markedSection _ => true
  | _ => false

/-- The forms of a complete piece at the head of a text: its events, its length, and the raw element
that is open behind it.  What is put together anew is cut at the end of a tag, and may be spelled in
another way than the event is written: where the one has `w` the other has `l`. -/
inductive Advance (raw : Option Text) (t : Text) : List Event → Nat → Option Text → Prop
  | data {n : Nat} (pos : 0 < n) : Advance raw t [.data (t.take n)] n raw
  | reference {n : Nat} (plain : raw = none) (pos : 0 < n) :
      Advance raw t [.reference (t.take n)] n none
  | startTag {name : Text} {attributes : List (Text × Option Text)} {n : Nat} (plain : raw = none)
      (pos : 0 < n) :
      Advance raw t [.startTag name attributes (t.take n)] n
        (if isRawText name then some name else none)
  | emptyTag {name : Text} {attributes : List (Text × Option Text)} {n : Nat} (plain : raw = none)
      (pos : 0 < n) : Advance raw t [.emptyTag name attributes (t.take n)] n none
  | endTag {name w : Text} {n : Nat} (closes : ∀ current ∈ raw, name = current)
      (cut : t.take n = "</".toList ++ w ++ ['>']) (hw : '>' ∉ w) (hname : '>' ∉ name) :
      Advance raw t [.endTag name] n none
  | nothing (plain : raw = none) (cut : t.take 3 = "</>".toList) : Advance raw t [] 3 none
  | declaration {text : Text} {n : Nat} (plain : raw = none) (pos : 0 < n)
      (cut : t.take n = declarationSource text) : Advance raw t [.declaration text] n none
  | instruction {text : Text} {n : Nat} (plain : raw = none) (pos : 0 < n)
      (cut : t.take n = instructionSource text) : Advance raw t [.instruction text] n none
  | remark {event : Event} {p w l : Text} {n : Nat} (plain : raw = none)
      (rebuilt : event.isRebuilt = true) (cut : t.take n = p ++ w ++ ['>'])
      (source : event.source = p ++ l ++ ['>']) (hw : '>' ∉ w) (hl : '>' ∉ l) :
      Advance raw t [event] n none

/-- A complete piece is not empty. -/
theorem Advance.pos {raw next : Option Text} {t : Text} {events : List Event} {n : Nat}
    (h : Advance raw t events n next) : 0 < n := by
  have hcut : ∀ u : Text, t.take n = u ++ ['>'] → 0 < n := by
    intro u hu
    refine Nat.pos_of_ne_zero fun hn => ?_
    rw [hn, List.take_zero] at hu
    exact absurd hu.symm (by simp)
  cases h with
  | data pos | reference _ pos | startTag _ pos | emptyTag _ pos | declaration _ pos
  | instruction _ pos => exact pos
  | endTag _ cut | remark _ _ cut => exact hcut _ cut
  | nothing => decide

/-! ## Names -/

/-- The end of a tag is no part of a tag's name. -/
theorem close_notMem_tagName {t name : Text} (h : tagName? t = some name) :
    '>' ∉ name.lowerCase := by
  intro hmem
  replace hmem := Text.mem_of_mem_lowerCase (by decide) (by decide) hmem
  cases t with
  | nil => cases h
  | cons c t =>
    rw [tagName?] at h
    split at h
    · rename_i hc
      obtain rfl := Option.some.inj h
      rcases List.mem_cons.mp hmem with rfl | hmem
      · exact absurd hc (by decide)
      · have := List.mem_takeWhile_imp hmem
        revert this
        decide
    · cases h

/-- The end of a tag is no part of a plain end tag's name. -/
theorem close_notMem_plainEndTag {t name : Text} (h : plainEndTag? t = some name) :
    '>' ∉ name.lowerCase := by
  intro hmem
  replace hmem := Text.mem_of_mem_lowerCase (by decide) (by decide) hmem
  unfold plainEndTag? at h
  split at h
  · split at h
    · rename_i c rest _
      split at h
      · rename_i hc
        dsimp only at h
        split at h
        · obtain rfl := Option.some.inj h
          rcases List.mem_cons.mp hmem with rfl | hmem
          · exact absurd hc (by decide)
          · have := List.mem_takeWhile_imp hmem
            revert this
            decide
        · cases h
      · cases h
    · cases h
  · cases h

/-! ## Constructs -/

section Constructs

variable {raw next : Option Text} {t : Text} {events : List Event} {n : Nat}

/-- What a text starts with. -/
theorem take_eq_of_append {v r : Text} (ht : t = v ++ r) (hn : v.length = n) : t.take n = v := by
  rw [ht, List.take_left' hn]

/-- The characters in front of a place. -/
theorem take_append_cons (u r : Text) (c : Char) :
    (u ++ c :: r).take (u.length + 1) = u ++ [c] :=
  take_eq_of_append (r := r) (by simp) (by simp)

theorem advance_endTag (h : endTag raw ('<' :: '/' :: t) = .advance events n next) :
    Advance raw ('<' :: '/' :: t) events n next := by
  unfold endTag at h
  split at h
  · cases h
  · rename_i m hm
    obtain ⟨u, r, ht, rfl, hu⟩ := eq_append_of_before_close hm
    have hcut : ('<' :: '/' :: t).take (u.length + 1) = u ++ ['>'] := by
      rw [ht, take_append_cons]
    -- the end of the tag stands behind the mark of an end tag, since it is no part of that
    obtain ⟨w, rfl⟩ : ∃ w, u = '<' :: '/' :: w := by
      match u, ht with
      | [], ht => simp at ht
      | [_], ht => simp at ht
      | a :: b :: w, ht =>
        simp only [List.cons_append, List.cons.injEq] at ht
        exact ⟨w, by rw [ht.1, ht.2.1]⟩
    have hw : '>' ∉ w := fun hmem => hu (List.mem_cons_of_mem _ (List.mem_cons_of_mem _ hmem))
    dsimp only at h
    split at h
    · rename_i name hname
      cases h
      exact .endTag (by simp) hcut hw (close_notMem_plainEndTag hname)
    · rename_i name current hname
      split at h
      · rename_i heq
        cases h
        refine .endTag ?_ hcut hw (close_notMem_plainEndTag hname)
        intro c hc
        cases hc
        exact eq_of_beq heq
      · cases h
        exact .data (by omega)
    · cases h
      exact .data (by omega)
    · split at h
      · rename_i name hname
        cases h
        exact .endTag (by simp) hcut hw (close_notMem_tagName hname)
      · split at h
        · rename_i hlength
          cases h
          have hnil : w = [] := by simpa using hlength
          subst hnil
          exact .nothing rfl hcut
        · cases h
          have hinner : (('<' :: '/' :: t).take ('<' :: '/' :: w).length).drop 2 = w := by
            rw [ht, List.take_left]
            rfl
          rw [hinner]
          exact .remark (p := ['<']) (w := '/' :: w) (l := "!--".toList ++ w ++ "--".toList) rfl
            rfl hcut (by simp [Event.source, commentSource]) (by simpa using hw) (by simpa using hw)

theorem advance_instruction
    (h : upToTagEnd .instruction ('<' :: '?' :: t) = .advance events n next) :
    Advance none ('<' :: '?' :: t) events n next := by
  unfold upToTagEnd at h
  split at h
  · cases h
  · rename_i m hm
    obtain ⟨u, r, ht, rfl, hu⟩ := eq_append_of_before_close hm
    obtain rfl : t = u ++ '>' :: r := ht
    cases h
    have hinner : (('<' :: '?' :: (u ++ '>' :: r)).drop 2).take u.length = u := List.take_left
    rw [hinner]
    exact .instruction rfl (Nat.succ_pos _) (take_append_cons ('<' :: '?' :: u) r '>')

theorem advance_bogus (h : upToTagEnd .comment ('<' :: '!' :: t) = .advance events n next) :
    Advance none ('<' :: '!' :: t) events n next := by
  unfold upToTagEnd at h
  split at h
  · cases h
  · rename_i m hm
    obtain ⟨u, r, ht, rfl, hu⟩ := eq_append_of_before_close hm
    obtain rfl : t = u ++ '>' :: r := ht
    cases h
    have hinner : (('<' :: '!' :: (u ++ '>' :: r)).drop 2).take u.length = u := List.take_left
    rw [hinner]
    exact .remark (p := "<!".toList) (w := u) (l := "--".toList ++ u ++ "--".toList) rfl rfl
      (take_append_cons ('<' :: '!' :: u) r '>') (by simp [Event.source, commentSource]) hu
      (by simpa using hu)

theorem advance_comment (h : comment ('<' :: '!' :: '-' :: '-' :: t) = .advance events n next) :
    Advance none ('<' :: '!' :: '-' :: '-' :: t) events n next := by
  unfold comment at h
  split at h
  · cases h
  · rename_i u m hm
    obtain ⟨u, r, ht, rfl, hr⟩ := eq_append_of_firstMatch? hm
    obtain rfl : t = u ++ r := ht
    unfold commentEnd? at hr
    split at hr
    · rename_i r
      obtain ⟨k, hk, rfl⟩ := Option.map_eq_some_iff.mp hr
      obtain ⟨w, rest, rfl, rfl, hw⟩ := @eq_append_of_spaced? [] _ _ (by simp) hk
      cases h
      have hinner : (('<' :: '!' :: '-' :: '-' :: (u ++ '-' :: '-' :: (w ++ '>' :: rest))).drop
          4).take u.length = u := List.take_left
      rw [hinner]
      refine .remark (p := "<!--".toList ++ u ++ "--".toList) (w := w) (l := []) rfl rfl ?_
        (by simp [Event.source, commentSource]) hw (by simp)
      exact take_eq_of_append (r := rest) (by simp) (by simp; omega)
    · cases hr

theorem advance_markedSection (h : markedSection ('<' :: '!' :: '[' :: t) = .advance events n next) :
    Advance none ('<' :: '!' :: '[' :: t) events n next := by
  -- both kinds of sections end in the same way, with one bracket more or less
  have hclose : ∀ parts u m, '>' ∉ parts →
      firstMatch? (sectionEnd? (parts ++ ['>'])) t = some (u, m) →
      Step.advance [.markedSection (t.take u)] (3 + u + m) none = .advance events n next →
      Advance none ('<' :: '!' :: '[' :: t) events n next := by
    intro parts u m hparts hm heq
    obtain ⟨u, r, rfl, rfl, hr⟩ := eq_append_of_firstMatch? hm
    unfold sectionEnd? at hr
    split at hr
    · rename_i r
      obtain ⟨k, hk, rfl⟩ := Option.map_eq_some_iff.mp hr
      obtain ⟨w, rest, rfl, rfl, hw⟩ := eq_append_of_spaced? hparts hk
      cases heq
      rw [List.take_left]
      refine .remark (p := "<![".toList ++ u ++ [']']) (w := w) (l := []) rfl rfl ?_
        (by simp [Event.source, declarationSource, sectionDeclaration]) hw (by simp)
      exact take_eq_of_append (r := rest) (by simp) (by simp; omega)
    · cases hr
  unfold markedSection at h
  dsimp only [List.drop_succ_cons, List.drop_zero] at h
  split at h
  · cases h
  · split at h
    · cases h
    · split at h
      · cases h
      · split at h
        · split at h
          · cases h
          · rename_i hm
            exact hclose [']'] _ _ (by decide) hm h
        · split at h
          · split at h
            · cases h
            · rename_i hm
              exact hclose [] _ _ (by decide) hm h
          · cases h

theorem advance_declaration (h : declaration ('<' :: '!' :: t) = .advance events n next) :
    Advance none ('<' :: '!' :: t) events n next := by
  unfold declaration at h
  split at h
  · rename_i heq
    cases heq
    exact advance_comment h
  · rename_i heq
    cases heq
    exact advance_markedSection h
  · split at h
    · split at h
      · cases h
      · rename_i m hm
        obtain ⟨u, r, ht, rfl, hu⟩ := eq_append_of_before_close hm
        replace ht : t.drop 7 = u ++ '>' :: r := ht
        -- the end is searched for behind the word of the declaration
        obtain ⟨v, rfl, hv⟩ : ∃ v, t = v ++ (u ++ '>' :: r) ∧ v.length = 7 := by
          refine ⟨t.take 7, by rw [← ht, List.take_append_drop], ?_⟩
          have hlength := congrArg List.length ht
          rw [List.length_drop, List.length_append, List.length_cons] at hlength
          rw [List.length_take]
          omega
        cases h
        have hinner : (('<' :: '!' :: (v ++ (u ++ '>' :: r))).take (9 + u.length)).drop 2 = v ++ u := by
          rw [take_eq_of_append (v := '<' :: '!' :: (v ++ u)) (r := '>' :: r) (by simp)
            (by simp [hv]; omega)]
          rfl
        rw [hinner]
        exact .declaration rfl (Nat.succ_pos _) (take_eq_of_append (r := r)
          (by simp [declarationSource]) (by simp [declarationSource, hv]; omega))
    · exact advance_bogus h

theorem eq_of_unlessRefused {attributes : List RawAttribute} {tag found : StartTag}
    (h : tag.unlessRefused attributes = found) (hfound : ∀ digits, found ≠ .refused digits) :
    tag = found := by
  unfold StartTag.unlessRefused at h
  split at h
  · exact absurd h.symm (hfound _)
  · exact h

/-- A start tag that was read is not empty. -/
theorem pos_of_read (name t : Text) :
    (∀ n, StartTag.read name t = .junk n → 0 < n) ∧
      ∀ found attributes selfClosing n,
        StartTag.read name t = .complete found attributes selfClosing n → 0 < n := by
  unfold StartTag.read
  dsimp only
  split
  · refine ⟨fun n h => ?_, fun _ _ _ n h => ?_⟩
    · cases eq_of_unlessRefused h nofun
    · cases eq_of_unlessRefused h nofun
      omega
  · refine ⟨fun n h => ?_, fun _ _ _ n h => ?_⟩
    · cases eq_of_unlessRefused h nofun
    · cases eq_of_unlessRefused h nofun
      omega
  · exact ⟨nofun, nofun⟩
  · split
    · exact ⟨nofun, nofun⟩
    · refine ⟨fun n h => ?_, fun _ _ _ n h => ?_⟩
      · cases eq_of_unlessRefused h nofun
        omega
      · cases eq_of_unlessRefused h nofun

theorem advance_startTag {name : Text} (h : startTag name t = .advance events n next) :
    Advance none t events n next := by
  unfold startTag at h
  split at h
  · cases h
  · rename_i m hread
    cases h
    exact .data ((pos_of_read name t).1 _ hread)
  · rename_i hread
    cases h
    exact .emptyTag rfl ((pos_of_read name t).2 _ _ _ _ hread)
  · rename_i hread
    cases h
    exact .startTag rfl ((pos_of_read name t).2 _ _ _ _ hread)
  · cases h

/-- A reference that was read is not empty. -/
theorem pos_of_numberReference (h : numberReference t = some n) : 0 < n := by
  unfold numberReference at h
  extract_lets decimal digits at h
  split at h
  · split at h
    · cases h
    · have := Option.some.inj h
      omega
  · cases h

/-- A reference that was read is not empty. -/
theorem pos_of_nameReference (h : nameReference t = some n) : 0 < n := by
  unfold nameReference at h
  dsimp only at h
  split at h
  · split at h
    · cases h
    · split at h
      · have := Option.some.inj h
        omega
      · obtain ⟨m, _, rfl⟩ := Option.map_eq_some_iff.mp h
        omega
  · cases h

theorem advance_ampersand {atEnd : Bool} (h : ampersand atEnd ('&' :: t) = .advance events n next) :
    Advance none ('&' :: t) events n next := by
  have hsingle : Advance none ('&' :: t) [.data ['&']] 1 none := .data Nat.one_pos
  unfold ampersand at h
  split at h
  · split at h
    · rename_i hm
      cases h
      exact .reference rfl (pos_of_numberReference hm)
    · split at h <;> cases h
  · split at h
    · rename_i hm
      cases h
      exact .reference rfl (pos_of_nameReference hm)
    · split at h
      · cases h
      · split at h
        · cases h
        · cases h
          exact hsingle
      · split at h
        · cases h
        · cases h
          exact hsingle
      · cases h

theorem advance_angle (h : angle none ('<' :: t) = .advance events n next) :
    Advance none ('<' :: t) events n next := by
  unfold angle at h
  split at h
  · exact advance_startTag h
  · rename_i heq
    cases heq
    exact advance_endTag h
  · rename_i heq
    cases heq
    exact advance_instruction h
  · rename_i heq
    cases heq
    exact advance_declaration h
  · split at h
    · cases h
      exact .data Nat.one_pos
    · cases h

/-- **A complete piece has one of the listed forms.** -/
theorem advance_of_piece {atEnd : Bool} (hne : t ≠ [])
    (h : piece atEnd raw t = .advance events n next) : Advance raw t events n next := by
  unfold piece at h
  split at h
  · rename_i name
    split at h
    · cases h
    · rename_i hm
      -- the end tag that was searched for stands right here
      obtain ⟨u, r, rfl, hu, hr⟩ := eq_append_of_firstMatch? hm
      obtain rfl : u = [] := List.length_eq_zero_iff.mp hu
      obtain ⟨r, rfl⟩ : ∃ r', r = '<' :: '/' :: r' := by
        unfold endsRaw at hr
        split at hr
        · exact ⟨_, rfl⟩
        · cases hr
      exact advance_endTag h
    · rename_i hpos hm
      cases h
      exact .data (Nat.pos_of_ne_zero hpos)
  · split at h
    · rename_i hrun
      cases t with
      | nil => exact absurd rfl hne
      | cons c t =>
        split at h
        · rename_i hc
          obtain rfl : c = '&' := by simpa using hc
          exact advance_ampersand h
        · rename_i hc
          obtain rfl : c = '<' := by
            by_contra hlt
            rw [List.takeWhile_cons_of_pos (by simpa [hlt] using hc)] at hrun
            cases hrun
          exact advance_angle h
    · rename_i run hrun
      cases h
      have hdata : Advance none t [.data (t.take (t.takeWhile fun c => c != '<' && c != '&').length)]
          (t.takeWhile fun c => c != '<' && c != '&').length none :=
        .data (List.length_pos_iff.mpr hrun)
      rwa [take_eq_of_append (List.takeWhile_append_dropWhile (l := t)).symm rfl] at hdata

end Constructs

/-! ## Where the cutting stops -/

/-- The forms of a stop at the head of a text: right there, behind an ampersand with a number sign,
or behind an ampersand in front of one last letter, which is left out. -/
inductive Halt (atEnd : Bool) (t : Text) : List Event → Nat → Prop
  | here : Halt atEnd t [] 0
  | sign : Halt atEnd t [.data (t.take 2)] 2
  | lost {a c : Char} (final : atEnd = true) (whole : t = [a, c]) : Halt atEnd t [] 1

section Stops

variable {atEnd : Bool} {raw : Option Text} {t : Text} {events : List Event} {n : Nat}

theorem endTag_ne_stop : endTag raw t ≠ .stop events n := by
  unfold endTag
  split
  · exact nofun
  · dsimp only
    split
    · exact nofun
    · split <;> exact nofun
    · exact nofun
    · split
      · exact nofun
      · split <;> exact nofun

theorem upToTagEnd_ne_stop {event : Text → Event} : upToTagEnd event t ≠ .stop events n := by
  unfold upToTagEnd
  split <;> exact nofun

theorem comment_ne_stop : comment t ≠ .stop events n := by
  unfold comment
  split <;> exact nofun

theorem markedSection_ne_stop : markedSection t ≠ .stop events n := by
  unfold markedSection
  dsimp only
  split
  · exact nofun
  · split
    · exact nofun
    · split
      · exact nofun
      · split
        · split <;> exact nofun
        · split
          · split <;> exact nofun
          · exact nofun

theorem declaration_ne_stop : declaration t ≠ .stop events n := by
  unfold declaration
  split
  · exact comment_ne_stop
  · exact markedSection_ne_stop
  · split
    · split <;> exact nofun
    · exact upToTagEnd_ne_stop

theorem startTag_ne_stop {name : Text} : startTag name t ≠ .stop events n := by
  unfold startTag
  split <;> exact nofun

/-- At an angle bracket the cutting stops only in front of it. -/
theorem eq_of_angle_stop (h : angle raw t = .stop events n) : events = [] ∧ n = 0 := by
  unfold angle at h
  split at h
  · exact absurd h startTag_ne_stop
  · exact absurd h endTag_ne_stop
  · exact absurd h upToTagEnd_ne_stop
  · exact absurd h declaration_ne_stop
  · split at h
    · cases h
    · cases h
      exact ⟨rfl, rfl⟩

theorem halt_of_ampersand (h : ampersand atEnd t = .stop events n) : Halt atEnd t events n := by
  unfold ampersand at h
  split at h
  · split at h
    · cases h
    · split at h
      · cases h
        exact .sign
      · cases h
        exact .here
  · split at h
    · cases h
    · split at h
      · cases h
        exact .here
      · split at h
        · cases h
          split
          · rename_i hend
            exact .lost hend rfl
          · exact .here
        · cases h
      · split at h
        · cases h
          exact .here
        · cases h
      · cases h
        exact .here

/-- **A stop has one of the listed forms.** -/
theorem halt_of_piece (h : piece atEnd raw t = .stop events n) : Halt atEnd t events n := by
  unfold piece at h
  split at h
  · split at h
    · cases h
      exact .here
    · exact absurd h endTag_ne_stop
    · cases h
  · split at h
    · split at h
      · exact halt_of_ampersand h
      · obtain ⟨rfl, rfl⟩ := eq_of_angle_stop h
        exact .here
    · cases h

end Stops

/-! ## Cutting a whole text -/

/-- A piece of a text: the characters it is cut from, and its events. -/
structure Piece where
  cut : Text
  events : List Event

/-- The pieces of a text up to where the cutting stops, with the rest of the text and the raw element
that is open there. -/
inductive Cuts (atEnd : Bool) : Option Text → Text → List Piece → Option Text → Text → Prop
  | done {raw : Option Text} : Cuts atEnd raw [] [] raw []
  | stop {raw : Option Text} {t : Text} {events : List Event} {n : Nat} (nonempty : t ≠ [])
      (step : piece atEnd raw t = .stop events n) :
      Cuts atEnd raw t [⟨t.take n, events⟩] raw (t.drop n)
  | pause {raw : Option Text} {t : Text} (nonempty : t ≠ [])
      (step : piece atEnd raw t = .incomplete) (more : atEnd = false) : Cuts atEnd raw t [] raw t
  | next {raw open' last : Option Text} {t rest : Text} {events : List Event} {n : Nat}
      {pieces : List Piece} (nonempty : t ≠ []) (step : piece atEnd raw t = .advance events n open')
      (tail : Cuts atEnd open' (t.drop n) pieces last rest) :
      Cuts atEnd raw t (⟨t.take n, events⟩ :: pieces) last rest
  | plain {raw last : Option Text} {t rest : Text} {pieces : List Piece} (nonempty : t ≠ [])
      (step : piece atEnd raw t = .incomplete) (final : atEnd = true)
      (tail : Cuts atEnd raw (t.drop (plainLength t)) pieces last rest) :
      Cuts atEnd raw t (⟨t.take (plainLength t), [.data (t.take (plainLength t))]⟩ :: pieces) last
        rest

section Whole

variable {atEnd : Bool} {raw last : Option Text} {t rest : Text} {pieces : List Piece}

/-- Skipped characters belong to a piece before. -/
theorem scanFrom_skip (atEnd : Bool) (skip : Nat) (raw : Option Text) (t : Text) :
    scanFrom atEnd skip raw t = scanFrom atEnd 0 raw (t.drop skip) := by
  induction t generalizing skip with
  | nil => cases skip <;> rfl
  | cons c t ih =>
    cases skip with
    | zero => rfl
    | succ skip => exact ih skip

/-- What is taken as plain text is not empty. -/
theorem plainLength_pos (t : Text) : 0 < plainLength t := by
  unfold plainLength
  split
  · omega
  · split <;> omega

/-- One step of the cutting. -/
theorem scanFrom_of_ne_nil (hne : t ≠ []) :
    scanFrom atEnd 0 raw t =
      match piece atEnd raw t with
      | .refused fault => .error fault
      | .stop events n => .ok ⟨events, t.drop n, raw⟩
      | .advance events n next => (scanFrom atEnd 0 next (t.drop n)).map (·.after events)
      | .incomplete =>
        if atEnd then
          (scanFrom atEnd 0 raw (t.drop (plainLength t))).map
            (·.after [.data (t.take (plainLength t))])
        else .ok ⟨[], t, raw⟩ := by
  have hdrop : ∀ n, 0 < n → ∀ c : Char, ∀ t : Text, t.drop (n - 1) = (c :: t).drop n := by
    intro n hn c t
    cases n with
    | zero => exact absurd hn (Nat.lt_irrefl 0)
    | succ n => rfl
  cases t with
  | nil => exact absurd rfl hne
  | cons c t =>
    rw [scanFrom]
    cases hstep : piece atEnd raw (c :: t) with
    | refused fault => rfl
    | stop events n => rfl
    | advance events n next =>
      dsimp only
      rw [scanFrom_skip, hdrop n (advance_of_piece hne hstep).pos c]
    | incomplete =>
      dsimp only
      rw [scanFrom_skip, hdrop _ (plainLength_pos _) c]

/-- A cutting with further events in front succeeds if the cutting does. -/
theorem exists_of_map_after {scanned : Except Fault Scanned} {events : List Event} {s : Scanned}
    (h : scanned.map (·.after events) = .ok s) :
    ∃ tail, scanned = .ok tail ∧ tail.after events = s := by
  cases scanned with
  | error fault => cases h
  | ok tail => exact ⟨tail, rfl, Except.ok.inj h⟩

/-- **The events of a cut text are those of its pieces.** -/
theorem cuts_of_scanFrom {s : Scanned} (h : scanFrom atEnd 0 raw t = .ok s) :
    ∃ pieces, Cuts atEnd raw t pieces s.raw s.rest ∧ s.events = pieces.flatMap Piece.events := by
  -- a piece is not empty, so that the cutting goes on in a shorter text
  induction hn : t.length using Nat.strong_induction_on generalizing t raw s with
  | _ n ih =>
    subst hn
    by_cases hne : t = []
    · subst hne
      cases h
      exact ⟨[], .done, rfl⟩
    · have hpos : 0 < t.length := List.length_pos_iff.mpr hne
      rw [scanFrom_of_ne_nil hne] at h
      cases hstep : piece atEnd raw t with
      | refused fault =>
        rw [hstep] at h
        cases h
      | stop events n =>
        rw [hstep] at h
        cases h
        exact ⟨_, .stop hne hstep, by simp⟩
      | advance events n next =>
        rw [hstep] at h
        dsimp only at h
        obtain ⟨tail, htail, rfl⟩ := exists_of_map_after h
        have := (advance_of_piece hne hstep).pos
        obtain ⟨pieces, hcuts, hevents⟩ := ih _ (by rw [List.length_drop]; omega) htail rfl
        refine ⟨_, .next hne hstep hcuts, ?_⟩
        rw [Scanned.after, hevents, List.flatMap_cons]
      | incomplete =>
        rw [hstep] at h
        dsimp only at h
        split at h
        · rename_i hend
          obtain ⟨tail, htail, rfl⟩ := exists_of_map_after h
          have := plainLength_pos t
          obtain ⟨pieces, hcuts, hevents⟩ := ih _ (by rw [List.length_drop]; omega) htail rfl
          refine ⟨_, .plain hne hstep hend hcuts, ?_⟩
          rw [Scanned.after, hevents, List.flatMap_cons]
        · rename_i hend
          cases h
          exact ⟨[], .pause hne hstep (by simpa using hend), rfl⟩

/-- The pieces of a text make up its cutting. -/
theorem Cuts.scanFrom_eq (h : Cuts atEnd raw t pieces last rest) :
    scanFrom atEnd 0 raw t = .ok ⟨pieces.flatMap Piece.events, rest, last⟩ := by
  induction h with
  | done => rfl
  | stop hne hstep =>
    rw [scanFrom_of_ne_nil hne, hstep]
    simp
  | pause hne hstep hend =>
    rw [scanFrom_of_ne_nil hne, hstep, hend]
    rfl
  | next hne hstep _ ih =>
    rw [scanFrom_of_ne_nil hne, hstep]
    dsimp only
    rw [ih]
    rfl
  | plain hne hstep hend _ ih =>
    rw [scanFrom_of_ne_nil hne, hstep]
    dsimp only
    rw [ih, if_pos hend]
    rfl

/-- The pieces and the rest are the whole text. -/
theorem Cuts.append_eq (h : Cuts atEnd raw t pieces last rest) :
    pieces.flatMap Piece.cut ++ rest = t := by
  induction h with
  | done => rfl
  | stop => simp
  | pause => rfl
  | next _ _ _ ih | plain _ _ _ _ ih =>
    rw [List.flatMap_cons, List.append_assoc, ih, List.take_append_drop]

end Whole

/-! ## Both times -/

section Both

variable {raw last : Option Text} {t middle rest : Text} {first later : List Piece}

/-- The events of a text are those of the pieces that are cut off the first time and of those that
are cut off from there on the second time; what remains outside a raw element is text. -/
theorem events_of_cuts (hfirst : Cuts false none t first raw middle)
    (hlater : Cuts true raw middle later last rest) :
    events t = .ok (first.flatMap Piece.events ++ later.flatMap Piece.events
      ++ if last.isNone && !rest.isEmpty then [.data rest] else []) := by
  unfold events
  rw [hfirst.scanFrom_eq]
  dsimp only [bind, Except.bind]
  rw [hlater.scanFrom_eq]
  rfl

/-- A text with events falls into pieces. -/
theorem exists_cuts_of_events {found : List Event} (h : events t = .ok found) :
    ∃ first raw middle later last rest,
      Cuts false none t first raw middle ∧ Cuts true raw middle later last rest := by
  unfold events at h
  cases hfirst : scanFrom false 0 none t with
  | error fault =>
    rw [hfirst] at h
    cases h
  | ok one =>
    rw [hfirst] at h
    dsimp only [bind, Except.bind] at h
    cases hlater : scanFrom true 0 one.raw one.rest with
    | error fault =>
      rw [hlater] at h
      cases h
    | ok two =>
      obtain ⟨first, hcuts, -⟩ := cuts_of_scanFrom hfirst
      obtain ⟨later, hcuts', -⟩ := cuts_of_scanFrom hlater
      exact ⟨first, _, _, later, _, _, hcuts, hcuts'⟩

end Both

end DataBinding.Markup
