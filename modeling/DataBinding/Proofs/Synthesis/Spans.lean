/-
# Spans that follow each other

The spans of the references in an accepted text follow each other: none is empty, each ends before the
next one starts, and none cuts a character apart.  Edits of such spans from the last to the first are
independent: whatever the names are, an edit leaves the bytes before it as they were, and with them
every span that is still to be edited.

* `Follow`            : spans of a text that follow each other.
* `spliced_iff`       : these are the spans that can be spliced.
* `references_follow` : the references of an accepted text, and the edits of any of them.
-/
import DataBinding.Proofs.Synthesis.Replacement

namespace DataBinding

/-- A byte of a text that starts at `position` where a character starts or the text ends. -/
def Text.Boundary (position : Nat) (t : Text) (byte : Nat) : Prop :=
  ∃ u v, t = u ++ v ∧ byte = position + Text.byteLength u

/-- Of two ways to part a text, the front of fewer bytes starts the other one. -/
theorem Text.split_of_byteLength_le {u v a b : Text} (h : u ++ v = a ++ b)
    (hle : Text.byteLength u ≤ Text.byteLength a) : ∃ c, a = u ++ c ∧ v = c ++ b := by
  obtain h | ⟨c, rfl, rfl⟩ := List.append_eq_append_iff.mp h
  · exact h
  · have hnil : c = [] := by
      by_contra hc
      have := Text.byteLength_pos hc
      rw [Text.byteLength_append] at hle
      omega
    subst hnil
    exact ⟨[], by simp, rfl⟩

namespace Renaming

/-- Spans in a text that starts at `position`, from left to right: none is empty, none overlaps
another, and each lies in the text between two characters. -/
structure Follow (position : Nat) (t : Text) (spans : List Span) : Prop where
  nonempty : ∀ s ∈ spans, s.start < s.stop
  ordered : spans.Pairwise fun s s' => s.stop ≤ s'.start
  inside : ∀ s ∈ spans, position ≤ s.start ∧ s.stop ≤ position + Text.byteLength t
  whole : ∀ s ∈ spans, Text.Boundary position t s.start ∧ Text.Boundary position t s.stop

namespace Follow

variable {position : Nat} {t : Text} {spans : List Span}

/-- Spans may be left out. -/
theorem sublist {fewer : List Span} (h : Follow position t spans) (hfewer : fewer.Sublist spans) :
    Follow position t fewer where
  nonempty s hs := h.nonempty s (hfewer.subset hs)
  ordered := h.ordered.sublist hfewer
  inside s hs := h.inside s (hfewer.subset hs)
  whole s hs := h.whole s (hfewer.subset hs)

/-- A text in front without spans. -/
theorem behind {lead : Text} (h : Follow (position + Text.byteLength lead) t spans) :
    Follow position (lead ++ t) spans where
  nonempty := h.nonempty
  ordered := h.ordered
  inside s hs := by
    obtain ⟨hstart, hstop⟩ := h.inside s hs
    rw [Text.byteLength_append]
    omega
  whole s hs := by
    -- a boundary of the rest is one of the whole text
    have hwhole : ∀ byte, Text.Boundary (position + Text.byteLength lead) t byte →
        Text.Boundary position (lead ++ t) byte := by
      rintro byte ⟨u, v, rfl, rfl⟩
      exact ⟨lead ++ u, v, by rw [List.append_assoc], by rw [Text.byteLength_append, Nat.add_assoc]⟩
    exact (h.whole s hs).imp (hwhole _) (hwhole _)

/-- A span in front, from the first character on. -/
theorem cons {u : Text} (hu : u ≠ []) (h : Follow (position + Text.byteLength u) t spans) :
    Follow position (u ++ t) (⟨position, position + Text.byteLength u⟩ :: spans) where
  nonempty s hs := by
    rcases List.mem_cons.mp hs with rfl | hs
    · exact Nat.lt_add_of_pos_right (Text.byteLength_pos hu)
    · exact h.nonempty s hs
  ordered := List.Pairwise.cons (fun s hs => (h.inside s hs).1) h.ordered
  inside s hs := by
    rcases List.mem_cons.mp hs with rfl | hs
    · refine ⟨Nat.le_refl _, ?_⟩
      rw [Text.byteLength_append]
      show position + _ ≤ _
      omega
    · exact h.behind.inside s hs
  whole s hs := by
    rcases List.mem_cons.mp hs with rfl | hs
    · exact ⟨⟨[], u ++ t, rfl, rfl⟩, ⟨u, t, rfl, rfl⟩⟩
    · exact h.behind.whole s hs

/-- What stands before, in and behind the first span. -/
theorem uncons {s : Span} (h : Follow position t (s :: spans)) :
    ∃ lead u rest, t = lead ++ (u ++ rest) ∧ u ≠ [] ∧
      s = ⟨position + Text.byteLength lead, position + Text.byteLength lead + Text.byteLength u⟩ ∧
      Follow s.stop rest spans := by
  have hmem : s ∈ s :: spans := List.mem_cons_self ..
  obtain ⟨⟨lead, v, rfl, hstart⟩, ⟨u', rest, hsplit, hstop⟩⟩ := h.whole s hmem
  have hlt := h.nonempty s hmem
  obtain ⟨u, rfl, rfl⟩ := Text.split_of_byteLength_le hsplit (by omega)
  rw [Text.byteLength_append] at hstop
  have hnext : ∀ s' ∈ spans, s.stop ≤ s'.start := fun s' hs' =>
    List.rel_of_pairwise_cons h.ordered hs'
  have hlater : ∀ s' ∈ spans, s' ∈ s :: spans := fun s' hs' => List.mem_cons_of_mem _ hs'
  -- a boundary that is not before the end of the first span is one of what follows the span
  have hbehind : ∀ byte, s.stop ≤ byte → Text.Boundary position (lead ++ (u ++ rest)) byte →
      Text.Boundary s.stop rest byte := by
    rintro byte hle ⟨a, b, hsplit, rfl⟩
    rw [← List.append_assoc] at hsplit
    obtain ⟨c, rfl, rfl⟩ := Text.split_of_byteLength_le hsplit (by
      rw [Text.byteLength_append]
      omega)
    refine ⟨c, b, rfl, ?_⟩
    rw [Text.byteLength_append, Text.byteLength_append]
    omega
  refine ⟨lead, u, rest, rfl, ?_, ?_, ?_⟩
  · rintro rfl
    have : Text.byteLength [] = 0 := rfl
    omega
  · rw [Nat.add_assoc, ← hstart, ← hstop]
  · refine ⟨fun s' hs' => h.nonempty s' (hlater s' hs'), h.ordered.of_cons, fun s' hs' => ?_,
      fun s' hs' => ?_⟩
    · have hinside := (h.inside s' (hlater s' hs')).2
      rw [Text.byteLength_append, Text.byteLength_append] at hinside
      exact ⟨hnext s' hs', by omega⟩
    · have hle := hnext s' hs'
      have := h.nonempty s' (hlater s' hs')
      exact (h.whole s' (hlater s' hs')).imp (hbehind _ hle) (hbehind _ (by omega))

end Follow

/-! ## Splicing -/

section Spliced

variable {position : Nat} {t s : Text} {renamings : List Renaming}

/-- Renamings that can be spliced have spans that follow each other. -/
theorem Spliced.follow (h : Spliced position t renamings s) :
    Follow position t (renamings.map (·.span)) := by
  induction h with
  | nil => exact ⟨nofun, .nil, nofun, nofun⟩
  | @keep position c t _ _ _ ih =>
    have hone : position + Text.byteLength [c] = position + c.utf8Size := rfl
    have hrest : Follow (position + Text.byteLength [c]) t _ := hone ▸ ih
    exact hrest.behind
  | swap nonempty _ ih => exact .cons nonempty ih

/-- Spans that follow each other can be spliced, with any names. -/
theorem Follow.spliced (h : Follow position t (renamings.map (·.span))) :
    ∃ s, Spliced position t renamings s := by
  induction renamings generalizing position t with
  | nil =>
    have hkept : Spliced position (t ++ []) [] (t ++ []) := Spliced.nil.keepAll
    exact ⟨_, List.append_nil t ▸ hkept⟩
  | cons r renamings ih =>
    obtain ⟨lead, u, rest, rfl, hu, hspan, hrest⟩ := h.uncons
    obtain ⟨s, hs⟩ := ih hrest
    rw [hspan] at hs
    obtain ⟨span, name⟩ := r
    obtain rfl : span = _ := hspan
    exact ⟨_, (Spliced.swap hu hs).keepAll⟩

/-- **Spans can be spliced exactly if they follow each other.** -/
theorem spliced_iff :
    (∃ s, Spliced position t renamings s) ↔ Follow position t (renamings.map (·.span)) :=
  ⟨fun ⟨_, h⟩ => h.follow, Follow.spliced⟩

end Spliced

/-! ## Edits -/

/-- The edits of later spans leave the bytes before them as they were. -/
theorem Spliced.take_eq {position n : Nat} {t s : Text} {renamings : List Renaming}
    (h : Spliced position t renamings s) (hn : ∀ r ∈ renamings, position + n ≤ r.span.start) :
    (Text.encode s).take n = (Text.encode t).take n := by
  induction h generalizing n with
  | nil => rfl
  | @keep position c t s _ rest ih =>
    have hone : (Text.encode [c]).length = c.utf8Size := Text.length_encode [c]
    show (Text.encode ([c] ++ s)).take n = (Text.encode ([c] ++ t)).take n
    rw [Text.encode_append, Text.encode_append, List.take_append, List.take_append, hone]
    congr 1
    refine ih fun r hr => ?_
    have hstart := rest.start_le r hr
    have := hn r hr
    omega
  | swap =>
    have hzero : n = 0 := Nat.le_zero.mp (Nat.le_of_add_le_add_left (hn _ (List.mem_cons_self ..)))
    rw [hzero, List.take_zero, List.take_zero]

/-- **Edits from the last to the first.**  When the later ones are done, the text is whole and the
spans of the earlier ones hold what they held at first. -/
theorem Follow.edits {t : Text} {earlier later : List Renaming}
    (h : Follow 0 t ((earlier ++ later).map (·.span))) :
    lastFirst (earlier ++ later) = lastFirst later ++ lastFirst earlier ∧
      ∃ s, Spliced 0 t later s ∧ (lastFirst later).foldl apply (Text.encode t) = Text.encode s ∧
        ∀ r ∈ earlier, (Text.encode s).take r.span.stop = (Text.encode t).take r.span.stop := by
  rw [List.map_append] at h
  have hordered := List.pairwise_append.mp h.ordered
  obtain ⟨s, hlater⟩ := (h.sublist (List.sublist_append_right ..)).spliced
  obtain ⟨s', hearlier⟩ := (h.sublist (List.sublist_append_left ..)).spliced
  rw [← List.map_append] at h
  obtain ⟨s'', hall⟩ := h.spliced
  refine ⟨?_, s, hlater, ?_, fun r hr => hlater.take_eq fun r' hr' => ?_⟩
  · rw [lastFirst_eq hall.pairwise, lastFirst_eq hlater.pairwise, lastFirst_eq hearlier.pairwise,
      List.reverse_append]
  · have hbytes := foldr_apply_spliced hlater [] rfl
    rwa [List.nil_append, List.nil_append, ← List.foldl_reverse, ← lastFirst_eq hlater.pairwise]
      at hbytes
  · rw [Nat.zero_add]
    exact hordered.2.2 _ (List.mem_map_of_mem hr) _ (List.mem_map_of_mem hr')

/-! ## The references of an accepted text -/

open Expression in
/-- **The references of an accepted text follow each other**, so that any of them can be renamed: while
the edits go from the last span to the first, the text stays whole and no span that is still to be used
moves. -/
theorem references_follow {t : Text} {e : Expr} (h : parse t = .ok e) :
    Follow 0 t (e.references.map (·.span)) ∧
      ∀ renamings : List Renaming,
        (renamings.map (·.span)).Sublist (e.references.map (·.span)) →
        (∃ s, applyAll t renamings = .ok s ∧ Spliced 0 t renamings s) ∧
          ∀ earlier later, renamings = earlier ++ later →
            lastFirst renamings = lastFirst later ++ lastFirst earlier ∧
              ∃ s, (lastFirst later).foldl apply (Text.encode t) = Text.encode s ∧
                ∀ r ∈ earlier,
                  (Text.encode s).take r.span.stop = (Text.encode t).take r.span.stop := by
  obtain ⟨s, hreplaced⟩ := Synthesis.exists_replaced h always id
  have hfollow : Follow 0 t (e.references.map (·.span)) := by
    have := hreplaced.spliced.follow
    rwa [show e.references.filter always = e.references from List.filter_true _,
      List.map_map] at this
  refine ⟨hfollow, fun renamings hsome => ?_⟩
  have hsub := hfollow.sublist hsome
  obtain ⟨s', hspliced⟩ := hsub.spliced
  refine ⟨⟨s', applyAll_spliced hspliced, hspliced⟩, ?_⟩
  rintro earlier later rfl
  obtain ⟨horder, s, -, hbytes, htake⟩ := hsub.edits
  exact ⟨horder, s, hbytes, htake⟩

/-- A text with a long character, and with parentheses that belong to the span of a reference. -/
def accentText : Text :=
  "é.b+(c).d".toList

/-- The expression of the text. -/
def accentExpr : Expr :=
  .binary ⟨0, 10⟩ .add (.member ⟨0, 4⟩ (.identifier ⟨0, 2⟩ ['é']) ['b'] false)
    (.member ⟨5, 10⟩ (.identifier ⟨6, 7⟩ ['c']) ['d'] false)

open Expression in
/-- Its two references follow each other, and the second one can be renamed before the first. -/
theorem references_follow_accentText :
    parse accentText = .ok accentExpr ∧
      accentExpr.references = [⟨"é.b".toList, 0, 4⟩, ⟨"c.d".toList, 5, 10⟩] ∧
      Follow 0 accentText (accentExpr.references.map (·.span)) ∧
      ∃ s, applyAll accentText [⟨⟨0, 4⟩, "é__b".toList⟩, ⟨⟨5, 10⟩, "c__d".toList⟩] = .ok s := by
  have hparse : parse accentText = .ok accentExpr :=
    Synthesis.parse_eq_ok (w := [⟨.word ['é'], 0, 2⟩, ⟨.mark .dot, 2, 3⟩, ⟨.word ['b'], 3, 4⟩,
        ⟨.mark (.binary .add), 4, 5⟩, ⟨.mark .openParen, 5, 6⟩, ⟨.word ['c'], 6, 7⟩,
        ⟨.mark .closeParen, 7, 8⟩, ⟨.mark .dot, 8, 9⟩, ⟨.word ['d'], 9, 10⟩])
      (o := ⟨accentExpr, ⟨0, 10⟩, 3⟩) (by decide) (by decide +kernel) rfl (by decide)
  obtain ⟨hfollow, hedits⟩ := references_follow hparse
  obtain ⟨⟨s, hs, -⟩, -⟩ := hedits [⟨⟨0, 4⟩, "é__b".toList⟩, ⟨⟨5, 10⟩, "c__d".toList⟩] (by decide)
  exact ⟨hparse, by decide, hfollow, s, hs⟩

end Renaming
end DataBinding
