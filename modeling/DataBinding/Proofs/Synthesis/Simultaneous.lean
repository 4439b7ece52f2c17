/-
# Renamings in any order

Renamings whose spans are apart replace all of them at once: their spans cut the text into gaps and
written spans, and applying them gives the same gaps with the names between them.  Neither the order
in which the renamings are listed nor the lengths of the names matter, although the edits are made one
after the other on bytes that change.

* `Apart.lastFirst_eq`    : the edits are made in one order, however the renamings are listed;
* `Follow.exists_cut`     : the gaps and the written spans of a text;
* `applyAll_simultaneous` : what renamings whose spans are apart lead to.
-/
import DataBinding.Proofs.Synthesis.Spans

namespace DataBinding.Renaming

variable {position : Nat} {t last : Text} {renamings order : List Renaming}

/-! ## The order of the edits -/

theorem insert_perm (r : Renaming) (renamings : List Renaming) :
    (insert r renamings).Perm (r :: renamings) := by
  induction renamings with
  | nil => exact .refl _
  | cons s rest ih =>
    rw [insert]
    split
    · exact .refl _
    · exact (ih.cons s).trans (.swap r s rest)

/-- The edits are those that are listed. -/
theorem lastFirst_perm (renamings : List Renaming) : (lastFirst renamings).Perm renamings := by
  induction renamings with
  | nil => exact .refl _
  | cons r renamings ih => exact (insert_perm r (lastFirst renamings)).trans (ih.cons r)

theorem pairwise_insert {r : Renaming}
    (h : renamings.Pairwise fun s s' => s'.span.start ≤ s.span.start) :
    (insert r renamings).Pairwise fun s s' => s'.span.start ≤ s.span.start := by
  induction h with
  | nil => exact List.pairwise_singleton ..
  | @cons s rest hs hrest ih =>
    rw [insert]
    split
    · rename_i hle
      refine .cons (fun s' hs' => ?_) (.cons hs hrest)
      rcases List.mem_cons.mp hs' with rfl | hs'
      · exact hle
      · exact Nat.le_trans (hs s' hs') hle
    · rename_i hlt
      refine .cons (fun s' hs' => ?_) ih
      rcases List.mem_cons.mp ((insert_perm r rest).mem_iff.mp hs') with rfl | hs'
      · exact Nat.le_of_not_le hlt
      · exact hs s' hs'

/-- No edit starts behind one that is made before it. -/
theorem pairwise_lastFirst (renamings : List Renaming) :
    (lastFirst renamings).Pairwise fun s s' => s'.span.start ≤ s.span.start := by
  induction renamings with
  | nil => exact .nil
  | cons r renamings ih => exact pairwise_insert ih

/-- The renaming of the same span to another name. -/
def withName (name : Renaming → Text) (r : Renaming) : Renaming :=
  ⟨r.span, name r⟩

/-- Other names do not change the order of the edits. -/
theorem lastFirst_withName (name : Renaming → Text) (renamings : List Renaming) :
    lastFirst (renamings.map (withName name)) = (lastFirst renamings).map (withName name) := by
  have hinsert : ∀ (r : Renaming) (renamings : List Renaming),
      insert (withName name r) (renamings.map (withName name))
        = (insert r renamings).map (withName name) := by
    intro r renamings
    induction renamings with
    | nil => rfl
    | cons s rest ih =>
      have hsame : ∀ r, (withName name r).span = r.span := fun _ => rfl
      rw [List.map_cons, insert, insert, hsame, hsame, ih]
      split <;> rfl
  induction renamings with
  | nil => rfl
  | cons r renamings ih =>
    show insert (withName name r) (lastFirst (renamings.map (withName name)))
      = (insert r (lastFirst renamings)).map (withName name)
    rw [ih, hinsert]

/-- Renamings of a text whose spans are apart: none is empty, no two of them share a byte, and each
lies in the text between two characters. -/
structure Apart (t : Text) (renamings : List Renaming) : Prop where
  nonempty : ∀ r ∈ renamings, r.span.start < r.span.stop
  disjoint : renamings.Pairwise fun r r' =>
    r.span.stop ≤ r'.span.start ∨ r'.span.stop ≤ r.span.start
  inside : ∀ r ∈ renamings, r.span.stop ≤ (Text.encode t).length
  whole : ∀ r ∈ renamings, Text.Boundary 0 t r.span.start ∧ Text.Boundary 0 t r.span.stop

namespace Apart

/-- Spans that are apart are so in any order. -/
theorem perm (h : Apart t renamings) (horder : order.Perm renamings) : Apart t order where
  nonempty r hr := h.nonempty r (horder.mem_iff.mp hr)
  disjoint := (horder.pairwise_iff fun h => Or.symm h).mpr h.disjoint
  inside r hr := h.inside r (horder.mem_iff.mp hr)
  whole r hr := h.whole r (horder.mem_iff.mp hr)

/-- Each edit is made behind all those that are made after it. -/
theorem pairwise_lastFirst (h : Apart t renamings) :
    (lastFirst renamings).Pairwise fun r r' => r'.span.stop ≤ r.span.start := by
  have happart := h.perm (lastFirst_perm renamings)
  -- of two spans that are apart, the one that starts later lies behind the other
  refine ((Renaming.pairwise_lastFirst renamings).and happart.disjoint).imp_of_mem ?_
  rintro r r' hr - ⟨hstart, hbefore | hbehind⟩
  · have := happart.nonempty r hr
    omega
  · exact hbehind

/-- **The edits are made in one order**, however the renamings are listed. -/
theorem lastFirst_eq (h : Apart t renamings) (horder : order.Perm renamings) :
    lastFirst order = lastFirst renamings := by
  have hperm : (lastFirst order).Perm (lastFirst renamings) :=
    (lastFirst_perm order).trans (horder.trans (lastFirst_perm renamings).symm)
  refine hperm.eq_of_pairwise ?_ (h.perm horder).pairwise_lastFirst h.pairwise_lastFirst
  intro r r' hr hr' hbehind hbefore
  -- two spans with bytes cannot both lie behind each other
  have := (h.perm horder).nonempty r ((lastFirst_perm order).mem_iff.mp hr)
  have := h.nonempty r' ((lastFirst_perm renamings).mem_iff.mp hr')
  omega

/-- From left to right the spans follow each other. -/
theorem follow (h : Apart t renamings) :
    Follow 0 t ((lastFirst renamings).reverse.map (·.span)) := by
  have hmem : ∀ r, r ∈ (lastFirst renamings).reverse → r ∈ renamings := fun r hr =>
    (lastFirst_perm renamings).mem_iff.mp (List.mem_reverse.mp hr)
  refine ⟨?_, ?_, ?_, ?_⟩
  · exact List.forall_mem_map.mpr fun r hr => h.nonempty r (hmem r hr)
  · exact List.pairwise_map.mpr (List.pairwise_reverse.mpr h.pairwise_lastFirst)
  · refine List.forall_mem_map.mpr fun r hr => ⟨Nat.zero_le _, ?_⟩
    rw [Nat.zero_add, ← Text.length_encode]
    exact h.inside r (hmem r hr)
  · exact List.forall_mem_map.mpr fun r hr => h.whole r (hmem r hr)

end Apart

/-! ## Gaps and written spans -/

/-- A stretch of a text: the characters of a gap, and behind them the span of a renaming as it is
written. -/
structure Stretch where
  gap : Text
  edit : Renaming
  written : Text

/-- A text from a byte on, cut at the spans of renamings from left to right: a gap, a span, a gap, a
span, and so on up to the last gap. -/
inductive Cut : Nat → Text → List Stretch → Text → Prop
  | last {position : Nat} {gap : Text} : Cut position gap [] gap
  | next {position : Nat} {gap written t last : Text} {r : Renaming} {stretches : List Stretch}
      (nonempty : written ≠ []) (start : r.span.start = position + Text.byteLength gap)
      (stop : r.span.stop = r.span.start + Text.byteLength written)
      (rest : Cut r.span.stop t stretches last) :
      Cut position (gap ++ (written ++ t)) (⟨gap, r, written⟩ :: stretches) last

/-- The gaps in their order, with a name for each renaming in the place of its span. -/
def filled (name : Renaming → Text) : List Stretch → Text → Text
  | [], last => last
  | s :: stretches, last => s.gap ++ (name s.edit ++ filled name stretches last)

/-- Spans that follow each other cut a text. -/
theorem Follow.exists_cut (h : Follow position t (renamings.map (·.span))) :
    ∃ stretches last, Cut position t stretches last ∧ stretches.map (·.edit) = renamings := by
  induction renamings generalizing position t with
  | nil => exact ⟨[], t, .last, rfl⟩
  | cons r renamings ih =>
    obtain ⟨gap, written, rest, rfl, hne, hspan, hrest⟩ := h.uncons
    obtain ⟨stretches, last, hcut, hmap⟩ := ih hrest
    have hstart : r.span.start = position + Text.byteLength gap := congrArg Span.start hspan
    have hstop : r.span.stop = r.span.start + Text.byteLength written := by
      rw [hstart]
      exact congrArg Span.stop hspan
    exact ⟨⟨gap, r, written⟩ :: stretches, last, .next hne hstart hstop hcut, congrArg _ hmap⟩

/-- A text that is cut is spliced with any names. -/
theorem Cut.spliced {stretches : List Stretch} (h : Cut position t stretches last)
    (name : Renaming → Text) :
    Spliced position t ((stretches.map (·.edit)).map (withName name))
      (filled name stretches last) := by
  induction h with
  | @last position gap =>
    have hkept : Spliced position (gap ++ []) [] (gap ++ []) := Spliced.nil.keepAll
    rwa [List.append_nil] at hkept
  | @next position gap written t last r stretches nonempty start stop _ ih =>
    have hspan : r.span = ⟨position + Text.byteLength gap,
        position + Text.byteLength gap + Text.byteLength written⟩ := by
      rw [← start, ← stop]
    rw [stop, start] at ih
    rw [List.map_cons, List.map_cons, withName, hspan]
    exact (Spliced.swap nonempty ih).keepAll

/-! ## All renamings together -/

/-- **Renamings whose spans are apart replace all of them at once.**  The text is cut into gaps and
written spans; listed in any order and with any names, the renamings give the gaps with the names
between them. -/
theorem applyAll_simultaneous (h : Apart t renamings) :
    ∃ stretches last, Cut 0 t stretches last ∧ (stretches.map (·.edit)).Perm renamings ∧
      ∀ order : List Renaming, order.Perm renamings →
        applyAll t order = .ok (filled (·.name) stretches last) ∧
        ∀ name : Renaming → Text,
          applyAll t (order.map (withName name)) = .ok (filled name stretches last) := by
  -- the text is cut once; neither the order nor the names have a part in it
  obtain ⟨stretches, last, hcut, hmap⟩ := h.follow.exists_cut
  have hperm : (stretches.map (·.edit)).Perm renamings := by
    rw [hmap]
    exact (List.reverse_perm _).trans (lastFirst_perm renamings)
  have hnames : ∀ order : List Renaming, order.Perm renamings → ∀ name : Renaming → Text,
      applyAll t (order.map (withName name)) = .ok (filled name stretches last) := by
    intro order horder name
    rw [← applyAll_spliced (hcut.spliced name), applyAll, applyAll, lastFirst_withName,
      lastFirst_withName, h.lastFirst_eq horder, h.lastFirst_eq hperm]
  refine ⟨stretches, last, hcut, hperm, fun order horder => ⟨?_, hnames order horder⟩⟩
  have hown : order.map (withName (·.name)) = order := List.map_id' order
  rw [← hnames order horder (·.name), hown]

/-- Names for two spans behind long characters, the later one first: a longer one and an empty one. -/
def accentRenamings : List Renaming :=
  [⟨⟨5, 10⟩, "parameter".toList⟩, ⟨⟨0, 4⟩, []⟩]

/-- Both spans are replaced at once. -/
theorem applyAll_simultaneous_accentText :
    Apart accentText accentRenamings ∧
      ∃ stretches last, Cut 0 accentText stretches last ∧
        (stretches.map (·.edit)).Perm accentRenamings ∧
        ∀ order : List Renaming, order.Perm accentRenamings →
          applyAll accentText order = .ok (filled (·.name) stretches last) ∧
          ∀ name : Renaming → Text, applyAll accentText (order.map (withName name))
            = .ok (filled name stretches last) := by
  have happart : Apart accentText accentRenamings := by
    refine ⟨by decide, by decide, by decide, ?_⟩
    intro r hr
    rcases List.mem_cons.mp hr with rfl | hr
    · exact ⟨⟨"é.b+".toList, "(c).d".toList, rfl, by decide⟩, ⟨accentText, [], rfl, by decide⟩⟩
    · obtain rfl := List.mem_singleton.mp hr
      exact ⟨⟨[], accentText, rfl, by decide⟩, ⟨"é.b".toList, "+(c).d".toList, rfl, by decide⟩⟩
  exact ⟨happart, applyAll_simultaneous happart⟩

end DataBinding.Renaming
