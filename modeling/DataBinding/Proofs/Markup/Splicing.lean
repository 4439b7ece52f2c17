/-
# Start tags with values put in place

A start tag is read as attributes, and cut into slots when values are put in place.  The two ways go
apart in a few spellings only: where several equals signs stand in a row, where a name starts with an
equals sign, and where a quote has no partner.  Everywhere else the slots are the rows that are read,
and a tag with new values is read as the rows with these values.

* `writtenValue?_of_orderly` : where equals signs are orderly, both ways find the same value;
* `exists_renewed`           : the text with new values in place;
* `Listed.renewed`           : it is read as the rows with these values.
-/
import DataBinding.Markup.Splice
import DataBinding.Proofs.Markup.Escaping
import DataBinding.Proofs.Markup.Rows

namespace DataBinding.Markup

/-! ## Attributes with all that follows them -/

/-- An attribute of a start tag as it is read: its name, and the whole text behind the name. -/
structure Entry where
  name : Text
  behind : Text

namespace Entry

/-- The name starts with an equals sign, or the value with a quote that has no partner.  What stands
behind such an attribute may be read in another way than it is cut. -/
def hides (entry : Entry) : Bool :=
  entry.name.head? == some '=' || isUnpaired entry.behind

/-- There is one equals sign at most, or the value ends where the first run of characters behind the
signs ends. -/
def isOrderly (entry : Entry) : Bool :=
  let start := blanks entry.behind + signs entry.behind
  signs entry.behind ≤ 1 || (attributeValue? entry.behind).map (·.2)
    == some (start + ((entry.behind.drop start).takeWhile isBarePart).length)

end Entry

/-- The attributes at the head of a text; the first `skip` characters belong to one before. -/
def entriesFrom : (skip : Nat) → (previous : Char) → Text → List Entry
  | _, _, [] => []
  | skip + 1, _, c :: t => entriesFrom skip c t
  | 0, previous, c :: t =>
    match attribute? previous (c :: t) with
    | none => []
    | some (found, n) => ⟨found.name, (c :: t).drop found.name.length⟩ :: entriesFrom (n - 1) c t

/-- The attributes that rows are read as. -/
def rowsEntries : List Row → Text → List Entry
  | [], _ => []
  | row :: rows, last =>
    ⟨row.name, row.value ++ (row.gap ++ rowsText rows last)⟩ :: rowsEntries rows last

theorem entriesFrom_skip {skip : Nat} {previous : Char} {t : Text} (h : skip ≤ t.length) :
    entriesFrom skip previous t = entriesFrom 0 ((t.take skip).getLastD previous) (t.drop skip) := by
  induction skip generalizing previous t with
  | zero => rfl
  | succ skip ih =>
    cases t with
    | nil => simp at h
    | cons c t =>
      rw [List.take_succ_cons, List.drop_succ_cons, List.getLastD_cons, ← ih (by simpa using h)]
      rfl

-- the reading of one attribute stays closed while its result is taken apart
attribute [local irreducible] attribute? in
theorem entriesFrom_cons (previous c : Char) (t : Text) :
    entriesFrom 0 previous (c :: t) =
      match attribute? previous (c :: t) with
      | none => []
      | some (found, n) =>
        ⟨found.name, (c :: t).drop found.name.length⟩ :: entriesFrom (n - 1) c t :=
  rfl

/-- A row is read as its entry, and then the others are read. -/
theorem entriesFrom_row {row : Row} {r : Text} {previous : Char} (hmay : mayPrecede previous = true)
    (h : row.Reads r) :
    entriesFrom 0 previous (row.text ++ r)
      = ⟨row.name, row.value ++ (row.gap ++ r)⟩ :: entriesFrom 0 (row.text.getLastD previous) r := by
  have hattribute := attribute?_eq hmay h
  have hpos := h.length_pos
  have hdrop : (row.text ++ r).drop row.name.length = row.value ++ (row.gap ++ r) := by
    rw [row.text_append, List.drop_left]
  cases htext : row.text with
  | nil =>
    rw [htext] at hpos
    exact absurd hpos (Nat.lt_irrefl 0)
  | cons c t =>
    rw [htext] at hattribute hdrop
    have hlength : t.length ≤ (t ++ r).length := by simp
    rw [List.cons_append, entriesFrom_cons, ← List.cons_append, hattribute]
    simp only [List.length_cons, Nat.add_sub_cancel]
    rw [entriesFrom_skip hlength, List.take_left, List.drop_left, List.getLastD_cons, ← hdrop]
    rfl

/-- **Rows are read as their entries.** -/
theorem Listed.entriesFrom_eq {previous : Char} {rows : List Row} {last : Text}
    (h : Listed previous rows last) :
    entriesFrom 0 previous (rowsText rows last) = rowsEntries rows last := by
  induction h with
  | @done previous last hstop =>
    cases last with
    | nil => rfl
    | cons c t =>
      have hnone : attribute? previous (c :: t) = none := by
        rw [attribute?]
        simp [hstop]
      rw [rowsText, List.flatMap_nil, List.nil_append, entriesFrom_cons, hnone]
      rfl
  | next hmay hhead _ ih => rw [rowsText_cons, entriesFrom_row hmay hhead, ih, rowsEntries]

/-! ## Slots -/

/-- Without equals signs no value is cut. -/
theorem writtenValue?_of_signs {t : Text} (h : signs t = 0) : writtenValue? t = none := by
  rw [signs_eq_zero_iff, ← Text.drop_length_takeWhile] at h
  rw [writtenValue?]
  split
  · rename_i r hdrop
    rw [blanks] at hdrop
    rw [hdrop] at h
    exact absurd rfl h
  · rfl

section Leads

variable {i : Indicator} {rest : Text}

/-- The first sign stands behind the blanks. -/
theorem Indicator.Leads.drop_before_length {k : Nat} (h : i.Leads rest) (hk : i.signs = k + 1) :
    (i.text ++ rest).drop i.before.length
      = '=' :: (List.replicate k '=' ++ (i.after ++ rest)) := by
  rw [← h.blanks_eq, h.drop_before, hk, List.replicate_succ, List.cons_append]

/-- Behind a single sign the cut takes the value that is read. -/
theorem writtenValue?_single (h : i.Leads rest) (hone : i.signs = 1) :
    (writtenValue? (i.text ++ rest)).map (fun w => w.1 + w.2.length)
      = (attributeValue? (i.text ++ rest)).map (·.2) := by
  have hlength := i.length_text
  rw [writtenValue?]
  simp only [h.blanks_eq, h.drop_before_length (k := 0) hone]
  rw [List.replicate_zero, List.nil_append, h.blanks_after, List.drop_left, attributeValue?_eq h]
  cases hcontents : quotedContents? rest with
  | some contents =>
    obtain ⟨quote, r, rfl, -, -⟩ := quotedContents?_eq_some_iff.mp hcontents
    simp only [Option.map_some, List.length_take, List.length_cons, List.length_append,
      Option.some.injEq]
    omega
  | none =>
    cases hquote : startsQuote rest with
    | false =>
      simp only [Bool.false_eq_true, if_false, Option.map_some, Option.some.injEq]
      omega
    | true =>
      by_cases hafter : 0 < i.after.length
      · simp only [if_true, if_pos hafter, Option.map_some, List.length_nil, Option.some.injEq]
        omega
      · simp [hafter, hone]

/-- Behind several signs the cut takes a run of characters. -/
theorem writtenValue?_several (h : i.Leads rest) (hmany : 1 < i.signs) :
    (writtenValue? (i.text ++ rest)).map (fun w => w.1 + w.2.length)
      = some (i.before.length + i.signs + ((i.after ++ rest).takeWhile isBarePart).length) := by
  obtain ⟨k, hk⟩ : ∃ k, i.signs = k + 1 + 1 := ⟨i.signs - 2, by omega⟩
  have hnone : quotedContents? ('=' :: (List.replicate k '=' ++ (i.after ++ rest))) = none :=
    quotedContents?_of_startsQuote rfl
  have hblanks : blanks ('=' :: (List.replicate k '=' ++ (i.after ++ rest))) = 0 := rfl
  have hquote : startsQuote ('=' :: (List.replicate k '=' ++ (i.after ++ rest))) = false := rfl
  have hrun : (('=' :: (List.replicate k '=' ++ (i.after ++ rest))).takeWhile isBarePart).length
      = k + 1 + ((i.after ++ rest).takeWhile isBarePart).length := by
    have hbare : ∀ c ∈ List.replicate (k + 1) '=', isBarePart c = true := by
      intro c hc
      rw [List.eq_of_mem_replicate hc]
      decide
    rw [← List.cons_append, ← List.replicate_succ, List.takeWhile_append_of_pos hbare,
      List.length_append, List.length_replicate]
  rw [writtenValue?]
  simp only [h.blanks_eq, h.drop_before_length hk]
  rw [List.replicate_succ, List.cons_append, hblanks, List.drop_zero, hnone, hquote]
  simp only [Bool.false_eq_true, if_false, Option.map_some, hrun, Option.some.injEq]
  omega

end Leads

/-- **The value that is cut** is as long as the one that is read. -/
theorem writtenValue?_of_orderly {entry : Entry} (h : entry.isOrderly = true) :
    (writtenValue? entry.behind).map (fun w => w.1 + w.2.length)
      = (attributeValue? entry.behind).map (·.2) := by
  obtain ⟨name, t⟩ := entry
  unfold Entry.isOrderly at h
  dsimp only at h ⊢
  by_cases hsigns : signs t = 0
  · rw [attributeValue?_of_signs hsigns, writtenValue?_of_signs hsigns]
    rfl
  · obtain ⟨i, rest, rfl, hleads⟩ := exists_indicator hsigns
    have hpos := hleads.pos
    rcases Nat.lt_or_ge 1 i.signs with hmany | hone
    · rw [hleads.drop_signs, hleads.signs_eq, hleads.blanks_eq, Bool.or_eq_true, decide_eq_true_eq,
        or_iff_right (Nat.not_le.mpr hmany), beq_iff_eq] at h
      rw [writtenValue?_several hleads hmany, h]
    · exact writtenValue?_single hleads (by omega)

/-- Blanks and slashes in front of a name are cut off with it. -/
theorem takeWhile_gap {b r : Text} (hb : ∀ c ∈ b, (c == '/' || Text.isBlank c) = true)
    (hr : ∀ c, r.head? = some c → Text.isBlank c = false ∧ c ≠ '/') :
    (b ++ r).takeWhile (fun c => c == '/' || Text.isBlank c) = b := by
  refine Text.takeWhile_append_stop hb fun c hc => ?_
  obtain ⟨hblank, hslash⟩ := hr c hc
  simp [hblank, hslash]

/-- No slot is cut where no name starts. -/
theorem slot?_of_stop {b r : Text} (hb : ∀ c ∈ b, (c == '/' || Text.isBlank c) = true)
    (hr : ∀ c, r.head? = some c → c = '=' ∨ c = '>') : slot? (b ++ r) = none := by
  have hgap : (b ++ r).takeWhile (fun c => c == '/' || Text.isBlank c) = b := by
    refine takeWhile_gap hb fun c hc => ?_
    rcases hr c hc with rfl | rfl <;> decide
  have hname : r.takeWhile isAttributeNamePart = [] := by
    cases r with
    | nil => rfl
    | cons c r =>
      refine List.takeWhile_cons_of_neg ?_
      rcases hr c rfl with rfl | rfl <;> decide
  rw [slot?]
  simp [hgap, hname]

/-- The end of a start tag. -/
def IsTagEnd (last : Text) : Prop :=
  last = ['>'] ∨ last = ['/', '>']

/-- No slot is cut at the end of a tag. -/
theorem slot?_tagEnd {b last : Text} (hb : ∀ c ∈ b, (c == '/' || Text.isBlank c) = true)
    (hlast : IsTagEnd last) : slot? (b ++ last) = none := by
  rcases hlast with rfl | rfl
  · refine slot?_of_stop hb fun c hc => ?_
    exact .inr (Option.some.inj hc).symm
  · have hslash : ∀ c ∈ b ++ ['/'], (c == '/' || Text.isBlank c) = true := by
      rw [List.forall_mem_append]
      exact ⟨hb, by simp⟩
    have hsplit : b ++ ['/', '>'] = (b ++ ['/']) ++ ['>'] := by
      simp
    rw [hsplit]
    refine slot?_of_stop hslash fun c hc => ?_
    exact .inr (Option.some.inj hc).symm

section Row

variable {row : Row} {b r : Text}

/-- What stands in front of a row is cut off up to its name. -/
theorem Row.Reads.takeWhile_gap (h : row.Reads r)
    (hb : ∀ c ∈ b, (c == '/' || Text.isBlank c) = true) :
    (b ++ (row.text ++ r)).takeWhile (fun c => c == '/' || Text.isBlank c) = b := by
  refine Markup.takeWhile_gap hb fun c hc => ?_
  obtain ⟨d, more, heq, hblank, hslash, -⟩ := h.name.head (r := row.value ++ (row.gap ++ r))
  rw [row.text_append, heq, List.head?_cons, Option.some.injEq] at hc
  subst hc
  exact ⟨hblank, hslash⟩

/-- A name that starts with no equals sign is cut whole. -/
theorem Row.Reads.takeWhile_name (h : row.Reads r) (hname : row.name.head? ≠ some '=') :
    (row.text ++ r).takeWhile isAttributeNamePart = row.name := by
  rw [row.text_append]
  refine Text.takeWhile_append_stop (fun c hc => ?_) h.stop
  obtain ⟨d, more, heq, hd, hmore⟩ := h.name
  rw [heq] at hname hc
  rcases List.mem_cons.mp hc with rfl | hc
  · exact hd.resolve_right fun heq => hname (by rw [heq]; rfl)
  · exact hmore c hc

/-- The value that is cut from an orderly row is the row's, or there is none. -/
theorem Row.Reads.value_of_orderly (h : row.Reads r)
    (horderly : (⟨row.name, row.value ++ (row.gap ++ r)⟩ : Entry).isOrderly = true) :
    match writtenValue? (row.value ++ (row.gap ++ r)) with
    | none => row.value = []
    | some (n, raw) => n + raw.length = row.value.length := by
  have hvalue := writtenValue?_of_orderly horderly
  dsimp only at hvalue
  rw [h.value] at hvalue
  cases hread : row.read with
  | none =>
    rw [hread, Option.map_none, Option.map_none, Option.map_eq_none_iff] at hvalue
    rw [hvalue]
    exact h.bare hread
  | some v =>
    rw [hread] at hvalue
    obtain ⟨⟨n, raw⟩, hwritten, hlength⟩ := Option.map_eq_some_iff.mp hvalue
    rw [hwritten]
    exact hlength

/-- **An orderly row is cut as a slot.** -/
theorem slot?_row (hb : ∀ c ∈ b, (c == '/' || Text.isBlank c) = true)
    (h : row.Reads r) (hname : row.name.head? ≠ some '=')
    (horderly : (⟨row.name, row.value ++ (row.gap ++ r)⟩ : Entry).isOrderly = true) :
    ∃ raw, slot? (b ++ (row.text ++ r))
      = some (⟨b, row.name, row.value, raw⟩, b.length + row.name.length + row.value.length) := by
  have hne : row.name.isEmpty = false := by
    rw [List.isEmpty_eq_false_iff, ← List.length_pos_iff]
    exact h.name.length_pos
  have hbehind : (row.text ++ r).drop row.name.length = row.value ++ (row.gap ++ r) := by
    rw [row.text_append, List.drop_left]
  have hvalue := h.value_of_orderly horderly
  rw [slot?]
  simp only [h.takeWhile_gap hb, List.drop_left, h.takeWhile_name hname, hne, Bool.false_eq_true,
    if_false, hbehind]
  cases hwritten : writtenValue? (row.value ++ (row.gap ++ r)) with
  | none =>
    rw [hwritten] at hvalue
    exact ⟨none, by rw [hvalue]; rfl⟩
  | some w =>
    obtain ⟨n, raw⟩ := w
    rw [hwritten] at hvalue
    dsimp only at hvalue
    exact ⟨some raw, by simp only [hvalue, List.take_left]⟩

end Row

theorem slotsFrom_skip (skip : Nat) (t : Text) : slotsFrom skip t = slotsFrom 0 (t.drop skip) := by
  induction t generalizing skip with
  | nil => cases skip <;> rfl
  | cons c t ih =>
    cases skip with
    | zero => rfl
    | succ skip => exact ih skip

theorem slotsFrom_of_none {t : Text} (h : slot? t = none) : slotsFrom 0 t = ([], t) := by
  cases t with
  | nil => rfl
  | cons c t => rw [slotsFrom, h]

theorem slotsFrom_of_some {t : Text} {slot : Slot} {n : Nat} (h : slot? t = some (slot, n))
    (hpos : 0 < n) (hne : t ≠ []) :
    slotsFrom 0 t = (slot :: (slotsFrom 0 (t.drop n)).1, (slotsFrom 0 (t.drop n)).2) := by
  cases t with
  | nil => exact absurd rfl hne
  | cons c t =>
    obtain ⟨m, rfl⟩ : ∃ m, n = m + 1 := ⟨n - 1, by omega⟩
    rw [slotsFrom, h]
    simp only [Nat.add_sub_cancel, List.drop_succ_cons]
    rw [slotsFrom_skip]

/-! ## New values -/

/-- A row with its new value if its attribute was changed, else the row itself. -/
inductive Renewed (tag : Tag) : Row → Row → Prop
  | kept {row : Row} (same : row.name.lowerCase ∉ tag.changed) : Renewed tag row row
  | changed {row : Row} {value : Text} (quote : Quote) (set : row.name.lowerCase ∈ tag.changed)
      (new : tag.get? row.name.lowerCase = some value) :
      Renewed tag row (row.rewritten quote (escape quote value))

/-- A start tag whose attributes are cut as they are read, as far as the changed ones reach. -/
structure Regular (changed : List Text) (entries : List Entry) : Prop where
  orderly : ∀ entry ∈ entries, entry.isOrderly = true
  visible : entries.Pairwise fun a b => a.hides = true → b.name.lowerCase ∉ changed

section Renewed

variable {tag : Tag} {rows rows' : List Row} {last : Text}

/-- The entries of rows have their names. -/
theorem exists_entry {row : Row} (h : row ∈ rows) (last : Text) :
    ∃ entry ∈ rowsEntries rows last, entry.name = row.name := by
  induction rows with
  | nil => cases h
  | cons first rows ih =>
    rcases List.mem_cons.mp h with rfl | h
    · exact ⟨_, List.mem_cons_self .., rfl⟩
    · obtain ⟨entry, hentry, hname⟩ := ih h
      exact ⟨entry, List.mem_cons_of_mem _ hentry, hname⟩

/-- Rows of which none was changed stay. -/
theorem forall₂_renewed_self (h : ∀ row ∈ rows, row.name.lowerCase ∉ tag.changed) :
    List.Forall₂ (Renewed tag) rows rows :=
  List.forall₂_same.mpr fun row hrow => .kept (h row hrow)

theorem eq_of_forall₂_renewed (h : List.Forall₂ (Renewed tag) rows rows')
    (hsame : ∀ row ∈ rows, row.name.lowerCase ∉ tag.changed) : rows' = rows := by
  induction h with
  | nil => rfl
  | cons hrow _ ih =>
    rw [List.forall_mem_cons] at hsame
    rw [ih hsame.2]
    cases hrow with
    | kept => rfl
    | changed quote set => exact absurd set hsame.1

/-- Behind an attribute that hides them no row was changed. -/
theorem Regular.notMem_of_hides {entry : Entry} {changed : List Text}
    (h : Regular changed (entry :: rowsEntries rows last)) (hhides : entry.hides = true) :
    ∀ row ∈ rows, row.name.lowerCase ∉ changed := by
  intro row hrow
  obtain ⟨other, hother, hname⟩ := exists_entry hrow last
  rw [← hname]
  exact (List.pairwise_cons.mp h.visible).1 other hother hhides

theorem Regular.tail {entry : Entry} {entries : List Entry} {changed : List Text}
    (h : Regular changed (entry :: entries)) : Regular changed entries :=
  ⟨fun other hother => h.orderly other (List.mem_cons_of_mem _ hother),
    (List.pairwise_cons.mp h.visible).2⟩

/-- The slot of a row is written as the row with its new value, or as the row itself. -/
theorem exists_rendered {row : Row}
    (hget : ∀ name ∈ tag.changed, ∃ value, tag.get? name = some value) (b : Text)
    (raw : Option Text) :
    ∃ row', Renewed tag row row' ∧ ∀ r, (⟨b, row.name, row.value, raw⟩ : Slot).render tag
      ++ (row.gap ++ r) = b ++ (row'.text ++ r) := by
  by_cases hchanged : row.name.lowerCase ∈ tag.changed
  · obtain ⟨value, hvalue⟩ := hget _ hchanged
    obtain ⟨quote, hrender⟩ : ∃ quote : Quote, (⟨b, row.name, row.value, raw⟩ : Slot).render tag
        = b ++ row.name ++ '=' :: quote.char :: (escape quote value ++ [quote.char]) := by
      rw [Slot.render, Slot.isChanged, if_pos (by simpa using hchanged), hvalue]
      exact ⟨_, rfl⟩
    refine ⟨row.rewritten quote (escape quote value), .changed quote hchanged hvalue, fun r => ?_⟩
    rw [hrender, Row.text_append]
    simp [Row.rewritten]
  · refine ⟨row, .kept hchanged, fun r => ?_⟩
    rw [Slot.render, Slot.isChanged, if_neg (by simpa using hchanged), row.text_append]
    simp

/-- **Values put in place**: the slots of a tag with new values are its rows with these values, if no
changed name starts with an equals sign. -/
theorem exists_renewed {previous : Char} (h : Listed previous rows last) (hlast : IsTagEnd last)
    (hregular : Regular tag.changed (rowsEntries rows last))
    (hget : ∀ name ∈ tag.changed, ∃ value, tag.get? name = some value)
    (hplain : ∀ row ∈ rows, row.name.head? = some '=' → row.name.lowerCase ∉ tag.changed)
    {b : Text} (hb : ∀ c ∈ b, (c == '/' || Text.isBlank c) = true) :
    ∃ rows', List.Forall₂ (Renewed tag) rows rows' ∧
      (slotsFrom 0 (b ++ rowsText rows last)).1.flatMap (·.render tag)
        ++ (slotsFrom 0 (b ++ rowsText rows last)).2 = b ++ rowsText rows' last := by
  induction h generalizing b with
  | done =>
    refine ⟨[], .nil, ?_⟩
    rw [rowsText, List.flatMap_nil, List.nil_append, slotsFrom_of_none (slot?_tagEnd hb hlast)]
    rfl
  | @next previous row rows last hmay hhead htail ih =>
    rw [List.forall_mem_cons] at hplain
    by_cases hname : row.name.head? = some '='
    · -- the cutting stops here, and nothing that follows was changed
      have hnone : slot? (b ++ rowsText (row :: rows) last) = none := by
        refine slot?_of_stop hb fun c hc => ?_
        rw [rowsText_cons, row.text_append] at hc
        rw [List.head?_append_of_ne_nil _ (by rintro heq; rw [heq] at hname; cases hname), hname] at hc
        exact .inl (Option.some.inj hc).symm
      have hhides : (⟨row.name, row.value ++ (row.gap ++ rowsText rows last)⟩ : Entry).hides = true := by
        simp [Entry.hides, hname]
      refine ⟨row :: rows, forall₂_renewed_self ?_, ?_⟩
      · rw [List.forall_mem_cons]
        exact ⟨hplain.1 hname, hregular.notMem_of_hides hhides⟩
      · rw [slotsFrom_of_none hnone]
        rfl
    · have horderly := hregular.orderly _ (List.mem_cons_self ..)
      obtain ⟨raw, hslot⟩ := slot?_row hb hhead hname horderly
      obtain ⟨rows', hrows, htext⟩ := ih hlast hregular.tail hplain.2 (isSeparator_of_mem_gap hhead.gap)
      have hpos := hhead.name.length_pos
      have hne : b ++ (row.text ++ rowsText rows last) ≠ [] := by
        intro hnil
        have := congrArg List.length hnil
        simp only [List.length_append, List.length_nil, row.length_text] at this
        omega
      have hdrop : (b ++ (row.text ++ rowsText rows last)).drop
          (b.length + row.name.length + row.value.length) = row.gap ++ rowsText rows last := by
        rw [row.text_append, ← List.append_assoc, ← List.append_assoc, ← List.length_append,
          ← List.length_append, List.drop_left]
      rw [rowsText_cons, slotsFrom_of_some hslot (by omega) hne, hdrop, List.flatMap_cons,
        List.append_assoc, htext]
      obtain ⟨row', hrow, hrender⟩ := exists_rendered hget b raw
      exact ⟨row' :: rows', .cons hrow hrows, by rw [hrender, rowsText_cons]⟩

/-- Rows with new values start as the rows did. -/
theorem head?_renewed {previous : Char} (h : Listed previous rows last)
    (hrows : List.Forall₂ (Renewed tag) rows rows') :
    (rowsText rows' last).head? = (rowsText rows last).head? := by
  cases hrows with
  | nil => rfl
  | @cons row row' rows rows' hrow hrest =>
    cases h with
    | next _ hhead _ =>
      have hname : row'.name = row.name := by
        cases hrow with
        | kept => rfl
        | changed => rfl
      obtain ⟨c, more, heq, -⟩ := hhead.name
      rw [rowsText_cons, rowsText_cons, Row.text_append, Row.text_append, hname, heq]
      rfl

/-- No separator stands in front of a row. -/
theorem separators_row {row : Row} (h : IsAttributeName row.name) (r : Text) :
    separators (row.text ++ r) = 0 := by
  obtain ⟨c, more, heq, hblank, hslash, -⟩ := h.head (r := row.value ++ (row.gap ++ r))
  rw [Row.text_append, heq, separators_cons, if_neg (fun h => hslash h.1)]
  simp [hblank, hslash]

theorem separators_rowsText {previous : Char} (h : Listed previous rows last) (hne : rows ≠ []) :
    separators (rowsText rows last) = 0 := by
  cases h with
  | done => exact absurd rfl hne
  | next _ hhead _ =>
    rw [rowsText_cons]
    exact separators_row hhead.name _

/-- A character that ends a row with a new value lets an attribute follow if the old one did. -/
theorem mayPrecede_renewed {row row' : Row} {r : Text} {previous previous' : Char} (h : row.Reads r)
    (hrow : Renewed tag row row') (hmay : mayPrecede (row.text.getLastD previous) = true) :
    mayPrecede (row'.text.getLastD previous') = true := by
  cases hrow with
  | kept =>
    have hpos := h.length_pos
    rcases List.eq_nil_or_concat row.text with hnil | ⟨u, c, htext⟩
    · rw [hnil] at hpos
      exact absurd hpos (Nat.lt_irrefl 0)
    · rw [List.concat_eq_append] at htext
      rw [htext, List.getLastD_concat] at hmay ⊢
      exact hmay
  | changed quote =>
    rcases List.eq_nil_or_concat row.gap with hnil | ⟨u, c, hgap⟩
    · -- the row ends with the quote of its value
      have htext : ∀ contents, (row.rewritten quote contents).text
          = (row.name ++ '=' :: quote.char :: contents) ++ [quote.char] := by
        intro contents
        simp [Row.text, Row.rewritten, hnil]
      rw [htext, List.getLastD_concat]
      cases quote <;> decide
    · rw [List.concat_eq_append] at hgap
      have htext : ∀ contents, (row.rewritten quote contents).text
          = (row.name ++ '=' :: quote.char :: (contents ++ quote.char :: u)) ++ [c] := by
        intro contents
        simp [Row.text, Row.rewritten, hgap]
      have htext' : row.text = (row.name ++ (row.value ++ u)) ++ [c] := by
        simp [Row.text, hgap]
      rw [htext', List.getLastD_concat] at hmay
      rw [htext, List.getLastD_concat]
      exact hmay

/-- **Rows with new values** are read as these rows. -/
theorem Listed.renewed {previous previous' : Char} (h : Listed previous rows last)
    (hrows : List.Forall₂ (Renewed tag) rows rows')
    (hregular : Regular tag.changed (rowsEntries rows last))
    (hmay : mayPrecede previous = true → mayPrecede previous' = true) :
    Listed previous' rows' last := by
  induction h generalizing rows' previous' with
  | done hstop =>
    cases hrows
    exact .done hstop
  | @next previous row rows last hprevious hhead htail ih =>
    cases hrows with
    | @cons _ row' _ rows' hrow hrest =>
      have htail' : Listed (row'.text.getLastD previous') rows' last :=
        ih hrest hregular.tail (mayPrecede_renewed hhead hrow)
      have hstart := head?_renewed htail hrest
      have hgap : separators (rowsText rows' last) = 0 := by
        cases hrest with
        | nil => exact separators_eq_zero_of_gap hhead.gap
        | cons => exact separators_rowsText htail' (List.cons_ne_nil _ _)
      have hreads : row'.Reads (rowsText rows' last) := by
        cases hrow with
        | kept =>
          by_cases hunpaired : isUnpaired (row.value ++ (row.gap ++ rowsText rows last)) = true
          · -- nothing was changed behind a quote without partner
            have hhides : (⟨row.name, row.value ++ (row.gap ++ rowsText rows last)⟩ : Entry).hides
                = true := by
              simp [Entry.hides, hunpaired]
            rw [eq_of_forall₂_renewed hrest (hregular.notMem_of_hides hhides)]
            exact hhead
          · exact hhead.congr (by simpa using hunpaired) hstart hgap
        | changed quote => exact hhead.rewritten (char_notMem_escape quote _) hstart hgap
      exact .next (hmay hprevious) hreads htail'

end Renewed

end DataBinding.Markup
