/-
# Start tags in front of other texts

What follows a start tag has no part in how the tag is read, unless a value in it starts with a quote
that has no partner: in `<script a ='b>` the quote belongs to a name, but it opens a value as soon as
a second quote follows somewhere.  The key facts are

* `Listed.elsewhere`       : attributes with paired quotes are read alike in front of any text;
* `wasRead_of_parse`       : the start tags of a document were read in front of what follows them;
* `Tag.IsSteady.readsBack` : a steady start tag is read as itself in front of any text.
-/
import DataBinding.Proofs.Markup.RawElement
import DataBinding.Proofs.Markup.Rewriting

namespace DataBinding.Markup

/-! ## Attributes in front of another text -/

/-- A name where an attribute may start is the name of one. -/
theorem exists_entriesFrom {name r : Text} {previous : Char} (hname : IsAttributeName name)
    (hr : EndsName r) (hmay : mayPrecede previous = true) :
    ∃ others, entriesFrom 0 previous (name ++ r) = ⟨name, r⟩ :: others := by
  have hpos := hname.length_pos
  obtain ⟨found, n, hattribute, hfound⟩ : ∃ found n,
      attribute? previous (name ++ r) = some (found, n) ∧ found.name = name := by
    rw [attribute?]
    simp only [attributeName_append hname hr]
    rw [if_neg (by simp [hmay, Nat.ne_of_gt hpos])]
    exact ⟨_, _, rfl, List.take_left⟩
  obtain ⟨c, more, rfl, -⟩ := hname
  rw [List.cons_append, entriesFrom_cons, ← List.cons_append, hattribute]
  dsimp only
  rw [hfound, List.drop_left]
  exact ⟨_, rfl⟩

/-- **Attributes with paired quotes** are read alike in front of any text. -/
theorem Listed.elsewhere {previous : Char} {rows : List Row} {last behind : Text}
    (h : Listed previous rows (last ++ behind)) (hlast : IsTagEnd last)
    (hpaired : ∀ entry ∈ entriesFrom 0 previous (rowsText rows last), isUnpaired entry.behind = false)
    (other : Text) : Listed previous rows (last ++ other) := by
  induction rows generalizing previous with
  | nil => exact .done (by rcases hlast with rfl | rfl <;> rfl)
  | cons row rows ih =>
    cases h with
    | next hmay hhead htail =>
      have hsame : ∀ other, (rowsText rows (last ++ other)).head? = (rowsText rows last).head? :=
        TagParts.head?_rowsText_append hlast
      -- the value is paired in front of the end of the tag, and so in front of any text
      have hends : EndsName (row.value ++ (row.gap ++ rowsText rows last)) := by
        have hstart := head?_append_congr row.value (head?_append_congr row.gap (hsame behind))
        intro c hc
        exact hhead.stop c (hstart.trans hc)
      obtain ⟨others, hentries⟩ := exists_entriesFrom hhead.name hends hmay
      have hrow : isUnpaired (row.value ++ (row.gap ++ rowsText rows last)) = false := by
        refine hpaired ⟨row.name, _⟩ ?_
        rw [rowsText_cons, Row.text_append, hentries]
        exact List.mem_cons_self
      have hclose : '>' ∈ row.value ++ (row.gap ++ rowsText rows last) := by
        have : '>' ∈ last := by rcases hlast with rfl | rfl <;> decide
        simp [rowsText, this]
      have hbehind := isUnpaired_append hclose hrow behind
      rw [List.append_assoc, List.append_assoc, rowsText, List.append_assoc, ← rowsText] at hbehind
      have hreads : ∀ other, row.Reads (rowsText rows (last ++ other)) := by
        intro other
        refine hhead.congr hbehind ((hsame other).trans (hsame behind).symm) ?_
        cases rows with
        | nil => rcases hlast with rfl | rfl <;> rfl
        | cons row' rows =>
          rw [rowsText_cons]
          exact separators_row (htail.isAttributeName List.mem_cons_self) _
      refine .next hmay (hreads other) (ih htail fun entry hentry => hpaired entry ?_)
      have hheadReads := hreads []
      rw [List.append_nil] at hheadReads
      rw [rowsText_cons, entriesFrom_row hmay hheadReads]
      exact List.mem_cons_of_mem _ hentry

/-- The parts of a start tag with paired quotes are read alike in front of any text. -/
theorem TagParts.ReadsBefore.elsewhere {parts : TagParts} {behind : Text}
    (h : parts.ReadsBefore behind)
    (hpaired : ∀ entry ∈ entries parts.text, isUnpaired entry.behind = false) (other : Text) :
    parts.ReadsBefore other := by
  rw [h.toIsFormed.entries_eq] at hpaired
  exact ⟨h.toIsFormed, h.listed.elsewhere h.last hpaired other⟩

/-! ## Start tags of documents -/

/-- The tag was read from its source, in front of some text. -/
def Tag.WasRead (tag : Tag) : Prop :=
  ∃ (parts : TagParts) (behind : Text), parts.ReadsBefore behind ∧ tag.source = some parts.text ∧
    tag.name = parts.name.lowerCase ∧ tag.selfClosing = parts.closes

/-- **Every tag of a document that was read** was read from its source. -/
theorem Document.wasRead_of_parse {t : Text} {document : Document} (h : Document.parse t = .ok document) :
    Node.AllTagsIn Tag.WasRead document.children := by
  obtain ⟨read, hevents, rfl⟩ := Document.exists_events_of_parse h
  refine Document.allTags_ofEvents (fun _ h => h) fun event hevent tag htag => ?_
  obtain ⟨name, attributes, selfClosing, source, rfl, rfl⟩ : ∃ name attributes selfClosing source,
      event = startEvent name attributes selfClosing source ∧
        tag = ⟨name, distinct attributes, some source, selfClosing, false, []⟩ := by
    cases event with
    | startTag name attributes source => exact ⟨name, attributes, false, source, rfl, by cases htag; rfl⟩
    | emptyTag name attributes source => exact ⟨name, attributes, true, source, rfl, by cases htag; rfl⟩
    | endTag | data | reference | comment | declaration | markedSection | instruction => cases htag
  obtain ⟨n, atEnd, current, hne, hmem⟩ :=
    exists_step_of_events hevents hevent (startSource?_startEvent ..)
  obtain ⟨hhead, written, small, found, closes, m, hname, hread, rfl, hstart⟩ :=
    read_of_piece hne hmem (startSource?_startEvent ..)
  obtain ⟨rfl, rfl, rfl⟩ := startEvent_inj hstart
  obtain ⟨u, hu⟩ := List.head?_eq_some_iff.mp hhead
  rw [hu] at hname hread ⊢
  rw [List.drop_one, List.tail_cons] at hname
  obtain ⟨parts, behind, hparts, htext, rfl⟩ := exists_partsBefore hname hread
  have hall := hparts.read_eq
  rw [htext, hread] at hall
  obtain ⟨rfl, -, rfl, rfl⟩ := StartTag.complete.inj hall
  refine ⟨parts, behind, hparts, ?_, rfl, rfl⟩
  rw [← htext, List.take_left]

/-- So was the tag of each element that is found in it. -/
theorem Document.wasRead_of_get? {t : Text} {document : Document}
    (h : Document.parse t = .ok document) {address : Address} {tag : Tag} {children : List Node}
    (helement : document.get? address = some (.element tag children)) : tag.WasRead := by
  have hall : (Node.element tag children).AllTags Tag.WasRead := by
    refine nodeAt?_keeps (fun tag children hall => ?_)
      (Node.allTagsIn_iff.mp (Document.wasRead_of_parse h)) helement
    exact Node.allTagsIn_iff.mp hall.2
  exact hall.1

/-! ## Steady start tags -/

/-- The start tag that is written has only quotes with partners; and if attributes were set, it is
one start tag of the element. -/
structure Tag.IsSteady (tag : Tag) : Prop where
  paired : ∀ entry ∈ entries tag.write, isUnpaired entry.behind = false
  rewritten : tag.changed ≠ [] → ∃ back, startTag? tag.write = some back ∧ back.name = tag.name ∧
    back.selfClosing = false

/-- The plain start tag of a script is steady. -/
theorem Tag.isSteady_of_plain {tag : Tag} (hname : tag.name = "script".toList)
    (hwrite : tag.write = "<script>".toList) : tag.IsSteady := by
  constructor
  · rw [hwrite]
    intro entry hentry
    cases hentry
  · intro _
    rw [hwrite, hname]
    exact ⟨⟨"script".toList, [], some "<script>".toList, false, false, []⟩, by rfl, rfl, rfl⟩

/-- **A steady start tag** of an element that is not empty is read as itself in front of any text. -/
theorem Tag.IsSteady.readsBack {tag : Tag} (h : tag.IsSteady) (hread : tag.WasRead)
    (hopened : tag.selfClosing = false) (behind : Text) : tag.ReadsBack behind := by
  obtain ⟨parts, before, hparts, hwrite, hname, hcloses⟩ : ∃ (parts : TagParts) (before : Text),
      parts.ReadsBefore before ∧ tag.write = parts.text ∧ tag.name = parts.name.lowerCase ∧
        parts.closes = false := by
    by_cases hchanged : tag.changed = []
    · obtain ⟨parts, before, hparts, hsource, hname, hcloses⟩ := hread
      refine ⟨parts, before, hparts, ?_, hname, hcloses.symm.trans hopened⟩
      rw [Tag.write, hsource, hchanged]
      rfl
    · obtain ⟨back, hback, hname, hcloses⟩ := h.rewritten hchanged
      obtain ⟨parts, hparts, htext, rfl⟩ := startTag?_eq_some_iff.mp hback
      exact ⟨parts, [], hparts.before_nil, htext.symm, hname.symm, hcloses⟩
  have hstep := (hparts.elsewhere (hwrite ▸ h.paired) behind).piece_eq false
  rw [← hwrite, ← hname, hcloses] at hstep
  exact ⟨parts.attributes, hstep⟩

/-- Most start tags are steady; a quote in a name is not. -/
example : (entries "<script type='module' async src=x.js>".toList).all (!isUnpaired ·.behind) = true ∧
    (entries "<script a ='b>".toList).all (!isUnpaired ·.behind) = false := by
  decide +kernel

end DataBinding.Markup
