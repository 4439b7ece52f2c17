/-
# Start tags with changed attributes, read back

A start tag whose attributes were set is written with the new values in place of the old ones, or anew
as a whole.  Either way it is read back as what was set, if its spelling is plain enough.

* `Tag.IsPlain`                   : the spellings that are plain enough;
* `TagParts.Reads.exists_spliced` : a tag with new values in place is read as its rows with them;
* `startTag?_write_setAll`        : a tag whose attributes were set is read back.
-/
import DataBinding.Proofs.Markup.Rendering
import DataBinding.Proofs.Markup.Setting

namespace DataBinding.Markup

/-! ## Plain spellings -/

/-- The attributes that a start tag is read as. -/
def entries (t : Text) : List Entry :=
  match tagName? (t.drop 1) with
  | some name =>
    let behind := t.drop (1 + name.length)
    let gap := behind.takeWhile fun c => c == '/' || Text.isBlank c
    entriesFrom 0 (('<' :: (name ++ gap)).getLastD '<') (behind.drop gap.length)
  | none => []

/-- The name of a start tag holds no blank, and does not end at the character zero.  Such a name ends
in the same place when the tag is cut. -/
def hasPlainName (t : Text) : Bool :=
  match tagName? (t.drop 1) with
  | some name => name.all (!Text.isBlank ·) && (t.drop (1 + name.length)).head? != some '\x00'
  | none => false

namespace TagParts

variable {parts : TagParts}

theorem drop_name (parts : TagParts) :
    parts.text.drop (1 + parts.name.length) = parts.gap ++ rowsText parts.rows parts.last := by
  rw [text, Nat.add_comm, List.drop_succ_cons, List.drop_left]

theorem IsFormed.entries_eq (h : parts.IsFormed) :
    entries parts.text = entriesFrom 0 parts.previous (rowsText parts.rows parts.last) := by
  have hrun : (parts.gap ++ rowsText parts.rows parts.last).takeWhile
      (fun c => c == '/' || Text.isBlank c) = parts.gap := Text.takeWhile_append_stop h.gap h.full
  rw [entries]
  simp only [h.tagName?_eq, parts.drop_name, hrun, List.drop_left]
  rfl

theorem Reads.entries_eq (h : parts.Reads) :
    entries parts.text = rowsEntries parts.rows parts.last :=
  h.toIsFormed.entries_eq.trans h.listed.entriesFrom_eq

/-- **A plain name** is cut off as it is read. -/
theorem Reads.opening?_eq (h : parts.Reads) (hplain : hasPlainName parts.text = true) :
    opening? parts.text = some (parts.name.length + 1) := by
  rw [hasPlainName] at hplain
  simp only [h.tagName?_eq, parts.drop_name, Bool.and_eq_true, List.all_eq_true,
    Bool.not_eq_true', bne_iff_ne] at hplain
  obtain ⟨hblank, hzero⟩ := hplain
  have hrun : (parts.name ++ (parts.gap ++ rowsText parts.rows parts.last)).takeWhile
      (fun c => !(Text.isBlank c || c == '/' || c == '>')) = parts.name := by
    refine Text.takeWhile_append_stop (fun c hc => ?_) (fun c hc => ?_)
    · -- a letter or a character that does not end the name
      have hends : c ≠ '/' ∧ c ≠ '>' := by
        obtain ⟨d, more, heq, hd, hmore⟩ := h.name
        rw [heq] at hc
        rcases List.mem_cons.mp hc with rfl | hc
        · constructor <;> rintro rfl <;> exact absurd hd (by decide)
        · constructor <;> rintro rfl <;> exact absurd (hmore _ hc) (by decide)
      simp [hblank c hc, hends.1, hends.2]
    · have hends := h.stop c hc
      have hne : c ≠ '\x00' := by
        rintro rfl
        exact hzero hc
      have hcases : c = '\t' ∨ c = '\n' ∨ c = '\r' ∨ c = '\x0c' ∨ c = ' ' ∨ c = '/' ∨ c = '>' := by
        simp [endsTagName] at hends
        tauto
      rcases hcases with rfl | rfl | rfl | rfl | rfl | rfl | rfl <;> decide
  have hpos : parts.name.length ≠ 0 := by
    obtain ⟨c, more, heq, -⟩ := h.name
    rw [heq]
    exact Nat.succ_ne_zero _
  rw [text, opening?]
  simp only [hrun]
  rw [if_neg (by simpa using hpos)]

end TagParts

/-! ## Values put in place -/

/-- No slot has a name with an equals sign. -/
theorem equals_notMem_slot {t : Text} {skip : Nat} :
    ∀ slot ∈ (slotsFrom skip t).1, '=' ∉ slot.name := by
  induction t generalizing skip with
  | nil => cases skip <;> simp [slotsFrom]
  | cons c t ih =>
    cases skip with
    | succ skip => exact ih
    | zero =>
      rw [slotsFrom]
      split
      · simp
      · rename_i slot n hslot
        simp only [List.forall_mem_cons]
        refine ⟨fun hmem => ?_, ih⟩
        -- the name of a slot is a run of characters of names
        have hname : ∃ u : Text, slot.name = u.takeWhile isAttributeNamePart := by
          rw [slot?] at hslot
          dsimp only at hslot
          split at hslot
          · cases hslot
          · split at hslot <;> cases hslot <;> exact ⟨_, rfl⟩
        obtain ⟨u, hu⟩ := hname
        rw [hu] at hmem
        exact absurd (List.mem_takeWhile_imp hmem) (by decide)

/-- A name that starts with an equals sign keeps it in small letters. -/
theorem equals_mem_lowerCase {name : Text} (h : name.head? = some '=') : '=' ∈ name.lowerCase := by
  obtain ⟨more, rfl⟩ := List.head?_eq_some_iff.mp h
  rw [Text.lowerCase_cons_of_plain (by decide)]
  exact List.mem_cons_self ..

/-- What a row with its new value is read as. -/
theorem decoded_renewed {tag : Tag} {row row' : Row} (h : Renewed tag row row') :
    row'.toAttribute.decoded
      = (row.toAttribute.decoded.1, tag.renew row.toAttribute.decoded.1 row.toAttribute.decoded.2) := by
  cases h with
  | kept same =>
    rw [Tag.renew, if_neg (by exact same)]
  | changed quote set new =>
    have hnew : tag.renew row.name.lowerCase (row.read.map unescape)
        = tag.get? row.name.lowerCase := by
      rw [Tag.renew, if_pos set]
    show (row.name.lowerCase, some (unescape (escape quote _)))
      = (row.name.lowerCase, tag.renew row.name.lowerCase (row.read.map unescape))
    rw [unescape_escape, hnew, new]

/-- What rows with new values are read as. -/
theorem map_decoded_renewed {tag : Tag} {rows rows' : List Row}
    (h : List.Forall₂ (Renewed tag) rows rows') :
    (rows'.map fun row => row.toAttribute.decoded)
      = mapValues tag.renew (rows.map fun row => row.toAttribute.decoded) := by
  induction h with
  | nil => rfl
  | cons hrow _ ih =>
    rw [List.map_cons, ih, decoded_renewed hrow]
    rfl

/-- New values have no reference with too many digits. -/
theorem overlongIn?_renewed {tag : Tag} {rows rows' : List Row}
    (h : List.Forall₂ (Renewed tag) rows rows')
    (hdecodes : overlongIn? (rows.map Row.toAttribute) = none) :
    overlongIn? (rows'.map Row.toAttribute) = none := by
  rw [overlongIn?, List.findSome?_eq_none_iff, List.forall_mem_map] at hdecodes ⊢
  induction h with
  | nil => exact hdecodes
  | cons hrow _ ih =>
    rw [List.forall_mem_cons] at hdecodes ⊢
    refine ⟨?_, ih hdecodes.2⟩
    cases hrow with
    | kept => exact hdecodes.1
    | changed quote set new => exact overlong?_escape quote _

namespace TagParts

variable {parts : TagParts} {tag : Tag} {spliced : Text}

/-- The text with new values in place, slot by slot. -/
theorem Reads.splice?_eq (h : parts.Reads) (hplain : hasPlainName parts.text = true)
    (hsplice : splice? tag parts.text = some spliced) :
    (∀ name ∈ tag.changed, ∃ slot ∈ (slotsFrom 0 (parts.gap ++ rowsText parts.rows parts.last)).1,
      slot.name.lowerCase = name) ∧
    spliced = '<' :: (parts.name
      ++ ((slotsFrom 0 (parts.gap ++ rowsText parts.rows parts.last)).1.flatMap (·.render tag)
        ++ (slotsFrom 0 (parts.gap ++ rowsText parts.rows parts.last)).2)) := by
  have hdrop : parts.text.drop (parts.name.length + 1)
      = parts.gap ++ rowsText parts.rows parts.last := by
    rw [Nat.add_comm]
    exact parts.drop_name
  have htake : parts.text.take (parts.name.length + 1) = '<' :: parts.name := by
    rw [text, List.take_succ_cons, List.take_left]
  rw [splice?, h.opening?_eq hplain] at hsplice
  simp only [hdrop, htake] at hsplice
  split at hsplice
  · rename_i hfound
    rw [List.all_eq_true] at hfound
    refine ⟨fun name hname => ?_, ?_⟩
    · obtain ⟨slot, hslot, heq⟩ := List.any_eq_true.mp (hfound name hname)
      exact ⟨slot, hslot, beq_iff_eq.mp heq⟩
    · rw [← Option.some.inj hsplice]
      simp
  · cases hsplice

/-- **A tag with new values in place** is read as its rows with these values. -/
theorem Reads.exists_spliced (h : parts.Reads) (hplain : hasPlainName parts.text = true)
    (hregular : Regular tag.changed (entries parts.text))
    (hget : ∀ name ∈ tag.changed, ∃ value, tag.get? name = some value)
    (hsplice : splice? tag parts.text = some spliced) :
    ∃ parts' : TagParts, parts'.Reads ∧ parts'.text = spliced ∧ parts'.name = parts.name ∧
      parts'.closes = parts.closes ∧ parts'.attributes = mapValues tag.renew parts.attributes := by
  obtain ⟨hfound, hspliced⟩ := h.splice?_eq hplain hsplice
  rw [h.entries_eq] at hregular
  have hequals : ∀ row ∈ parts.rows, row.name.head? = some '=' →
      row.name.lowerCase ∉ tag.changed := by
    intro row _ hhead hchanged
    obtain ⟨slot, hslot, heq⟩ := hfound _ hchanged
    have hmem := equals_mem_lowerCase hhead
    rw [← heq] at hmem
    exact equals_notMem_slot slot hslot (Text.mem_of_mem_lowerCase (by decide) (by decide) hmem)
  obtain ⟨rows', hrows, htext⟩ := exists_renewed h.listed h.last hregular hget hequals h.gap
  rw [htext] at hspliced
  have hlisted := h.listed.renewed hrows hregular id
  have hhead := head?_renewed h.listed hrows
  refine ⟨⟨parts.name, parts.gap, rows', parts.last⟩, ⟨⟨h.name, ?_, h.gap, ?_, h.last,
      overlongIn?_renewed hrows h.decodes⟩, hlisted⟩, hspliced.symm, rfl, ?_, ?_⟩
  · intro c hc
    rw [head?_append_congr parts.gap hhead] at hc
    exact h.stop c hc
  · intro c hc
    rw [hhead] at hc
    exact h.full c hc
  · have hempty : rows'.isEmpty = parts.rows.isEmpty := by
      rw [Bool.eq_iff_iff, List.isEmpty_iff_length_eq_zero, List.isEmpty_iff_length_eq_zero,
        hrows.length_eq]
    rw [closes, closes, hempty]
  · exact map_decoded_renewed hrows

end TagParts

/-! ## Reading back -/

/-- The spelling of a start tag lets its changed attributes be read back.  Where new values are put in
place, the name is plain and the attributes are cut as they are read, as far as the changed ones
reach.  Where the tag is written anew, no attribute without value stands in front of one whose name
starts with an equals sign. -/
structure Tag.IsPlain (tag : Tag) (source : Text) : Prop where
  spliced : (splice? tag source).isSome = true →
    hasPlainName source = true ∧ Regular tag.changed (entries source)
  rendered : splice? tag source = none → tag.attributes.IsChain KeepsBare

/-- A written start tag is read as what its parts are. -/
theorem TagParts.Reads.exists_back {parts parts' : TagParts} {tag : Tag} (h : parts'.Reads)
    (hname : parts'.name.lowerCase = parts.name.lowerCase) (hcloses : parts'.closes = parts.closes)
    (hattributes : distinct parts'.attributes = tag.attributes) :
    ∃ back, startTag? parts'.text = some back ∧ back.name = parts.tag.name ∧
      back.selfClosing = parts.tag.selfClosing ∧ back.attributes = tag.attributes :=
  ⟨parts'.tag, startTag?_eq_some_iff.mpr ⟨parts', h, rfl, rfl⟩, hname, hcloses, hattributes⟩

/-- **Rewritten start tags mean what was set.** -/
theorem startTag?_write_setAll {t : Text} {tag : Tag} (hread : startTag? t = some tag)
    {sets : List (Text × Text)} (hsets : ∀ set ∈ sets, set.1 ∈ tag.attributes.map Prod.fst)
    (hplain : (tag.setAll sets).IsPlain t) :
    ∃ back, startTag? (tag.setAll sets).write = some back ∧ back.name = tag.name ∧
      back.selfClosing = tag.selfClosing ∧ back.attributes = (tag.setAll sets).attributes := by
  obtain ⟨parts, hparts, rfl, rfl⟩ := startTag?_eq_some_iff.mp hread
  have htouched := Tag.touched_setAll rfl hsets
  revert hplain htouched
  generalize parts.tag.setAll sets = tag'
  intro hplain htouched
  have hrenew : distinct (mapValues tag'.renew parts.attributes) = tag'.attributes :=
    htouched.distinct_renew rfl
  have hget : ∀ name ∈ tag'.changed, ∃ value, tag'.get? name = some value := by
    intro name hname
    obtain ⟨value, hvalue⟩ := htouched.given name hname
    exact ⟨value, by rw [Tag.get?, hvalue]; rfl⟩
  have hsource : tag'.source = some parts.text := htouched.source
  rw [Tag.write, hsource]
  dsimp only
  by_cases hchanged : tag'.changed = []
  · -- nothing was set, and the tag is written as it was read
    have hid : mapValues tag'.renew parts.attributes = parts.attributes := by
      have hself : ∀ a : Text × Option Text, (a.1, tag'.renew a.1 a.2) = a := by
        intro a
        rw [Tag.renew, hchanged, if_neg (List.not_mem_nil)]
      exact (List.map_congr_left fun a _ => hself a).trans (List.map_id _)
    rw [hid] at hrenew
    rw [hchanged, List.isEmpty_nil, if_pos rfl]
    exact hparts.exists_back rfl rfl hrenew
  · rw [if_neg (by simpa using hchanged)]
    cases hsplice : splice? tag' parts.text with
    | some spliced =>
      obtain ⟨hname, hregular⟩ := hplain.spliced (by rw [hsplice]; rfl)
      obtain ⟨parts', hparts', rfl, hname', hcloses, hattributes⟩ :=
        hparts.exists_spliced hname hregular hget hsplice
      exact hparts'.exists_back (by rw [hname']) hcloses (by rw [hattributes, hrenew])
    | none =>
      have hnodup : (tag'.attributes.map Prod.fst).Nodup := by
        rw [htouched.names]
        exact nodup_distinct parts.attributes
      have hnames : ∀ a ∈ tag'.attributes, a.1 ∈ parts.attributes.map Prod.fst := by
        intro a ha
        have hmem : a.1 ∈ tag'.attributes.map Prod.fst := List.mem_map_of_mem ha
        rw [htouched.names] at hmem
        exact mem_of_mem_distinct hmem
      have hne : tag'.attributes ≠ [] := by
        intro hnil
        obtain ⟨name, rest, hcons⟩ := List.exists_cons_of_ne_nil hchanged
        obtain ⟨value, hvalue⟩ := htouched.given name (by rw [hcons]; exact List.mem_cons_self ..)
        rw [hnil] at hvalue
        cases hvalue
      obtain ⟨parts', hparts', htext, hname', hcloses, hattributes⟩ :=
        hparts.exists_rendered htouched.name hnames hne (hplain.rendered hsplice)
      rw [Option.getD_none, ← htext]
      refine hparts'.exists_back ?_ (hcloses.trans htouched.selfClosing) ?_
      · rw [hname', Text.lowerCase_lowerCase]
      · rw [hattributes, distinct_eq_self hnodup]

/-- A start tag with attributes of all kinds. -/
def pageTag : Text :=
  "<P Data-x=a&lt;b TITLE='[[a]]' hidden/>".toList

/-- The tag that it is read as. -/
def pageTagRead : Tag :=
  ⟨"p".toList, [("data-x".toList, some "a<b".toList), ("title".toList, some "[[a]]".toList),
    ("hidden".toList, none)], some pageTag, true, false, []⟩

/-- New values for two of its attributes. -/
def pageSets : List (Text × Text) :=
  [("title".toList, "b && 'c' &lt; \"d\"".toList), ("hidden".toList, "[[e]]".toList)]

/-- The new values are read back. -/
theorem readBack_pageTag :
    startTag? pageTag = some pageTagRead ∧
      (∀ set ∈ pageSets, set.1 ∈ pageTagRead.attributes.map Prod.fst) ∧
      (pageTagRead.setAll pageSets).IsPlain pageTag ∧
      ∃ back, startTag? (pageTagRead.setAll pageSets).write = some back ∧
        back.name = pageTagRead.name ∧ back.selfClosing = pageTagRead.selfClosing ∧
        back.attributes = (pageTagRead.setAll pageSets).attributes := by
  have hread : startTag? pageTag = some pageTagRead := by
    rfl
  have hsets : ∀ set ∈ pageSets, set.1 ∈ pageTagRead.attributes.map Prod.fst := by
    simp [pageSets, pageTagRead]
  have hplain : (pageTagRead.setAll pageSets).IsPlain pageTag := by
    have hspliced : (splice? (pageTagRead.setAll pageSets) pageTag).isSome = true := by
      decide +kernel
    refine ⟨fun _ => ⟨by decide +kernel, ?_, ?_⟩, fun hnone => ?_⟩
    · decide +kernel
    · decide +kernel
    · rw [hnone] at hspliced
      cases hspliced
  exact ⟨hread, hsets, hplain, startTag?_write_setAll hread hsets hplain⟩

/-- A value behind two equals signs, with a blank in it. -/
def doubledSign : Text :=
  "<a b==\"c d\">".toList

/-- The tag that it is read as. -/
def doubledSignRead : Tag :=
  ⟨['a'], [(['b'], some "c d".toList)], some doubledSign, false, false, []⟩

/-- **A value that is cut too early** leaves an attribute behind that was not there. -/
theorem not_readBack_doubledSign :
    startTag? doubledSign = some doubledSignRead ∧ ['b'] ∈ doubledSignRead.attributes.map Prod.fst ∧
      (doubledSignRead.setAll [(['b'], ['v'])]).write = "<a b=\"v\" d\">".toList ∧
      ¬ ∃ back, startTag? (doubledSignRead.setAll [(['b'], ['v'])]).write = some back ∧
        back.name = doubledSignRead.name ∧ back.selfClosing = doubledSignRead.selfClosing ∧
        back.attributes = (doubledSignRead.setAll [(['b'], ['v'])]).attributes := by
  have hwrite : (doubledSignRead.setAll [(['b'], ['v'])]).write = "<a b=\"v\" d\">".toList := by
    decide +kernel
  refine ⟨rfl, by decide, hwrite, ?_⟩
  rintro ⟨back, hback, -, -, hattributes⟩
  have hextra : (startTag? "<a b=\"v\" d\">".toList).map Tag.attributes
      = some [(['b'], some ['v']), ("d\"".toList, none)] := by
    rfl
  rw [← hwrite, hback, Option.map_some, hattributes] at hextra
  exact absurd hextra (by decide)

end DataBinding.Markup
