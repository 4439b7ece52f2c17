/-
# Start tags that are written anew

A start tag that cannot be written from its source is written anew: its name, and its attributes with
a blank in front of each and the values in double quotes.  It is read back as these attributes, unless
a name that starts with an equals sign follows an attribute without value.

* `listed_renderedRows`              : the attributes are read one after the other;
* `TagParts.Reads.exists_rendered`   : the whole tag is read back.
-/
import DataBinding.Proofs.Markup.StartTags
import DataBinding.Proofs.Text.SmallForms

namespace DataBinding.Markup

/-! ## Names in small letters -/

/-- A name that a tag may have is one in small letters too. -/
theorem IsTagName.lowerCase {name : Text} (h : IsTagName name) : IsTagName name.lowerCase := by
  obtain ⟨c, more, rfl, hc, hmore⟩ := h
  obtain ⟨hplain, halpha⟩ := Text.isAlpha_toLower hc
  refine ⟨c.toLower, Text.lowerAfter [c] more, Text.lowerCase_cons_of_plain hplain more, halpha, ?_⟩
  intro x hx
  rcases (Text.isSmall_of_mem_lowerAfter hx).2 with hmem | hletter
  · exact hmore x hmem
  · -- the characters that end a name come before all letters
    have hmarks : "\t\n\r\x0c />\x00".toList.all (fun d => d.toNat < 0x41) = true := by
      decide
    by_contra hends
    rw [Bool.not_eq_false, endsTagName, List.contains_iff_mem] at hends
    have hlow : x.toNat < 0x41 := by simpa using List.all_eq_true.mp hmarks x hends
    have hhigh := hletter.le
    omega

/-- A name that an attribute may have is one in small letters too. -/
theorem IsAttributeName.lowerCase {name : Text} (h : IsAttributeName name) :
    IsAttributeName name.lowerCase := by
  have hpart : ∀ {before more : Text} {x : Char}, (∀ y ∈ more, isAttributeNamePart y = true) →
      x ∈ Text.lowerAfter before more → isAttributeNamePart x = true := by
    intro before more x hmore hx
    rcases (Text.isSmall_of_mem_lowerAfter hx).2 with hmem | hletter
    · exact hmore x hmem
    · have hle := hletter.le
      have hne : ∀ d : Char, d.toNat < 0x41 → x ≠ d := by
        rintro d hd rfl
        omega
      simp [isAttributeNamePart, hletter.notBlank, hne '/' (by decide), hne '=' (by decide),
        hne '>' (by decide)]
  obtain ⟨c, more, rfl, hc | rfl, hmore⟩ := h
  · have hall : ∀ x ∈ Text.lowerCase (c :: more), isAttributeNamePart x = true :=
      fun x hx => hpart (List.forall_mem_cons.mpr ⟨hc, hmore⟩) hx
    cases hsmall : Text.lowerCase (c :: more) with
    | nil => exact absurd hsmall (Text.lowerCase_ne_nil (List.cons_ne_nil _ _))
    | cons d rest =>
      rw [hsmall, List.forall_mem_cons] at hall
      exact ⟨d, rest, rfl, .inl hall.1, hall.2⟩
  · exact ⟨'=', _, Text.lowerCase_cons_of_plain (by decide) more, .inr rfl, fun x hx => hpart hmore hx⟩

/-! ## The rows of a tag that is written anew -/

/-- The rows of a tag that is written anew: a blank between them, and values in double quotes. -/
def renderedRows : List (Text × Option Text) → List Row
  | [] => []
  | a :: rest =>
    ⟨a.1, renderValue a.2 none, if rest.isEmpty then [] else [' '], a.2.map (escape .double)⟩ ::
      renderedRows rest

theorem rowsText_renderedRows {attributes : List (Text × Option Text)} (h : attributes ≠ [])
    (last : Text) :
    ' ' :: rowsText (renderedRows attributes) last
      = (attributes.flatMap fun a => ' ' :: (a.1 ++ renderValue a.2 none)) ++ last := by
  induction attributes with
  | nil => exact absurd rfl h
  | cons a rest ih =>
    rw [renderedRows, rowsText_cons, Row.text_append, List.flatMap_cons]
    cases rest with
    | nil => simp [renderedRows, rowsText]
    | cons b rest =>
      have hrest := ih (List.cons_ne_nil _ _)
      simp only [List.isEmpty_cons, Bool.false_eq_true, if_false, List.singleton_append, hrest]
      simp

/-- What the rows of a tag that is written anew are read as. -/
theorem map_decoded_renderedRows {attributes : List (Text × Option Text)}
    (h : ∀ a ∈ attributes, a.1.lowerCase = a.1) :
    ((renderedRows attributes).map fun row => row.toAttribute.decoded) = attributes := by
  induction attributes with
  | nil => rfl
  | cons a rest ih =>
    rw [List.forall_mem_cons] at h
    have hvalue : (a.2.map (escape .double)).map unescape = a.2 := by
      cases a.2 with
      | none => rfl
      | some value => exact congrArg some (unescape_escape .double value)
    rw [renderedRows, List.map_cons, ih h.2]
    show (a.1.lowerCase, (a.2.map (escape .double)).map unescape) :: rest = a :: rest
    rw [h.1, hvalue]

/-- No value of a tag that is written anew has a reference with too many digits. -/
theorem overlongIn?_renderedRows (attributes : List (Text × Option Text)) :
    overlongIn? ((renderedRows attributes).map Row.toAttribute) = none := by
  rw [overlongIn?, List.findSome?_eq_none_iff, List.forall_mem_map]
  induction attributes with
  | nil => exact nofun
  | cons a rest ih =>
    rw [renderedRows, List.forall_mem_cons]
    refine ⟨?_, ih⟩
    show (a.2.map (escape .double)).bind overlong? = none
    cases a.2 with
    | none => rfl
    | some value => exact overlong?_escape .double value

/-- An attribute without value stands in front of a name that does not start with an equals sign. -/
def KeepsBare (a b : Text × Option Text) : Prop :=
  a.2 = none → b.1.head? ≠ some '='

/-- A row of a tag that is written anew is read, if no equals sign follows a name without value. -/
theorem reads_renderedRow {name gap r : Text} {value : Option Text} (hname : IsAttributeName name)
    (hgap : separators (gap ++ r) = gap.length) (hstop : EndsName (gap ++ r))
    (hbare : value = none → signs (gap ++ r) = 0) :
    Row.Reads ⟨name, renderValue value none, gap, value.map (escape .double)⟩ r := by
  cases value with
  | none => exact ⟨hname, hstop, attributeValue?_of_signs (hbare rfl), fun _ => rfl, hgap⟩
  | some v =>
    have hreads : Row.Reads (Row.rewritten ⟨name, [], gap, none⟩ .double (escape .double v)) r :=
      Row.reads_rewritten hname hgap (char_notMem_escape .double v)
    exact hreads

/-- The written rows start with the name of the first attribute. -/
theorem head?_rowsText_renderedRows {b : Text × Option Text} (hname : IsAttributeName b.1)
    (rest : List (Text × Option Text)) (last : Text) :
    (rowsText (renderedRows (b :: rest)) last).head? = b.1.head? := by
  obtain ⟨c, more, heq, -⟩ := hname
  rw [renderedRows, rowsText_cons, Row.text_append]
  dsimp only
  rw [heq]
  rfl

/-- Behind one blank an equals sign is a sign only where the text starts with it. -/
theorem signs_blank_cons_eq_zero_iff {r : Text} (h : separators r = 0) :
    signs (' ' :: r) = 0 ↔ r.head? ≠ some '=' := by
  have hstay : r.dropWhile Text.isBlank = r := by
    have hblank := notBlank_of_separators h
    cases r with
    | nil => rfl
    | cons c r => exact List.dropWhile_cons_of_neg (by simp [hblank c rfl])
  rw [signs_eq_zero_iff, List.dropWhile_cons_of_pos (by decide), hstay]

/-- The last character of a row with one blank behind it. -/
theorem Row.getLastD_text {row : Row} (h : row.gap = [' ']) (previous : Char) :
    row.text.getLastD previous = ' ' := by
  rw [Row.text, h, ← List.append_assoc, List.getLastD_concat]

/-- **The rows of a tag that is written anew** are read. -/
theorem listed_renderedRows {attributes : List (Text × Option Text)} {last : Text}
    (hlast : IsTagEnd last) (hnames : ∀ a ∈ attributes, IsAttributeName a.1)
    (hchain : attributes.IsChain KeepsBare) {previous : Char}
    (hmay : attributes ≠ [] → mayPrecede previous = true) :
    Listed previous (renderedRows attributes) last := by
  -- a row is told apart from the next one by how that one starts, so the last one stands by itself
  induction attributes generalizing previous with
  | nil =>
    refine .done ?_
    rcases hlast with rfl | rfl <;> rfl
  | cons a rest ih =>
    rw [List.forall_mem_cons] at hnames
    have hprevious := hmay (List.cons_ne_nil _ _)
    cases rest with
    | nil =>
      obtain ⟨hstop, hgap, hsigns⟩ : EndsName last ∧ separators last = 0 ∧ signs last = 0 := by
        rcases hlast with rfl | rfl
        · exact ⟨fun c hc => by rw [← Option.some.inj hc]; decide, rfl, rfl⟩
        · exact ⟨fun c hc => by rw [← Option.some.inj hc]; decide, rfl, rfl⟩
      exact .next hprevious (reads_renderedRow hnames.1 hgap hstop fun _ => hsigns)
        (ih hnames.2 hchain.tail fun h => absurd rfl h)
    | cons b rest =>
      have hnext : Listed ' ' (renderedRows (b :: rest)) last :=
        ih hnames.2 hchain.tail fun _ => by decide
      have hnone := separators_rowsText hnext (List.cons_ne_nil _ _)
      have hreads : Row.Reads ⟨a.1, renderValue a.2 none, [' '], a.2.map (escape .double)⟩
          (rowsText (renderedRows (b :: rest)) last) := by
        refine reads_renderedRow hnames.1 ?_ ?_ fun hbare => ?_
        · rw [List.singleton_append, separators_cons, if_neg (by simp), hnone]
          rfl
        · intro c hc
          rw [← Option.some.inj hc]
          decide
        · rw [List.singleton_append, signs_blank_cons_eq_zero_iff hnone,
            head?_rowsText_renderedRows (hnames.2 b (List.mem_cons_self ..))]
          exact hchain.rel hbare
      refine .next hprevious hreads (ih hnames.2 hchain.tail fun _ => ?_)
      rw [Row.getLastD_text rfl]
      decide

/-! ## The whole tag -/

namespace TagParts

variable {parts : TagParts} {tag : Tag}

/-- **A tag that is written anew** is read as its name and its attributes. -/
theorem Reads.exists_rendered (h : parts.Reads) (hname : tag.name = parts.name.lowerCase)
    (hnames : ∀ a ∈ tag.attributes, a.1 ∈ parts.attributes.map Prod.fst) (hne : tag.attributes ≠ [])
    (hchain : tag.attributes.IsChain KeepsBare) :
    ∃ parts' : TagParts, parts'.Reads ∧ parts'.text = tag.render ∧
      parts'.name = parts.name.lowerCase ∧ parts'.closes = tag.selfClosing ∧
      parts'.attributes = tag.attributes := by
  -- the names are those of the rows in small letters
  have hsmall : ∀ a ∈ tag.attributes, IsAttributeName a.1 ∧ a.1.lowerCase = a.1 := by
    intro a ha
    obtain ⟨b, hb, heq⟩ := List.mem_map.mp (hnames a ha)
    obtain ⟨row, hrow, rfl⟩ := List.mem_map.mp hb
    rw [← heq]
    exact ⟨(h.listed.isAttributeName hrow).lowerCase, Text.lowerCase_lowerCase _⟩
  have hlast : IsTagEnd (if tag.selfClosing then "/>".toList else ['>']) := by
    cases tag.selfClosing
    · exact .inl rfl
    · exact .inr rfl
  have hlisted : Listed ' ' (renderedRows tag.attributes)
      (if tag.selfClosing then "/>".toList else ['>']) :=
    listed_renderedRows hlast (fun a ha => (hsmall a ha).1) hchain fun _ => by decide
  have hprevious : ('<' :: (parts.name.lowerCase ++ [' '])).getLastD '<' = ' ' := by
    rw [← List.cons_append, List.getLastD_concat]
  refine ⟨⟨parts.name.lowerCase, [' '], renderedRows tag.attributes,
    if tag.selfClosing then "/>".toList else ['>']⟩, ⟨⟨h.name.lowerCase, ?_, ?_, ?_, hlast,
      overlongIn?_renderedRows tag.attributes⟩, ?_⟩, ?_, rfl, ?_, ?_⟩
  · intro c hc
    rw [← Option.some.inj hc]
    decide
  · intro c hc
    rw [List.mem_singleton.mp hc]
    decide
  · intro c hc
    obtain ⟨a, rest, hattributes⟩ := List.exists_cons_of_ne_nil hne
    have ha := (hsmall a (by rw [hattributes]; exact List.mem_cons_self ..)).1
    obtain ⟨d, more, heq, hblank, hslash, -⟩ := ha.head (r := [])
    rw [List.append_nil] at heq
    dsimp only at hc
    rw [hattributes, renderedRows, rowsText_cons, Row.text_append] at hc
    dsimp only at hc
    rw [heq, List.cons_append, List.head?_cons, Option.some.injEq] at hc
    subst hc
    simp [hblank, hslash]
  · rw [previous]
    dsimp only
    rw [hprevious]
    exact hlisted
  · rw [text, Tag.render, hname]
    dsimp only
    rw [List.singleton_append, rowsText_renderedRows hne, List.append_assoc]
  · rw [closes]
    obtain ⟨a, rest, hattributes⟩ := List.exists_cons_of_ne_nil hne
    rw [hattributes]
    cases tag.selfClosing <;> rfl
  · exact map_decoded_renderedRows fun a ha => (hsmall a ha).2

end TagParts

end DataBinding.Markup
