/-
# Rows of attributes

An attribute of a start tag is a row: a name, a value with the equals signs in front of it, and the
separators behind it.  This file says which rows are read as which attributes, and turns the
attributes of a tag into rows.

* `attribute?_eq`, `exists_row`        : a row is read as its attribute, and nothing else is;
* `Listed`, `exists_listed`            : the rows of a tag in their order;
* `Row.Reads.congr`, `Row.Reads.rewritten` : a row in front of another text, and with another value.
-/
import DataBinding.Markup.Reference
import DataBinding.Proofs.Markup.Values

namespace DataBinding.Markup

/-! ## Names and separators -/

/-- A name that an attribute may have: only its first character may be an equals sign. -/
def IsAttributeName (name : Text) : Prop :=
  ∃ c more, name = c :: more ∧ (isAttributeNamePart c = true ∨ c = '=') ∧
    ∀ x ∈ more, isAttributeNamePart x = true

/-- Nothing in a text continues an attribute's name in front of it. -/
def EndsName (t : Text) : Prop :=
  ∀ c, t.head? = some c → isAttributeNamePart c = false

theorem IsAttributeName.length_pos {name : Text} (h : IsAttributeName name) : 0 < name.length := by
  obtain ⟨c, more, rfl, -, -⟩ := h
  exact Nat.succ_pos _

/-- A name is read up to where it ends. -/
theorem attributeName_append {name r : Text} (h : IsAttributeName name) (hr : EndsName r) :
    attributeName (name ++ r) = name.length := by
  obtain ⟨c, more, rfl, hc, hmore⟩ := h
  have hcond : (isAttributeNamePart c || c == '=') = true := by simpa using hc
  rw [List.cons_append, attributeName, if_pos hcond, Text.takeWhile_append_stop hmore hr,
    List.length_cons, Nat.add_comm]

/-- What is read as a name is one. -/
theorem exists_name {t : Text} (h : attributeName t ≠ 0) :
    ∃ name r, t = name ++ r ∧ attributeName t = name.length ∧ IsAttributeName name ∧ EndsName r := by
  cases t with
  | nil => exact absurd rfl h
  | cons c t =>
    rw [attributeName] at h ⊢
    split at h
    · rename_i hc
      obtain ⟨more, r, rfl, hmore, hr⟩ := Text.exists_run isAttributeNamePart t
      rw [if_pos hc, Text.takeWhile_append_stop hmore hr, Nat.add_comm]
      exact ⟨c :: more, r, rfl, rfl, ⟨c, more, rfl, by simpa using hc, hmore⟩, hr⟩
    · exact absurd rfl h

/-- The first character of a name neither separates attributes nor ends the tag. -/
theorem IsAttributeName.head {name r : Text} (h : IsAttributeName name) :
    ∃ c more, name ++ r = c :: more ∧ Text.isBlank c = false ∧ c ≠ '/' ∧ c ≠ '>' := by
  obtain ⟨c, more, rfl, hc | rfl, -⟩ := h
  · simp only [isAttributeNamePart, Bool.not_eq_true', Bool.or_eq_false_iff, beq_eq_false_iff_ne] at hc
    exact ⟨c, more ++ r, rfl, hc.1.1.1, hc.1.1.2, hc.2⟩
  · exact ⟨'=', more ++ r, rfl, by decide, by decide, by decide⟩

/-- Separators are blanks, and slashes that do not end the tag. -/
theorem separators_cons (c : Char) (t : Text) :
    separators (c :: t)
      = if c = '/' ∧ t.head? = some '>' then 0
        else if c == '/' || Text.isBlank c then 1 + separators t else 0 := by
  rw [separators.eq_def]
  split
  · rename_i heq
    obtain ⟨rfl, rfl⟩ := List.cons.inj heq
    rfl
  · rename_i hend heq
    obtain ⟨rfl, rfl⟩ := List.cons.inj heq
    have hno : ¬ (c = '/' ∧ t.head? = some '>') := by
      rintro ⟨rfl, hhead⟩
      obtain ⟨r, rfl⟩ := List.head?_eq_some_iff.mp hhead
      exact hend r rfl rfl
    rw [if_neg hno]
  · rename_i heq
    cases heq

theorem separators_le (t : Text) : separators t ≤ t.length := by
  induction t with
  | nil => exact Nat.le_refl 0
  | cons c t ih =>
    rw [separators_cons, List.length_cons]
    split_ifs <;> omega

/-- The separators at the head of a text. -/
theorem exists_gap (t : Text) :
    ∃ gap r, t = gap ++ r ∧ separators (gap ++ r) = gap.length := by
  have hle := separators_le t
  refine ⟨t.take (separators t), t.drop (separators t), (List.take_append_drop ..).symm, ?_⟩
  rw [List.take_append_drop, List.length_take, Nat.min_eq_left hle]

/-- Each separator is a slash or a blank. -/
theorem isSeparator_of_mem_gap {gap r : Text} (h : separators (gap ++ r) = gap.length) :
    ∀ c ∈ gap, (c == '/' || Text.isBlank c) = true := by
  induction gap with
  | nil => simp
  | cons c gap ih =>
    rw [List.cons_append, separators_cons, List.length_cons] at h
    split_ifs at h with hend hsep
    rw [List.forall_mem_cons]
    exact ⟨hsep, ih (by omega)⟩

/-- Separators go on up to a character that is none. -/
theorem separators_eq_zero_of_gap {gap r : Text} (h : separators (gap ++ r) = gap.length) :
    separators r = 0 := by
  induction gap with
  | nil => exact h
  | cons c gap ih =>
    rw [List.cons_append, separators_cons, List.length_cons] at h
    split_ifs at h
    exact ih (by omega)

/-- The same separators are read in front of a text that starts alike. -/
theorem separators_congr {gap r r' : Text} (h : separators (gap ++ r) = gap.length)
    (hr : separators r' = 0) (hhead : r'.head? = r.head?) : separators (gap ++ r') = gap.length := by
  induction gap with
  | nil => exact hr
  | cons c gap ih =>
    have hnext : (gap ++ r').head? = (gap ++ r).head? := by
      cases gap with
      | nil => exact hhead
      | cons d gap => rfl
    rw [List.cons_append, separators_cons, List.length_cons] at h ⊢
    rw [hnext]
    split_ifs at h ⊢
    rw [ih (by omega)]
    omega

/-! ## Rows -/

/-- An attribute in a start tag: its name, its value with the equals signs in front of it and the
separators behind it, all as written, and the value that is read. -/
structure Row where
  name : Text
  value : Text
  gap : Text
  read : Option Text

namespace Row

/-- The row as it is written. -/
def text (row : Row) : Text :=
  row.name ++ (row.value ++ row.gap)

/-- The attribute that a row is read as. -/
def toAttribute (row : Row) : RawAttribute :=
  ⟨row.name, row.read⟩

theorem length_text (row : Row) :
    row.text.length = row.name.length + row.value.length + row.gap.length := by
  simp only [text, List.length_append]
  omega

theorem text_append (row : Row) (r : Text) :
    row.text ++ r = row.name ++ (row.value ++ (row.gap ++ r)) := by
  simp [text, List.append_assoc]

/-- The row is read as its attribute in front of a text. -/
structure Reads (row : Row) (r : Text) : Prop where
  name : IsAttributeName row.name
  stop : EndsName (row.value ++ (row.gap ++ r))
  value : attributeValue? (row.value ++ (row.gap ++ r)) = row.read.map fun v => (v, row.value.length)
  bare : row.read = none → row.value = []
  gap : separators (row.gap ++ r) = row.gap.length

theorem Reads.length_pos {row : Row} {r : Text} (h : row.Reads r) : 0 < row.text.length := by
  have := h.name.length_pos
  rw [length_text]
  omega

end Row

/-- **A row is read as its attribute.** -/
theorem attribute?_eq {row : Row} {r : Text} {previous : Char} (hmay : mayPrecede previous = true)
    (h : row.Reads r) :
    attribute? previous (row.text ++ r) = some (row.toAttribute, row.text.length) := by
  have hpos := h.name.length_pos
  have hname : attributeName (row.text ++ r) = row.name.length := by
    rw [row.text_append, attributeName_append h.name h.stop]
  have hdrop : (row.text ++ r).drop row.name.length = row.value ++ (row.gap ++ r) := by
    rw [row.text_append, List.drop_left]
  have htake : (row.text ++ r).take row.name.length = row.name := by
    rw [row.text_append, List.take_left]
  have hcond : ¬ (row.name.length == 0 || !mayPrecede previous) = true := by
    simp [hmay, Nat.ne_of_gt hpos]
  rw [attribute?]
  simp only [hname, hdrop, htake, h.value]
  rw [if_neg hcond, Row.toAttribute, row.length_text]
  cases hread : row.read with
  | none =>
    have hgap := h.gap
    simp [h.bare hread, hgap]
  | some v =>
    simp [h.gap]

/-- **What is read as an attribute is a row.** -/
theorem exists_row {u : Text} {previous : Char} {found : RawAttribute} {n : Nat}
    (h : attribute? previous u = some (found, n)) :
    mayPrecede previous = true ∧ ∃ (row : Row) (r : Text), u = row.text ++ r ∧ n = row.text.length ∧
      found = row.toAttribute ∧ row.Reads r := by
  have hmay : mayPrecede previous = true := by
    by_contra hno
    rw [attribute?] at h
    simp [hno] at h
  have hne : attributeName u ≠ 0 := by
    intro hzero
    rw [attribute?] at h
    simp [hzero] at h
  obtain ⟨name, rest, rfl, -, hname, hends⟩ := exists_name hne
  -- the value and the separators are the parts of the rest that the reader takes
  obtain ⟨row, r, rfl, hrow, hreads⟩ : ∃ (row : Row) (r : Text),
      rest = row.value ++ (row.gap ++ r) ∧ row.name = name ∧ row.Reads r := by
    cases hvalue : attributeValue? rest with
    | none =>
      obtain ⟨gap, r, rfl, hgap⟩ := exists_gap rest
      exact ⟨⟨name, [], gap, none⟩, r, rfl, rfl, hname, hends, hvalue, fun _ => rfl, hgap⟩
    | some found =>
      obtain ⟨value, m⟩ := found
      have hm := length_le_of_attributeValue? hvalue
      obtain ⟨gap, r, hdrop, hgap⟩ := exists_gap (rest.drop m)
      have hlength : (rest.take m).length = m := by
        rw [List.length_take, Nat.min_eq_left hm.2]
      have hsplit : rest = rest.take m ++ (gap ++ r) := by
        rw [← hdrop, List.take_append_drop]
      refine ⟨⟨name, rest.take m, gap, some value⟩, r, hsplit, rfl, hname, ?_, ?_, ?_, hgap⟩
      · rwa [← hsplit]
      · dsimp only
        rw [← hsplit, hvalue, Option.map_some, hlength]
      · intro hnone
        cases hnone
  subst hrow
  have heq := attribute?_eq hmay hreads
  rw [row.text_append] at heq
  rw [heq] at h
  cases h
  exact ⟨hmay, row, r, (row.text_append r).symm, rfl, rfl, hreads⟩

/-! ## Rows in front of another text -/

section Congr

variable {r r' : Text}

/-- What follows separators is no blank. -/
theorem notBlank_of_separators (h : separators r = 0) :
    ∀ c, r.head? = some c → Text.isBlank c = false := by
  intro c hc
  obtain ⟨t, rfl⟩ := List.head?_eq_some_iff.mp hc
  by_contra hblank
  rw [Bool.not_eq_false] at hblank
  have hne : c ≠ '/' := by
    rintro rfl
    exact absurd hblank (by decide)
  rw [separators_cons] at h
  simp [hblank, hne] at h

/-- The same number of blanks stands in front of texts that start alike. -/
theorem head?_dropWhile_congr (u : Text) (hhead : r'.head? = r.head?)
    (hblank : ∀ c, r.head? = some c → Text.isBlank c = false) :
    ((u ++ r').dropWhile Text.isBlank).head? = ((u ++ r).dropWhile Text.isBlank).head? := by
  induction u with
  | nil =>
    have hstay : ∀ t : Text, (∀ c, t.head? = some c → Text.isBlank c = false) →
        t.dropWhile Text.isBlank = t := by
      intro t ht
      cases t with
      | nil => rfl
      | cons c t => exact List.dropWhile_cons_of_neg (by simp [ht c rfl])
    rw [List.nil_append, List.nil_append, hstay r hblank, hstay r' (hhead ▸ hblank), hhead]
  | cons c u ih =>
    rw [List.cons_append, List.cons_append, List.dropWhile_cons, List.dropWhile_cons]
    split
    · exact ih
    · rfl

namespace Row

/-- A row with paired quotes is read alike in front of any text that starts alike. -/
theorem Reads.congr {row : Row} (h : row.Reads r)
    (hpaired : isUnpaired (row.value ++ (row.gap ++ r)) = false) (hhead : r'.head? = r.head?)
    (hgap : separators r' = 0) : row.Reads r' := by
  have hbehind := head?_append_congr row.gap hhead
  refine ⟨h.name, ?_, ?_, h.bare, separators_congr h.gap hgap hhead⟩
  · intro c hc
    rw [head?_append_congr row.value hbehind] at hc
    exact h.stop c hc
  · have hvalue := h.value
    cases hread : row.read with
    | none =>
      rw [hread] at hvalue
      have hsigns := signs_of_attributeValue? hvalue hpaired
      have hblank := notBlank_of_separators (separators_eq_zero_of_gap h.gap)
      rw [h.bare hread, List.nil_append, signs_eq_zero_iff] at hsigns
      rw [h.bare hread, List.nil_append]
      refine attributeValue?_of_signs (signs_eq_zero_iff.mpr ?_)
      rwa [head?_dropWhile_congr row.gap hhead hblank]
    | some v =>
      rw [hread] at hvalue
      exact attributeValue?_congr hvalue hpaired hbehind

/-- The row with another value, in quotes. -/
def rewritten (row : Row) (quote : Quote) (contents : Text) : Row :=
  { row with value := '=' :: quote.char :: (contents ++ [quote.char]), read := some contents }

/-- **A value in quotes** is read as what stands between them. -/
theorem reads_rewritten {row : Row} (hname : IsAttributeName row.name)
    (hgap : separators (row.gap ++ r) = row.gap.length) {quote : Quote} {contents : Text}
    (hmem : quote.char ∉ contents) : (row.rewritten quote contents).Reads r := by
  refine ⟨hname, ?_, ?_, (by rintro ⟨⟩), hgap⟩
  · intro c hc
    rw [Row.rewritten, List.cons_append, List.head?_cons, Option.some.injEq] at hc
    subst hc
    decide
  · have hquote : quote.char = '"' ∨ quote.char = '\'' := by
      cases quote
      · exact .inr rfl
      · exact .inl rfl
    have hleads : (⟨[], 1, []⟩ : Indicator).Leads
        (quote.char :: (contents ++ quote.char :: (row.gap ++ r))) := by
      refine ⟨by simp, Nat.one_pos, by simp, fun c hc => ?_⟩
      rw [List.head?_cons, Option.some.injEq] at hc
      subst hc
      cases quote <;> decide
    have hall : (row.rewritten quote contents).value ++ (row.gap ++ r)
        = (⟨[], 1, []⟩ : Indicator).text
          ++ quote.char :: (contents ++ quote.char :: (row.gap ++ r)) := by
      simp [Row.rewritten, Indicator.text]
    rw [show (row.rewritten quote contents).gap = row.gap from rfl, hall,
      attributeValue?_quoted hleads hquote hmem]
    simp [Row.rewritten, Indicator.text, Nat.add_comm, Nat.add_left_comm]

/-- A row keeps its place with another value. -/
theorem Reads.rewritten {row : Row} (h : row.Reads r) {quote : Quote} {contents : Text}
    (hmem : quote.char ∉ contents) (hhead : r'.head? = r.head?) (hgap : separators r' = 0) :
    (row.rewritten quote contents).Reads r' :=
  reads_rewritten h.name (separators_congr h.gap hgap hhead) hmem

end Row
end Congr

/-! ## The rows of a tag -/

/-- Rows in front of the end of a tag, as they are written. -/
def rowsText (rows : List Row) (last : Text) : Text :=
  rows.flatMap Row.text ++ last

theorem rowsText_cons (row : Row) (rows : List Row) (last : Text) :
    rowsText (row :: rows) last = row.text ++ rowsText rows last := by
  simp [rowsText, List.append_assoc]

/-- Rows are read one after the other behind a character, and no attribute follows them. -/
inductive Listed : Char → List Row → Text → Prop
  | done {previous : Char} {last : Text} (stop : attributeName last = 0) : Listed previous [] last
  | next {previous : Char} {row : Row} {rows : List Row} {last : Text}
      (may : mayPrecede previous = true) (head : row.Reads (rowsText rows last))
      (tail : Listed (row.text.getLastD previous) rows last) : Listed previous (row :: rows) last

/-- Rows have names of attributes. -/
theorem Listed.isAttributeName {previous : Char} {rows : List Row} {last : Text}
    (h : Listed previous rows last) {row : Row} (hrow : row ∈ rows) : IsAttributeName row.name := by
  induction h with
  | done => cases hrow
  | next _ hhead _ ih =>
    rcases List.mem_cons.mp hrow with rfl | hrow
    · exact hhead.name
    · exact ih hrow

theorem attributesFrom_succ (skip : Nat) (previous c : Char) (t : Text) :
    attributesFrom (skip + 1) previous (c :: t)
      = ((attributesFrom skip c t).1, (attributesFrom skip c t).2 + 1) :=
  rfl

-- the reading of one attribute stays closed while its result is taken apart
attribute [local irreducible] attribute? in
theorem attributesFrom_cons (previous c : Char) (t : Text) :
    attributesFrom 0 previous (c :: t) =
      match attribute? previous (c :: t) with
      | none => ([], 0)
      | some (found, n) =>
        (found :: (attributesFrom (n - 1) c t).1, (attributesFrom (n - 1) c t).2 + 1) :=
  rfl

/-- Skipped characters belong to an attribute before. -/
theorem attributesFrom_skip {skip : Nat} {previous : Char} {t : Text} (h : skip ≤ t.length) :
    attributesFrom skip previous t
      = ((attributesFrom 0 ((t.take skip).getLastD previous) (t.drop skip)).1,
        (attributesFrom 0 ((t.take skip).getLastD previous) (t.drop skip)).2 + skip) := by
  induction skip generalizing previous t with
  | zero => rfl
  | succ skip ih =>
    cases t with
    | nil => simp at h
    | cons c t =>
      rw [attributesFrom_succ, ih (by simpa using h), List.take_succ_cons, List.drop_succ_cons,
        List.getLastD_cons, Nat.add_assoc]

/-- One attribute is read, and then the others. -/
theorem attributesFrom_row {row : Row} {r : Text} {previous : Char}
    (hmay : mayPrecede previous = true) (h : row.Reads r) :
    attributesFrom 0 previous (row.text ++ r)
      = (row.toAttribute :: (attributesFrom 0 (row.text.getLastD previous) r).1,
        (attributesFrom 0 (row.text.getLastD previous) r).2 + row.text.length) := by
  have hattribute := attribute?_eq hmay h
  have hpos := h.length_pos
  cases htext : row.text with
  | nil =>
    rw [htext] at hpos
    exact absurd hpos (Nat.lt_irrefl 0)
  | cons c t =>
    rw [htext] at hattribute
    have hlength : t.length ≤ (t ++ r).length := by simp
    rw [List.cons_append, attributesFrom_cons, ← List.cons_append, hattribute]
    simp only [List.length_cons, Nat.add_sub_cancel]
    rw [attributesFrom_skip hlength, List.take_left, List.drop_left, List.getLastD_cons, Nat.add_assoc]

/-- Where no name starts, no attribute is read. -/
theorem attributesFrom_of_attributeName {previous : Char} {t : Text} (h : attributeName t = 0) :
    attributesFrom 0 previous t = ([], 0) := by
  cases t with
  | nil => rfl
  | cons c t =>
    have hnone : attribute? previous (c :: t) = none := by
      rw [attribute?]
      simp [h]
    rw [attributesFrom_cons, hnone]

/-- **Rows are read as their attributes.** -/
theorem Listed.attributesFrom_eq {previous : Char} {rows : List Row} {last : Text}
    (h : Listed previous rows last) :
    attributesFrom 0 previous (rowsText rows last)
      = (rows.map Row.toAttribute, (rows.flatMap Row.text).length) := by
  induction h with
  | done hstop => exact attributesFrom_of_attributeName hstop
  | next hmay hhead _ ih =>
    rw [rowsText_cons, attributesFrom_row hmay hhead, ih]
    simp [Nat.add_comm]

/-- **What is read as the attributes of a tag are rows.** -/
theorem exists_listed {u : Text} {previous : Char} {attributes : List RawAttribute} {n : Nat}
    (h : attributesFrom 0 previous u = (attributes, n)) (hstop : attributeName (u.drop n) = 0) :
    ∃ rows last, u = rowsText rows last ∧ last = u.drop n ∧ Listed previous rows last := by
  induction hn : u.length using Nat.strong_induction_on generalizing u previous attributes n with
  | _ k ih =>
    subst hn
    cases hattribute : attribute? previous u with
    | none =>
      have hzero : attributesFrom 0 previous u = ([], 0) := by
        cases u with
        | nil => rfl
        | cons c u => rw [attributesFrom_cons, hattribute]
      rw [hzero] at h
      cases h
      exact ⟨[], u, rfl, rfl, .done hstop⟩
    | some found =>
      obtain ⟨found, m⟩ := found
      obtain ⟨hmay, row, r, rfl, -, -, hreads⟩ := exists_row hattribute
      have hpos := hreads.length_pos
      rw [attributesFrom_row hmay hreads] at h
      obtain ⟨-, rfl⟩ := Prod.mk.inj h
      rw [Nat.add_comm, ← List.drop_drop, List.drop_left] at hstop
      obtain ⟨rows, last, hr, hlast, hlisted⟩ :=
        ih r.length (by rw [List.length_append]; omega) rfl hstop rfl
      refine ⟨row :: rows, last, ?_, ?_, .next hmay ?_ hlisted⟩
      · rw [rowsText_cons, ← hr]
      · rw [Nat.add_comm, ← List.drop_drop, List.drop_left]
        exact hlast
      · rwa [← hr]

end DataBinding.Markup
