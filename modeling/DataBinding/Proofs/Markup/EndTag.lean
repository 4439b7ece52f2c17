/-
# End tags in raw text

The contents of a script or style sheet run up to its end tag, which is searched for without regard
to case, blanks around the name and two letters that look alike in capitals; what is found ends the
element only if it is a plain end tag with its name, and else is text.  The key facts are

* `EndTagAt`              : how an end tag is written;
* `exists_of_endsRaw`     : how what is found in the search for one is written;
* `holdsEnd_append_cons`  : a character that no end tag holds keeps apart what stands around it.
-/
import DataBinding.Proofs.Markup.Pieces

namespace DataBinding.Markup

/-! ## How end tags are written -/

/-- An end tag stands at the head of a text: a name with blanks around it. -/
def EndTagAt (name t : Text) : Prop :=
  ∃ b b' r, t = "</".toList ++ b ++ name ++ b' ++ '>' :: r ∧
    (∀ c ∈ b, Text.isBlank c = true) ∧ ∀ c ∈ b', Text.isBlank c = true

/-- Blanks in front of another character are taken off. -/
theorem drop_blanks_append {b : Text} {c : Char} {r : Text} (hb : ∀ x ∈ b, Text.isBlank x = true)
    (hc : Text.isBlank c = false) : (b ++ c :: r).drop (blanks (b ++ c :: r)) = c :: r := by
  rw [blanks, Text.takeWhile_append_stop hb (by simpa using hc), List.drop_left]

/-- The blanks at the head of a text stand in front of what is left. -/
theorem exists_blanks (t : Text) :
    ∃ b, t = b ++ t.drop (blanks t) ∧ ∀ x ∈ b, Text.isBlank x = true := by
  obtain ⟨b, r, rfl, hb, hr⟩ := Text.exists_run Text.isBlank t
  exact ⟨b, by rw [blanks, Text.takeWhile_append_stop hb hr, List.drop_left], hb⟩

/-- The end of a tag stands behind blanks. -/
theorem spaced?_close_iff {t : Text} :
    (spaced? ['>'] t).isSome = true ↔ ∃ b r, t = b ++ '>' :: r ∧ ∀ c ∈ b, Text.isBlank c = true := by
  constructor
  · intro h
    obtain ⟨b, ht, hb⟩ := exists_blanks t
    rw [spaced?] at h
    split at h
    · rename_i c r hdrop
      split at h
      · rename_i hc
        obtain rfl := eq_of_beq hc
        exact ⟨b, r, by rw [← hdrop, ← ht], hb⟩
      · cases h
    · cases h
  · rintro ⟨b, r, rfl, hb⟩
    rw [spaced?, drop_blanks_append hb (by decide)]
    rfl

/-- A name that starts with a letter and goes on with what names consist of. -/
def IsPlainName (name : Text) : Prop :=
  ∃ c more, name = c :: more ∧ c.isAlpha = true ∧ ∀ x ∈ more, isEndNamePart x = true

section Names

variable {c : Char}

theorem isEndNamePart_of_isAlpha (h : c.isAlpha = true) : isEndNamePart c = true := by
  simp [isEndNamePart, Char.isAlphanum, h]

/-- What names consist of is plain and lies between the blanks and the marks of tags. -/
theorem toNat_of_isEndNamePart (h : isEndNamePart c = true) :
    0x2D ≤ c.toNat ∧ c.toNat < 0x80 ∧ c ≠ '<' ∧ c ≠ '>' := by
  have hrange : 0x2D ≤ c.toNat ∧ c.toNat < 0x80 := by
    simp only [isEndNamePart, Char.isAlphanum, Char.isAlpha, Char.isUpper, Char.isLower,
      Char.isDigit, Bool.or_eq_true, Bool.and_eq_true, decide_eq_true_eq, beq_iff_eq] at h
    change ((((((65 ≤ c.toNat ∧ c.toNat ≤ 90) ∨ (97 ≤ c.toNat ∧ c.toNat ≤ 122)) ∨
      (48 ≤ c.toNat ∧ c.toNat ≤ 57)) ∨ c = '-') ∨ c = '.') ∨ c = ':') ∨ c = '_' at h
    rcases h with (((((h | h) | h) | rfl) | rfl) | rfl) | rfl
    · omega
    · omega
    · omega
    all_goals exact ⟨by decide, by decide⟩
  refine ⟨hrange.1, hrange.2, ?_, ?_⟩ <;> rintro rfl <;> exact absurd h (by decide)

/-- No blank is part of a name. -/
theorem isBlank_of_isEndNamePart (h : isEndNamePart c = true) : Text.isBlank c = false := by
  obtain ⟨hlow, hhigh, -, -⟩ := toNat_of_isEndNamePart h
  simp only [Text.isBlank, Bool.or_eq_false_iff, Bool.and_eq_false_iff, decide_eq_false_iff_not,
    beq_eq_false_iff_ne, ne_eq]
  omega

theorem isEndNamePart_of_mem {name : Text} (h : IsPlainName name) (hc : c ∈ name) :
    isEndNamePart c = true := by
  obtain ⟨first, more, rfl, hfirst, hmore⟩ := h
  rcases List.mem_cons.mp hc with rfl | hc
  · exact isEndNamePart_of_isAlpha hfirst
  · exact hmore c hc

end Names

/-- The name at the head of a text ends in front of blanks and the end of the tag. -/
theorem takeWhile_isEndNamePart {more b r : Text} (hmore : ∀ x ∈ more, isEndNamePart x = true)
    (hb : ∀ x ∈ b, Text.isBlank x = true) :
    (more ++ (b ++ '>' :: r)).takeWhile isEndNamePart = more := by
  rw [List.takeWhile_append_of_pos hmore]
  have hnil : (b ++ '>' :: r).takeWhile isEndNamePart = [] := by
    cases b with
    | nil => rfl
    | cons c b =>
      refine List.takeWhile_cons_of_neg fun hc => ?_
      have hblank := hb c List.mem_cons_self
      rw [isBlank_of_isEndNamePart hc] at hblank
      cases hblank
  rw [hnil, List.append_nil]

/-- **Plain end tags** are those whose name is a plain one. -/
theorem plainEndTag?_eq_some_iff {t name : Text} :
    plainEndTag? t = some name ↔ IsPlainName name ∧ EndTagAt name t := by
  constructor
  · intro h
    unfold plainEndTag? at h
    split at h
    · rename_i t
      split at h
      · rename_i c rest hdrop
        split at h
        · rename_i hc
          dsimp only at h
          split at h
          · rename_i hclose
            obtain rfl := Option.some.inj h
            obtain ⟨b, ht, hb⟩ := exists_blanks t
            obtain ⟨b', r, hrest, hb'⟩ := spaced?_close_iff.mp hclose
            have hsplit : rest = rest.takeWhile isEndNamePart ++ (b' ++ '>' :: r) := by
              rw [← hrest, Text.drop_length_takeWhile, List.takeWhile_append_dropWhile]
            refine ⟨⟨c, _, rfl, hc, fun x hx => List.mem_takeWhile_imp hx⟩, b, b', r, ?_, hb, hb'⟩
            rw [ht, hdrop]
            conv_lhs => rw [hsplit]
            simp
          · cases h
        · cases h
      · cases h
    · cases h
  · rintro ⟨⟨c, more, rfl, hc, hmore⟩, b, b', r, rfl, hb, hb'⟩
    have hdrop : (b ++ c :: (more ++ (b' ++ '>' :: r))).drop
        (blanks (b ++ c :: (more ++ (b' ++ '>' :: r)))) = c :: (more ++ (b' ++ '>' :: r)) :=
      drop_blanks_append hb (isBlank_of_isEndNamePart (isEndNamePart_of_isAlpha hc))
    have hclose : (spaced? ['>'] ((more ++ (b' ++ '>' :: r)).drop more.length)).isSome = true := by
      rw [List.drop_left]
      exact spaced?_close_iff.mpr ⟨b', r, rfl, hb'⟩
    have ht : "</".toList ++ b ++ c :: more ++ b' ++ '>' :: r
        = '<' :: '/' :: (b ++ c :: (more ++ (b' ++ '>' :: r))) := by
      simp
    rw [ht]
    simp only [plainEndTag?, hdrop, hc, if_true, takeWhile_isEndNamePart hmore hb', hclose]

/-! ## Searching for an end tag -/

/-- A name in any case, in the given spelling. -/
theorem dropName?_eq_some_iff {name t rest : Text} :
    dropName? name t = some rest ↔
      ∃ spelled, t = spelled ++ rest ∧ List.Forall₂ (fun n c => isCaseVariant n c = true) name spelled := by
  induction name generalizing t with
  | nil =>
    simp only [dropName?, Option.some.injEq]
    constructor
    · rintro rfl
      exact ⟨[], rfl, .nil⟩
    · rintro ⟨_, rfl, h⟩
      cases h
      rfl
  | cons n name ih =>
    cases t with
    | nil =>
      simp only [dropName?, reduceCtorEq, List.nil_eq, List.append_eq_nil_iff, false_iff]
      rintro ⟨_, ⟨rfl, -⟩, h⟩
      cases h
    | cons c t =>
      rw [dropName?]
      constructor
      · intro h
        split at h
        · rename_i hc
          obtain ⟨spelled, rfl, hspelled⟩ := ih.mp h
          exact ⟨c :: spelled, rfl, .cons hc hspelled⟩
        · cases h
      · rintro ⟨spelled, ht, hspelled⟩
        cases hspelled with
        | cons hc hrest =>
          obtain ⟨rfl, rfl⟩ := List.cons.inj ht
          rw [if_pos hc]
          exact ih.mpr ⟨_, rfl, hrest⟩

/-- A character that end tags hold in names only, and that has no other case. -/
def IsMark (c : Char) : Prop :=
  c ≠ '/' ∧ Text.isBlank c = false ∧ c.toLower = c ∧ c.toNat < 0x80

instance (c : Char) : Decidable (IsMark c) :=
  inferInstanceAs (Decidable (_ ∧ _))

/-- A mark is spelled in one way only. -/
theorem mem_of_mem_spelled {name spelled : Text} {c : Char}
    (h : List.Forall₂ (fun n c => isCaseVariant n c = true) name spelled) (hc : IsMark c)
    (hmem : c ∈ spelled) : c ∈ name := by
  obtain ⟨-, -, hlower, hplain⟩ := hc
  induction h with
  | nil => cases hmem
  | @cons n d name spelled hd _ ih =>
    rcases List.mem_cons.mp hmem with rfl | hmem
    · simp only [isCaseVariant, Bool.or_eq_true, Bool.and_eq_true, beq_iff_eq] at hd
      rcases hd with (hd | ⟨-, rfl⟩) | ⟨-, rfl | rfl⟩
      · rw [← hd, hlower]
        exact List.mem_cons_self
      · exact absurd hplain (by decide)
      · exact absurd hplain (by decide)
      · exact absurd hplain (by decide)
    · exact List.mem_cons_of_mem _ (ih hmem)

/-- **What is found in the search for an end tag** is a mark, some characters and the end of a tag, and
it is found whatever follows it. -/
theorem exists_of_endsRaw {name t : Text} (h : endsRaw name t = true) :
    ∃ w r, t = '<' :: (w ++ '>' :: r) ∧ (∀ c, IsMark c → c ∉ name → c ∉ w) ∧
      ∀ more, endsRaw name ('<' :: (w ++ '>' :: more)) = true := by
  unfold endsRaw at h
  split at h
  · rename_i t
    split at h
    · rename_i rest hrest
      obtain ⟨b, u, rfl, hb, hu⟩ := Text.exists_run Text.isBlank t
      rw [blanks, Text.takeWhile_append_stop hb hu, List.drop_left] at hrest
      obtain ⟨spelled, rfl, hspelled⟩ := dropName?_eq_some_iff.mp hrest
      obtain ⟨b', r, rfl, hb'⟩ := spaced?_close_iff.mp h
      refine ⟨'/' :: (b ++ spelled ++ b'), r, by simp, fun c hc hname hmem => ?_, fun more => ?_⟩
      · simp only [List.mem_cons, List.mem_append] at hmem
        rcases hmem with hslash | (hmem | hmem) | hmem
        · exact hc.1 hslash
        · exact absurd (hb c hmem) (by simp [hc.2.1])
        · exact hname (mem_of_mem_spelled hspelled hc hmem)
        · exact absurd (hb' c hmem) (by simp [hc.2.1])
      · have hhead : (spelled ++ (b' ++ '>' :: more)).head?
            = (spelled ++ (b' ++ '>' :: r)).head? := by
          cases spelled <;> cases b' <;> rfl
        have ht : '<' :: ('/' :: (b ++ spelled ++ b') ++ '>' :: more)
            = '<' :: '/' :: (b ++ (spelled ++ (b' ++ '>' :: more))) := by
          simp
        rw [ht, endsRaw, blanks, Text.takeWhile_append_stop hb (hhead ▸ hu), List.drop_left,
          dropName?_eq_some_iff.mpr ⟨spelled, rfl, hspelled⟩]
        exact spaced?_close_iff.mpr ⟨b', more, rfl, hb'⟩
    · cases h
  · cases h

/-! ## The end of an element -/

/-- The end tag of the element with a name stands at the head of a text. -/
def EndsElement (name t : Text) : Prop :=
  (plainEndTag? t).map Text.lowerCase = some name

theorem endsElement_iff {name t : Text} :
    EndsElement name t ↔
      ∃ written, IsPlainName written ∧ written.lowerCase = name ∧ EndTagAt written t := by
  unfold EndsElement
  rw [Option.map_eq_some_iff]
  simp only [plainEndTag?_eq_some_iff]
  exact exists_congr fun _ => ⟨fun ⟨⟨hplain, hat⟩, hname⟩ => ⟨hplain, hname, hat⟩,
    fun ⟨hplain, hname, hat⟩ => ⟨⟨hplain, hat⟩, hname⟩⟩

/-- The end tag of an element is found in the search for it. -/
theorem EndsElement.endsRaw {name t : Text} (h : EndsElement name t) : endsRaw name t = true := by
  obtain ⟨written, hplain, rfl, b, b', r, rfl, hb, hb'⟩ := endsElement_iff.mp h
  have hlower : written.lowerCase = written.map Char.toLower :=
    Text.lowerCase_of_plain fun c hc => (toNat_of_isEndNamePart (isEndNamePart_of_mem hplain hc)).2.1
  have hvariants : ∀ t : Text,
      List.Forall₂ (fun n c => isCaseVariant n c = true) (t.map Char.toLower) t := by
    intro t
    induction t with
    | nil => exact .nil
    | cons c t ih => exact .cons (by simp [isCaseVariant]) ih
  have hspelled := hvariants written
  rw [← hlower] at hspelled
  obtain ⟨c, more, rfl, hc, -⟩ := hplain
  have hdrop : (b ++ c :: (more ++ (b' ++ '>' :: r))).drop
      (blanks (b ++ c :: (more ++ (b' ++ '>' :: r)))) = c :: more ++ (b' ++ '>' :: r) :=
    drop_blanks_append hb (isBlank_of_isEndNamePart (isEndNamePart_of_isAlpha hc))
  have ht : "</".toList ++ b ++ c :: more ++ b' ++ '>' :: r
      = '<' :: '/' :: (b ++ c :: (more ++ (b' ++ '>' :: r))) := by
    simp
  rw [ht, Markup.endsRaw, hdrop, dropName?_eq_some_iff.mpr ⟨_, rfl, hspelled⟩]
  exact spaced?_close_iff.mpr ⟨b', r, rfl, hb'⟩

/-- An end tag goes on with whatever follows it. -/
theorem EndTagAt.append {name t : Text} (h : EndTagAt name t) (more : Text) :
    EndTagAt name (t ++ more) := by
  obtain ⟨b, b', r, rfl, hb, hb'⟩ := h
  exact ⟨b, b', r ++ more, by simp, hb, hb'⟩

/-- An end tag is a mark, characters between, and the end of the tag. -/
theorem EndTagAt.split {name t : Text} (h : EndTagAt name t) :
    ∃ w r, t = '<' :: (w ++ '>' :: r) ∧
      ∀ c ∈ w, c = '/' ∨ Text.isBlank c = true ∨ c ∈ name := by
  obtain ⟨b, b', r, rfl, hb, hb'⟩ := h
  refine ⟨'/' :: (b ++ name ++ b'), r, by simp, fun c hc => ?_⟩
  simp only [List.mem_cons, List.mem_append] at hc
  rcases hc with rfl | (hc | hc) | hc
  · exact .inl rfl
  · exact .inr (.inl (hb c hc))
  · exact .inr (.inr hc)
  · exact .inr (.inl (hb' c hc))

theorem EndsElement.append {name t : Text} (h : EndsElement name t) (more : Text) :
    EndsElement name (t ++ more) := by
  obtain ⟨written, hplain, hname, hat⟩ := endsElement_iff.mp h
  exact endsElement_iff.mpr ⟨written, hplain, hname, hat.append more⟩

/-! ## Texts with an end tag -/

/-- The end tag of the element with a name stands somewhere in a text. -/
def HoldsEnd (name t : Text) : Prop :=
  ∃ u v, t = u ++ v ∧ EndsElement name v

/-- What no end tag goes on with: it is no further mark of one, no blank, and no part of a name. -/
def KeepsApart (c : Char) : Prop :=
  c ≠ '/' ∧ c ≠ '>' ∧ Text.isBlank c = false ∧ isEndNamePart c = false

instance (c : Char) : Decidable (KeepsApart c) :=
  inferInstanceAs (Decidable (_ ∧ _))

section Holds

variable {name : Text}

theorem HoldsEnd.append_right {t : Text} (h : HoldsEnd name t) (more : Text) :
    HoldsEnd name (t ++ more) := by
  obtain ⟨u, v, rfl, hv⟩ := h
  exact ⟨u, v ++ more, by rw [List.append_assoc], hv.append more⟩

theorem HoldsEnd.append_left {t : Text} (h : HoldsEnd name t) (front : Text) :
    HoldsEnd name (front ++ t) := by
  obtain ⟨u, v, rfl, hv⟩ := h
  exact ⟨front ++ u, v, by rw [List.append_assoc], hv⟩

/-- An end tag that starts in front of a character that keeps apart ends in front of it. -/
theorem EndsElement.of_append_cons {v b : Text} {c : Char} (hc : KeepsApart c) (hne : v ≠ [])
    (h : EndsElement name (v ++ c :: b)) : EndsElement name v := by
  obtain ⟨written, hplain, hname, d, d', r, ht, hd, hd'⟩ := endsElement_iff.mp h
  refine endsElement_iff.mpr ⟨written, hplain, hname, ?_⟩
  obtain ⟨x, v, rfl⟩ := List.exists_cons_of_ne_nil hne
  obtain ⟨hslash, hgt, hblank, hpart⟩ := hc
  have hnot : c ∉ '/' :: (d ++ written ++ d' ++ ['>']) := by
    simp only [List.mem_cons, List.mem_append, List.not_mem_nil, or_false]
    rintro (hmem | ((hmem | hmem) | hmem) | hmem)
    · exact hslash hmem
    · simp [hd c hmem] at hblank
    · simp [isEndNamePart_of_mem hplain hmem] at hpart
    · simp [hd' c hmem] at hblank
    · exact hgt hmem
  obtain ⟨rfl, hsplit⟩ : x = '<' ∧ v ++ c :: b = '/' :: (d ++ written ++ d' ++ ['>']) ++ r := by
    simpa using ht
  rcases List.append_eq_append_iff.mp hsplit with ⟨w, hw, hrest⟩ | ⟨w, hw, -⟩
  · cases w with
    | nil =>
      rw [List.append_nil] at hw
      exact ⟨d, d', [], by rw [← hw]; simp, hd, hd'⟩
    | cons y w =>
      obtain ⟨rfl, -⟩ := List.cons.inj hrest
      rw [hw] at hnot
      exact absurd (List.mem_append_right _ List.mem_cons_self) hnot
  · exact ⟨d, d', w, by rw [hw]; simp, hd, hd'⟩

/-- An end tag starts with its mark. -/
theorem EndsElement.exists_cons {t : Text} (h : EndsElement name t) : ∃ r, t = '<' :: r := by
  obtain ⟨_, _, _, hat⟩ := endsElement_iff.mp h
  obtain ⟨w, r, rfl, -⟩ := hat.split
  exact ⟨_, rfl⟩

/-- **What no end tag goes on with keeps apart** what stands around it. -/
theorem holdsEnd_append_cons {a b : Text} {c : Char} (hc : KeepsApart c) :
    HoldsEnd name (a ++ c :: b) ↔ HoldsEnd name a ∨ HoldsEnd name (c :: b) := by
  constructor
  · rintro ⟨u, v, hsplit, hv⟩
    rcases List.append_eq_append_iff.mp hsplit with ⟨w, rfl, hrest⟩ | ⟨w, rfl, rfl⟩
    · exact .inr ⟨w, v, hrest, hv⟩
    · cases w with
      | nil => exact .inr ⟨[], _, rfl, hv⟩
      | cons x w => exact .inl ⟨u, x :: w, rfl, hv.of_append_cons hc (by simp)⟩
  · rintro (h | h)
    · exact h.append_right _
    · exact h.append_left _

/-- Only a mark adds an end tag in front of a text. -/
theorem holdsEnd_cons {t : Text} {c : Char} (hc : c ≠ '<') :
    HoldsEnd name (c :: t) ↔ HoldsEnd name t := by
  constructor
  · rintro ⟨u, v, hsplit, hv⟩
    cases u with
    | nil =>
      obtain ⟨r, rfl⟩ := hv.exists_cons
      exact absurd (List.cons.inj hsplit).1 hc
    | cons x u => exact ⟨u, v, (List.cons.inj hsplit).2, hv⟩
  · exact fun h => h.append_left [c]

/-- A text without the mark that starts a tag holds no end tag. -/
theorem not_holdsEnd_of_notMem {t : Text} (h : '<' ∉ t) : ¬ HoldsEnd name t := by
  rintro ⟨u, v, rfl, hv⟩
  obtain ⟨r, rfl⟩ := hv.exists_cons
  exact h (List.mem_append_right _ List.mem_cons_self)

end Holds

end DataBinding.Markup
