/-
# Start tags as patterns

Where values are put in place, the opening of a start tag and its attributes are found by two
patterns.  The pattern of attributes looks for a name, and behind it for an equals sign and a value; a
value is missing where the pattern of values does not match, however the blanks are shared out.

* `first_openingPattern`   : the opening that is cut off is what the pattern of openings matches;
* `first_valuePattern`     : the same of values, with the blank given back in front of a single quote;
* `first_attributePattern` : the slot that is cut off is what the pattern of attributes matches.
-/
import DataBinding.Markup.Splice
import DataBinding.Proofs.Markup.Pieces
import DataBinding.Proofs.Text.Pattern

namespace DataBinding.Markup

open Pattern

/-! ## The patterns -/

/-- An angle bracket and a name. -/
def openingPattern : Pattern :=
  .both (.one (· == '<')) (.several fun c => !(Text.isBlank c || c == '/' || c == '>'))

/-- What stands between two quotes, with the quotes. -/
def quotedPattern (quote : Char) : Pattern :=
  .both (.one (· == quote)) (.both (.many (· != quote)) (.one (· == quote)))

/-- A value as it is written, in quotes or bare. -/
def rawPattern : Pattern :=
  .either (quotedPattern '\'') (.either (quotedPattern '"')
    (.both (.notAhead fun c => c == '\'' || c == '"') (.many isBarePart)))

/-- What follows an equals sign: blanks and a value. -/
def behindSignPattern : Pattern :=
  .both (.many Text.isBlank) (.marked "raw" rawPattern)

/-- A value with its equals sign, and blanks around the sign. -/
def valuePattern : Pattern :=
  .both (.many Text.isBlank) (.both (.one (· == '=')) behindSignPattern)

/-- An attribute's name behind blanks and slashes, and its value if there is one. -/
def attributePattern : Pattern :=
  .both (.many fun c => c == '/' || Text.isBlank c)
    (.both (.marked "name" (.several isAttributeNamePart)) (.maybe valuePattern))

/-! ## Openings -/

/-- **The opening of a tag** is what the pattern of openings matches. -/
theorem first_openingPattern (t : Text) :
    openingPattern.first t = (opening? t).map fun n => ⟨t.take n, []⟩ := by
  cases t with
  | nil => exact first_both_of_none (first_one _ [])
  | cons c t =>
    rw [openingPattern, first_both_one, first_several]
    by_cases hc : c = '<'
    · subst hc
      have hname := List.prefix_iff_eq_take.mp
        (List.takeWhile_prefix (fun c => !(Text.isBlank c || c == '/' || c == '>')) (l := t))
      rw [if_pos (beq_self_eq_true _), opening?]
      split
      · rename_i hempty
        rw [if_pos (by simpa using hempty)]
        rfl
      · rename_i hne
        rw [if_neg (by simpa using hne), Option.map_some, Option.map_some]
        simp only [List.take_succ_cons, ← hname]
        rfl
    · have hnone : opening? (c :: t) = none := by
        unfold opening?
        split
        · rename_i heq
          exact absurd (List.cons.inj heq).1 hc
        · rfl
      rw [if_neg fun h => hc (eq_of_beq h), hnone]
      rfl

/-! ## Values -/

/-- Between quotes stands what ends at the next quote. -/
theorem first_quotedPattern (quote c : Char) (t : Text) :
    (quotedPattern quote).first (c :: t) =
      if c = quote ∧ (t.takeWhile (· != quote)).length < t.length then
        some ⟨(c :: t).take ((t.takeWhile (· != quote)).length + 2), []⟩
      else none := by
  have hblocked : ∀ d r, (d != quote) = true → (one (· == quote)).first (d :: r) = none := by
    intro d r hd
    rw [first_one, List.head?_cons, Option.filter_some_neg (by simpa using hd)]
    rfl
  have hmany := first_both_many hblocked t
  rw [first_one] at hmany
  by_cases hc : c = quote
  · subst hc
    cases hrest : t.drop (t.takeWhile (· != c)).length with
    | nil =>
      have hle := List.drop_eq_nil_iff.mp hrest
      rw [quotedPattern, first_both_one, hmany, hrest, if_pos (beq_self_eq_true c),
        if_neg fun h => absurd h.2 (Nat.not_lt.mpr hle)]
      rfl
    | cons d r =>
      have hd : d = c := by
        have hnot := List.head?_dropWhile_not (· != c) t
        rw [← Text.drop_length_takeWhile, hrest] at hnot
        simpa using hnot
      have hlt : (t.takeWhile (· != c)).length < t.length := by
        rw [← Nat.not_le, ← List.drop_eq_nil_iff, hrest]
        exact List.cons_ne_nil d r
      have hfirst : (quotedPattern c).first (c :: t)
          = some (Match.append ⟨[c], []⟩ (Match.append ⟨t.takeWhile (· != c), []⟩ ⟨[d], []⟩)) := by
        rw [quotedPattern, first_both_one, hmany, hrest, if_pos (beq_self_eq_true c)]
        simp [hd]
      rw [if_pos ⟨rfl, hlt⟩]
      refine first_eq_some hfirst ?_ rfl
      simp only [Match.append, List.length_append, List.length_singleton]
      omega
  · rw [quotedPattern, first_both_one, if_neg (by simpa using hc), if_neg fun h => hc h.1]

/-- A value in quotes is matched in quotes; a value that starts with a quote without partner is not
matched; any other value is matched as far as it goes. -/
theorem first_rawPattern (t : Text) :
    rawPattern.first t =
      match quotedContents? t with
      | some contents => some ⟨t.take (contents.length + 2), []⟩
      | none => if startsQuote t then none else some ⟨t.takeWhile isBarePart, []⟩ := by
  have hbare : (both (.notAhead fun c => c == '\'' || c == '"') (.many isBarePart)).first t
      = if startsQuote t then none else some ⟨t.takeWhile isBarePart, []⟩ := by
    have hahead : (t.head?.any fun c => c == '\'' || c == '"') = startsQuote t := by
      cases t <;> simp [startsQuote, Bool.or_comm]
    cases hquote : startsQuote t with
    | true =>
      refine first_both_of_none ?_
      rw [first_notAhead, hahead, hquote]
      rfl
    | false =>
      have hnotAhead : (notAhead fun c => c == '\'' || c == '"').first t = some ⟨[], []⟩ := by
        rw [first_notAhead, hahead, hquote]
        rfl
      exact first_both_of_some hnotAhead (first_many isBarePart t)
  rw [rawPattern, first_either, first_either, hbare]
  cases t with
  | nil => rfl
  | cons c t =>
    rw [first_quotedPattern, first_quotedPattern, quotedContents?]
    by_cases hsingle : c = '\''
    · subst hsingle
      by_cases hlt : (t.takeWhile (· != '\'')).length < t.length <;> simp [hlt, startsQuote]
    · by_cases hdouble : c = '"'
      · subst hdouble
        by_cases hlt : (t.takeWhile (· != '"')).length < t.length <;> simp [hlt, startsQuote]
      · simp [hsingle, hdouble, startsQuote]

/-- In front of a blank the value is empty. -/
theorem first_marked_rawPattern_of_isBlank {c : Char} (r : Text) (hc : Text.isBlank c = true) :
    (marked "raw" rawPattern).first (c :: r) = some ⟨[], [("raw", 0, [])]⟩ := by
  have hsingle : c ≠ '\'' := by
    rintro rfl
    exact absurd hc (by decide)
  have hdouble : c ≠ '"' := by
    rintro rfl
    exact absurd hc (by decide)
  rw [first_marked, first_rawPattern, quotedContents?]
  simp [hsingle, hdouble, startsQuote, isBarePart, hc]

/-- The value behind an equals sign, as it is written, and the length of the blanks in front of it.
In front of a quote without partner the last blank is given back for an empty value. -/
def behindSign? (t : Text) : Option (Nat × Text) :=
  let rest := t.drop (blanks t)
  match quotedContents? rest with
  | some contents => some (blanks t, rest.take (contents.length + 2))
  | none =>
    if startsQuote rest then if 0 < blanks t then some (blanks t - 1, []) else none
    else some (blanks t, rest.takeWhile isBarePart)

/-- The value behind a sign is part of the text. -/
theorem le_of_behindSign? {t : Text} {n : Nat} {raw : Text} (h : behindSign? t = some (n, raw)) :
    n + raw.length ≤ t.length := by
  have hle : blanks t ≤ t.length := (List.takeWhile_prefix Text.isBlank).length_le
  have hrest : (t.drop (blanks t)).length = t.length - blanks t := List.length_drop
  unfold behindSign? at h
  dsimp only at h
  split at h
  · rename_i contents _
    cases h
    have htake := (List.take_prefix (contents.length + 2) (t.drop (blanks t))).length_le
    omega
  · split at h
    · split at h
      · cases h
        rw [List.length_nil]
        omega
      · cases h
    · cases h
      have hbare := (List.takeWhile_prefix isBarePart (l := t.drop (blanks t))).length_le
      omega

/-- A value is written behind blanks and an equals sign. -/
theorem writtenValue?_of_sign {t u : Text} (h : t.drop (blanks t) = '=' :: u) :
    writtenValue? t = (behindSign? u).map fun (n, raw) => (blanks t + (1 + n), raw) := by
  rw [writtenValue?, h, behindSign?]
  cases hcontents : quotedContents? (u.drop (blanks u)) with
  | some contents => simp [hcontents, Nat.add_assoc]
  | none =>
    cases hquote : startsQuote (u.drop (blanks u)) with
    | false => simp [hcontents, hquote, Nat.add_assoc]
    | true =>
      by_cases hpos : 0 < blanks u
      · have hback : blanks u = 1 + (blanks u - 1) := by
          omega
        simp [hcontents, hquote, hpos, ← hback]
      · simp [hcontents, hquote, hpos]

theorem writtenValue?_of_not_sign {t : Text} (h : (t.drop (blanks t)).head? ≠ some '=') :
    writtenValue? t = none := by
  rw [writtenValue?]
  split
  · rename_i heq
    rw [heq] at h
    exact absurd rfl h
  · rfl

/-- The value behind a name is part of the text. -/
theorem le_of_writtenValue? {t : Text} {n : Nat} {raw : Text} (h : writtenValue? t = some (n, raw)) :
    n + raw.length ≤ t.length := by
  by_cases hsign : (t.drop (blanks t)).head? = some '='
  · obtain ⟨u, hu⟩ := List.head?_eq_some_iff.mp hsign
    rw [writtenValue?_of_sign hu, Option.map_eq_some_iff] at h
    obtain ⟨⟨m, raw⟩, hvalue, heq⟩ := h
    cases heq
    have hle := le_of_behindSign? hvalue
    have hlength := congrArg List.length hu
    rw [List.length_drop, List.length_cons] at hlength
    omega
  · rw [writtenValue?_of_not_sign hsign] at h
    cases h

/-- The match of a value: what stands up to its end, and the value with its place. -/
def valueMatch (t : Text) (value : Nat × Text) : Match :=
  ⟨t.take (value.1 + value.2.length), [("raw", value.1, value.2)]⟩

/-- The value behind a sign is what the pattern matches there. -/
theorem first_behindSignPattern (t : Text) :
    behindSignPattern.first t = (behindSign? t).map (valueMatch t) := by
  have hmarked := first_marked "raw" rawPattern (t.drop (blanks t))
  rw [first_rawPattern] at hmarked
  have hlong : ∀ {raw : Text}, (marked "raw" rawPattern).first (t.drop (blanks t))
        = some ⟨raw, [("raw", 0, raw)]⟩ →
      behindSignPattern.first t = some (valueMatch t (blanks t, raw)) := by
    intro raw hraw
    refine first_eq_some (first_both_of_some (first_many _ t) hraw) ?_ rfl
    simp only [Match.append, List.length_append, blanks]
  unfold behindSign?
  dsimp only
  cases hcontents : quotedContents? (t.drop (blanks t)) with
  | some contents =>
    rw [hcontents] at hmarked
    exact hlong hmarked
  | none =>
    rw [hcontents] at hmarked
    cases hquote : startsQuote (t.drop (blanks t)) with
    | false =>
      rw [hquote] at hmarked
      exact hlong hmarked
    | true =>
      -- no value starts at a single quote, but an empty one ends in front of each blank before it
      rw [hquote] at hmarked
      have hle : blanks t ≤ t.length := (List.takeWhile_prefix Text.isBlank).length_le
      have hback := first_both_many_of_member hmarked fun c r hc =>
        first_marked_rawPattern_of_isBlank r hc
      change _ = if 0 < blanks t then _ else none at hback
      by_cases hpos : 0 < blanks t
      · rw [if_pos hpos] at hback
        have hlength : (t.take ((t.takeWhile Text.isBlank).length - 1)).length = blanks t - 1 := by
          rw [List.length_take, ← blanks]
          omega
        rw [if_pos rfl, if_pos hpos, Option.map_some]
        refine first_eq_some hback ?_ ?_
        · rw [Match.append, List.append_nil, hlength]
          rfl
        · simp only [Match.append, List.map_cons, List.map_nil, List.nil_append, hlength,
            Nat.add_zero]
      · rw [if_neg hpos] at hback
        rw [if_pos rfl, if_neg hpos, Option.map_none]
        exact hback

/-- **The value behind a name** is what the pattern of values matches. -/
theorem first_valuePattern (t : Text) :
    valuePattern.first t = (writtenValue? t).map (valueMatch t) := by
  -- the blanks in front of the sign are all taken, since none of them is a sign
  have hblocked : ∀ c r, Text.isBlank c = true →
      (both (.one (· == '=')) behindSignPattern).first (c :: r) = none := by
    intro c r hc
    rw [first_both_one, if_neg]
    intro hequals
    rw [eq_of_beq hequals] at hc
    exact absurd hc (by decide)
  have hfirst : valuePattern.first t = Option.map (Match.append ⟨t.takeWhile Text.isBlank, []⟩)
      (Pattern.first _ (t.drop (blanks t))) :=
    first_both_many hblocked t
  by_cases hsign : (t.drop (blanks t)).head? = some '='
  · obtain ⟨u, hu⟩ := List.head?_eq_some_iff.mp hsign
    rw [hu, first_both_one, first_behindSignPattern, if_pos (beq_self_eq_true _)] at hfirst
    rw [writtenValue?_of_sign hu]
    cases hvalue : behindSign? u with
    | none =>
      rw [hvalue] at hfirst
      exact hfirst
    | some value =>
      obtain ⟨n, raw⟩ := value
      have hle := le_of_behindSign? hvalue
      rw [hvalue] at hfirst
      refine first_eq_some hfirst ?_ ?_
      · simp only [Match.append, valueMatch, List.length_append, List.length_singleton,
          List.length_take, blanks]
        omega
      · simp [Match.append, valueMatch, blanks]
  · have hnone :
        (both (.one (· == '=')) behindSignPattern).first (t.drop (blanks t)) = none := by
      cases hrest : t.drop (blanks t) with
      | nil =>
        exact first_both_of_none (first_one _ [])
      | cons c u =>
        rw [hrest] at hsign
        rw [first_both_one, if_neg]
        intro hc
        exact hsign (congrArg some (eq_of_beq hc))
    rw [hfirst, hnone, writtenValue?_of_not_sign hsign]
    rfl

/-! ## Attributes -/

namespace Slot

/-- All of a slot. -/
def text (slot : Slot) : Text :=
  slot.before ++ slot.name ++ slot.value

/-- The match of an attribute: its text, its name, and the value without the sign if there is one. -/
def toMatch (slot : Slot) : Match :=
  ⟨slot.text, ("name", slot.before.length, slot.name) ::
    slot.raw.toList.map fun raw => ("raw", slot.text.length - raw.length, raw)⟩

end Slot

/-- **An attribute** that is cut off is what the pattern of attributes matches. -/
theorem first_attributePattern (t : Text) :
    attributePattern.first t = (slot? t).map fun found => found.1.toMatch := by
  -- a name starts with no character of the gap, so that the pattern takes the gap whole
  have hblocked : ∀ c r, (c == '/' || Text.isBlank c) = true →
      (both (marked "name" (several isAttributeNamePart)) (maybe valuePattern)).first (c :: r)
        = none := by
    intro c r hc
    have hnot : isAttributeNamePart c = false := by
      rw [Bool.or_comm] at hc
      simp [isAttributeNamePart, hc]
    refine first_both_of_none ?_
    rw [first_marked, first_several, List.takeWhile_cons_of_neg (by simp [hnot])]
    rfl
  have hfirst := first_both_many hblocked t
  change attributePattern.first t = _ at hfirst
  rw [hfirst, slot?]
  dsimp only
  generalize t.takeWhile (fun c => c == '/' || Text.isBlank c) = before
  generalize t.drop before.length = rest
  have hname := first_marked "name" (several isAttributeNamePart) rest
  rw [first_several] at hname
  split
  · rename_i hempty
    rw [if_pos hempty] at hname
    rw [first_both_of_none hname]
    rfl
  · rename_i hne
    rw [if_neg hne] at hname
    generalize rest.takeWhile isAttributeNamePart = name at hname ⊢
    have hvalue := first_maybe valuePattern (rest.drop name.length)
    rw [first_valuePattern] at hvalue
    rw [first_both_of_some hname hvalue]
    cases hwritten : writtenValue? (rest.drop name.length) with
    | none => simp [Match.append, Slot.toMatch, Slot.text]
    | some value =>
      obtain ⟨n, raw⟩ := value
      have hlength : ((rest.drop name.length).take (n + raw.length)).length = n + raw.length := by
        rw [List.length_take]
        exact Nat.min_eq_left (le_of_writtenValue? hwritten)
      have hstart : before.length + (name.length + n)
          = before.length + name.length + (n + raw.length) - raw.length := by
        omega
      simp only [Option.map_some, Option.getD_some, Match.append, Slot.toMatch, Slot.text, valueMatch,
        List.length_append, hlength]
      simp [hstart]

/-- In front of a quote without partner one of the blanks ends the match. -/
example :
    attributePattern.first "/a =  'b c".toList
      = some ⟨"/a = ".toList, [("name", 1, ['a']), ("raw", 5, [])]⟩ := by
  rfl

end DataBinding.Markup
