/-
# Values of attributes as they are read

A value stands behind one or more equals signs with blanks around them.  What is read there depends
on how the value starts: with a quote that has a partner, with one that has none, or bare.

* `exists_indicator`, `attributeValue?_eq` : what is read behind equals signs;
* `isUnpaired`                             : the value starts with a quote that has no partner;
* `attributeValue?_congr`                  : any other value is read alike in front of another text.
-/
import Mathlib
import DataBinding.Markup.Attribute
import DataBinding.Proofs.Markup.Pieces

namespace DataBinding.Markup

/-! ## Equals signs -/

/-- The number of equals signs behind an attribute's name. -/
def signs (t : Text) : Nat :=
  ((t.drop (blanks t)).takeWhile (· == '=')).length

/-- What follows the equals signs behind an attribute's name, and the blanks behind them. -/
def valueStart (t : Text) : Text :=
  let rest := t.drop (blanks t + signs t)
  rest.drop (blanks rest)

/-- The value behind an attribute's name starts with a quote that has no partner. -/
def isUnpaired (t : Text) : Bool :=
  0 < signs t && startsQuote (valueStart t) && (quotedContents? (valueStart t)).isNone

/-- Equals signs with blanks around them. -/
structure Indicator where
  before : Text
  signs : Nat
  after : Text

namespace Indicator

/-- The indicator as it is written. -/
def text (i : Indicator) : Text :=
  i.before ++ (List.replicate i.signs '=' ++ i.after)

theorem length_text (i : Indicator) :
    i.text.length = i.before.length + i.signs + i.after.length := by
  simp only [text, List.length_append, List.length_replicate]
  omega

/-- An indicator that goes no further into the text behind it. -/
structure Leads (i : Indicator) (rest : Text) : Prop where
  before : ∀ c ∈ i.before, Text.isBlank c = true
  pos : 0 < i.signs
  after : ∀ c ∈ i.after, Text.isBlank c = true
  stop : ∀ c, rest.head? = some c → Text.isBlank c = false ∧ (i.after = [] → c ≠ '=')

section Leads

variable {i : Indicator} {rest : Text}

theorem text_append (i : Indicator) (rest : Text) :
    i.text ++ rest = i.before ++ (List.replicate i.signs '=' ++ (i.after ++ rest)) := by
  simp [text, List.append_assoc]

theorem Leads.blanks_eq (h : i.Leads rest) : blanks (i.text ++ rest) = i.before.length := by
  have hpos := h.pos
  rw [text_append, blanks, Text.takeWhile_append_stop h.before]
  intro c hc
  obtain ⟨n, hn⟩ : ∃ n, i.signs = n + 1 := ⟨i.signs - 1, by omega⟩
  rw [hn, List.replicate_succ, List.cons_append, List.head?_cons, Option.some.injEq] at hc
  subst hc
  decide

theorem Leads.drop_before (h : i.Leads rest) :
    (i.text ++ rest).drop (blanks (i.text ++ rest))
      = List.replicate i.signs '=' ++ (i.after ++ rest) := by
  rw [h.blanks_eq, text_append, List.drop_left]

theorem Leads.signs_eq (h : i.Leads rest) : Markup.signs (i.text ++ rest) = i.signs := by
  rw [Markup.signs, h.drop_before, Text.takeWhile_append_stop, List.length_replicate]
  · intro c hc
    rw [List.eq_of_mem_replicate hc]
    rfl
  · intro c hc
    -- the signs end at a blank or at the value
    cases hafter : i.after with
    | nil =>
      rw [hafter, List.nil_append] at hc
      simpa using (h.stop c hc).2 hafter
    | cons d after =>
      rw [hafter, List.cons_append, List.head?_cons, Option.some.injEq] at hc
      subst hc
      have hblank := h.after d (by rw [hafter]; exact List.mem_cons_self ..)
      by_contra hsign
      rw [Bool.not_eq_false, beq_iff_eq] at hsign
      rw [hsign] at hblank
      exact absurd hblank (by decide)

theorem Leads.drop_signs (h : i.Leads rest) :
    (i.text ++ rest).drop (blanks (i.text ++ rest) + Markup.signs (i.text ++ rest))
      = i.after ++ rest := by
  rw [← List.drop_drop, h.drop_before, h.signs_eq]
  exact List.drop_left' (List.length_replicate ..)

theorem Leads.blanks_after (h : i.Leads rest) : blanks (i.after ++ rest) = i.after.length := by
  rw [blanks, Text.takeWhile_append_stop h.after fun c hc => (h.stop c hc).1]

theorem Leads.valueStart_eq (h : i.Leads rest) : valueStart (i.text ++ rest) = rest := by
  simp only [valueStart, h.drop_signs, h.blanks_after, List.drop_left]

theorem Leads.isUnpaired_iff (h : i.Leads rest) :
    isUnpaired (i.text ++ rest) = true ↔ startsQuote rest = true ∧ quotedContents? rest = none := by
  have hpos := h.pos
  simp [isUnpaired, h.signs_eq, h.valueStart_eq, hpos]

end Leads
end Indicator

/-- Where there are equals signs, they stand behind blanks and in front of the value. -/
theorem exists_indicator {t : Text} (h : signs t ≠ 0) :
    ∃ (i : Indicator) (rest : Text), t = i.text ++ rest ∧ i.Leads rest := by
  obtain ⟨before, behind, rfl, hbefore, hbehind⟩ := Text.exists_run Text.isBlank t
  obtain ⟨equals, after, rfl, hequals, hstop⟩ := Text.exists_run (· == '=') behind
  obtain ⟨after, rest, rfl, hafter, hrest⟩ := Text.exists_run Text.isBlank after
  have hsigns : signs (before ++ (equals ++ (after ++ rest))) = equals.length := by
    rw [signs, blanks, Text.takeWhile_append_stop hbefore hbehind, List.drop_left,
      Text.takeWhile_append_stop hequals hstop]
  have hreplicate : equals = List.replicate equals.length '=' :=
    List.eq_replicate_iff.mpr ⟨rfl, fun c hc => by simpa using hequals c hc⟩
  refine ⟨⟨before, equals.length, after⟩, rest, ?_, hbefore, Nat.pos_of_ne_zero (hsigns ▸ h), hafter,
    fun c hc => ⟨hrest c hc, ?_⟩⟩
  · rw [Indicator.text_append, ← hreplicate]
  · -- without blanks behind them the signs end at the value itself
    rintro rfl
    simpa using hstop c hc

/-! ## Values -/

/-- What is read behind equals signs depends on how the value starts. -/
theorem attributeValue?_eq {i : Indicator} {rest : Text} (h : i.Leads rest) :
    attributeValue? (i.text ++ rest) =
      match quotedContents? rest with
      | some contents => some (contents, i.text.length + contents.length + 2)
      | none =>
        if startsQuote rest then
          if 0 < i.after.length then some ([], i.text.length - 1)
          else if 1 < i.signs then
            let bare := ((i.text ++ rest).drop (i.text.length - 1)).takeWhile isBarePart
            some (bare, i.text.length - 1 + bare.length)
          else none
        else
          let bare := rest.takeWhile isBarePart
          some (bare, i.text.length + bare.length) := by
  have hpos := h.pos
  have hsigns : (((i.text ++ rest).drop (blanks (i.text ++ rest))).takeWhile (· == '=')).length
      = i.signs := h.signs_eq
  have hrest : (i.text ++ rest).drop (blanks (i.text ++ rest) + i.signs) = i.after ++ rest := by
    rw [← h.signs_eq]
    exact h.drop_signs
  have hstart : i.before.length + i.signs + i.after.length = i.text.length := i.length_text.symm
  unfold attributeValue?
  simp only [hsigns, hrest, h.blanks_after]
  rw [h.blanks_eq, hstart, List.drop_left]
  exact if_neg (by simp; omega)

/-- Without equals signs no value is read. -/
theorem attributeValue?_of_signs {t : Text} (h : signs t = 0) : attributeValue? t = none := by
  rw [signs] at h
  rw [attributeValue?]
  simp [h]

/-- There are no equals signs exactly if another character follows the blanks. -/
theorem signs_eq_zero_iff {t : Text} :
    signs t = 0 ↔ (t.dropWhile Text.isBlank).head? ≠ some '=' := by
  rw [signs, blanks, Text.drop_length_takeWhile, List.length_eq_zero_iff]
  cases t.dropWhile Text.isBlank with
  | nil => simp
  | cons c r =>
    rw [List.takeWhile_cons, List.head?_cons]
    by_cases hc : c = '='
    · simp [hc]
    · simp [hc]

/-- A quoted value lies between two quotes. -/
theorem quotedContents?_eq_some_iff {t contents : Text} :
    quotedContents? t = some contents ↔
      ∃ quote r, t = quote :: (contents ++ quote :: r) ∧ (quote = '"' ∨ quote = '\'') ∧
        quote ∉ contents := by
  constructor
  · intro h
    cases t with
    | nil => cases h
    | cons quote t =>
      rw [quotedContents?] at h
      split at h
      · rename_i hcond
        rw [Bool.and_eq_true, Bool.or_eq_true, beq_iff_eq, beq_iff_eq, decide_eq_true_eq] at hcond
        obtain ⟨hquote, hlt⟩ := hcond
        obtain ⟨u, r, rfl, hu, hr⟩ := Text.exists_run_until (· == quote) t
        have hrun : (u ++ r).takeWhile (· != quote) = u := Text.takeWhile_append_until hu hr
        rw [hrun] at h hlt
        obtain rfl := Option.some.inj h
        cases r with
        | nil => simp at hlt
        | cons c r =>
          obtain rfl : c = quote := by simpa using hr c rfl
          exact ⟨c, r, rfl, hquote, fun hmem => by simpa using hu c hmem⟩
      · cases h
  · rintro ⟨quote, r, rfl, hquote, hmem⟩
    have hrun : (contents ++ quote :: r).takeWhile (· != quote) = contents := by
      refine Text.takeWhile_append_until (p := (· == quote)) (fun c hc => ?_) (by simp)
      rw [beq_eq_false_iff_ne]
      rintro rfl
      exact hmem hc
    have hcond : (quote == '"' || quote == '\'') = true := by
      rw [Bool.or_eq_true, beq_iff_eq, beq_iff_eq]
      exact hquote
    rw [quotedContents?]
    simp [hrun, hcond]

/-- A quoted value is read as what stands between its quotes. -/
theorem attributeValue?_quoted {i : Indicator} {quote : Char} {contents r : Text}
    (h : i.Leads (quote :: (contents ++ quote :: r))) (hquote : quote = '"' ∨ quote = '\'')
    (hmem : quote ∉ contents) :
    attributeValue? (i.text ++ quote :: (contents ++ quote :: r))
      = some (contents, i.text.length + contents.length + 2) := by
  rw [attributeValue?_eq h, quotedContents?_eq_some_iff.mpr ⟨quote, r, rfl, hquote, hmem⟩]

/-- Only a quote starts a quoted value. -/
theorem quotedContents?_of_startsQuote {t : Text} (h : startsQuote t = false) :
    quotedContents? t = none := by
  cases hcontents : quotedContents? t with
  | none => rfl
  | some contents =>
    obtain ⟨quote, r, rfl, rfl | rfl, -⟩ := quotedContents?_eq_some_iff.mp hcontents <;>
      exact absurd h (by simp [startsQuote])

/-- What is read of a value is part of the text. -/
theorem length_le_of_attributeValue? {t value : Text} {n : Nat}
    (h : attributeValue? t = some (value, n)) : 0 < n ∧ n ≤ t.length := by
  by_cases hsigns : signs t = 0
  · rw [attributeValue?_of_signs hsigns] at h
    cases h
  · obtain ⟨i, rest, rfl, hleads⟩ := exists_indicator hsigns
    have hpos := hleads.pos
    have hlength := i.length_text
    -- a bare value may start with the last of several signs
    have hbare := (List.takeWhile_sublist (l := rest) isBarePart).length_le
    have hbare' := (List.takeWhile_sublist (l := (i.text ++ rest).drop (i.text.length - 1))
      isBarePart).length_le
    rw [List.length_drop, List.length_append] at hbare'
    rw [attributeValue?_eq hleads] at h
    rw [List.length_append]
    split at h
    · rename_i contents hcontents
      obtain ⟨quote, r, rfl, -, -⟩ := quotedContents?_eq_some_iff.mp hcontents
      cases h
      simp only [List.length_cons, List.length_append]
      omega
    · split at h
      · split at h
        · cases h
          omega
        · split at h
          · cases h
            omega
          · cases h
      · cases h
        omega

/-! ## Values in front of another text -/

section Congr

variable {r r' : Text}

/-- Texts that start alike start alike behind another text. -/
theorem head?_append_congr (u : Text) (h : r'.head? = r.head?) :
    (u ++ r').head? = (u ++ r).head? := by
  cases u with
  | nil => exact h
  | cons c u => rfl

/-- An indicator stands as well in front of another text that starts alike. -/
theorem Indicator.Leads.congr {i : Indicator} (h : i.Leads r) (hhead : r'.head? = r.head?) :
    i.Leads r' :=
  ⟨h.before, h.pos, h.after, fun c hc => h.stop c (hhead ▸ hc)⟩

/-- A quote that has a partner in front of the end of a tag has it whatever follows. -/
theorem isUnpaired_append {t : Text} (hclose : '>' ∈ t) (h : isUnpaired t = false) (more : Text) :
    isUnpaired (t ++ more) = false := by
  by_contra hne
  rw [Bool.not_eq_false] at hne
  have hsigns : signs (t ++ more) ≠ 0 := by
    intro hzero
    simp [isUnpaired, hzero] at hne
  obtain ⟨i, rest, hsplit, hleads⟩ := exists_indicator hsigns
  rw [hsplit, hleads.isUnpaired_iff] at hne
  obtain ⟨hquote, hcontents⟩ := hne
  have hnotMem : '>' ∉ i.text := by
    simp only [Indicator.text, List.mem_append]
    rintro (hmem | hmem | hmem)
    · exact absurd (hleads.before _ hmem) (by decide)
    · exact absurd (List.eq_of_mem_replicate hmem) (by decide)
    · exact absurd (hleads.after _ hmem) (by decide)
  -- the value starts in front of the end of the tag
  rcases List.append_eq_append_iff.mp hsplit with ⟨x, hx, -⟩ | ⟨x, rfl, rfl⟩
  · rw [hx] at hnotMem
    exact hnotMem (List.mem_append_left _ hclose)
  · cases x with
    | nil =>
      rw [List.append_nil] at hclose
      exact hnotMem hclose
    | cons c x =>
      have hleads' : i.Leads (c :: x) := hleads.congr rfl
      rw [Bool.eq_false_iff] at h
      refine h (hleads'.isUnpaired_iff.mpr ⟨hquote, ?_⟩)
      cases hpartner : quotedContents? (c :: x) with
      | none => rfl
      | some contents =>
        obtain ⟨quote, r, hx, hmark, hmem⟩ := quotedContents?_eq_some_iff.mp hpartner
        have hlonger : quotedContents? (c :: x ++ more) = some contents :=
          quotedContents?_eq_some_iff.mpr ⟨quote, r ++ more, by rw [hx]; simp, hmark, hmem⟩
        cases hcontents.symm.trans hlonger

/-- Where no value is read and no quote is unpaired, there are no equals signs. -/
theorem signs_of_attributeValue? {t : Text} (h : attributeValue? t = none)
    (hpaired : isUnpaired t = false) : signs t = 0 := by
  by_contra hsigns
  obtain ⟨i, rest, rfl, hleads⟩ := exists_indicator hsigns
  rw [attributeValue?_eq hleads] at h
  split at h
  · cases h
  · rename_i hcontents
    split at h
    · rename_i hquote
      rw [hleads.isUnpaired_iff.mpr ⟨hquote, hcontents⟩] at hpaired
      cases hpaired
    · cases h

/-- **A value with paired quotes** is read alike in front of any text that starts alike. -/
theorem attributeValue?_congr {value behind behind' read : Text}
    (h : attributeValue? (value ++ behind) = some (read, value.length))
    (hpaired : isUnpaired (value ++ behind) = false) (hhead : behind'.head? = behind.head?) :
    attributeValue? (value ++ behind') = some (read, value.length) := by
  have hsigns : signs (value ++ behind) ≠ 0 := by
    intro hzero
    rw [attributeValue?_of_signs hzero] at h
    cases h
  obtain ⟨i, rest, hsplit, hleads⟩ := exists_indicator hsigns
  rw [hsplit] at h hpaired
  rw [attributeValue?_eq hleads] at h
  cases hcontents : quotedContents? rest with
  | some contents =>
    rw [hcontents] at h
    obtain ⟨quote, r₀, rfl, hquote, hmem⟩ := quotedContents?_eq_some_iff.mp hcontents
    obtain ⟨rfl, hlength⟩ := Prod.mk.inj (Option.some.inj h)
    -- the value ends with the second quote
    have hparts : value ++ behind = (i.text ++ quote :: (contents ++ [quote])) ++ r₀ := by
      rw [hsplit]
      simp
    obtain ⟨rfl, -⟩ := List.append_inj hparts (by simp [← hlength, Nat.add_assoc])
    have hall : (i.text ++ quote :: (contents ++ [quote])) ++ behind'
        = i.text ++ quote :: (contents ++ quote :: behind') := by
      simp
    have hleads' : i.Leads (quote :: (contents ++ quote :: behind')) := hleads.congr rfl
    rw [hall, attributeValue?_quoted hleads' hquote hmem, ← hlength]
  | none =>
    have hquote : startsQuote rest = false := by
      by_contra hquote
      rw [Bool.not_eq_false] at hquote
      rw [hleads.isUnpaired_iff.mpr ⟨hquote, hcontents⟩] at hpaired
      cases hpaired
    obtain ⟨bare, r₀, rfl, hall, hend⟩ := Text.exists_run isBarePart rest
    simp only [hcontents, hquote, Text.takeWhile_append_stop hall hend] at h
    obtain ⟨rfl, hlength⟩ := Prod.mk.inj (Option.some.inj h)
    -- the value ends where the run of its characters ends
    rw [← List.append_assoc] at hsplit
    obtain ⟨rfl, rfl⟩ := List.append_inj hsplit (by simp [← hlength])
    have hbehind : (bare ++ behind').head? = (bare ++ behind).head? := head?_append_congr bare hhead
    have hquote' : startsQuote (bare ++ behind') = false := by
      rw [startsQuote, hbehind]
      exact hquote
    have hrun : (bare ++ behind').takeWhile isBarePart = bare :=
      Text.takeWhile_append_stop hall fun c hc => hend c (hhead ▸ hc)
    rw [List.append_assoc, attributeValue?_eq (hleads.congr hbehind),
      quotedContents?_of_startsQuote hquote', hquote']
    simp [hrun]

end Congr

end DataBinding.Markup
