/-
# Values that are written and read back

A value is written for an attribute with references for some of its characters.  Reading replaces
each of these references by its character again, and takes no other ampersand of the written value
for a reference.

* `unescape_escape`      : an escaped value is read back;
* `decode_escape`        : no reference in it has too many digits;
* `char_notMem_escape`   : it does not hold the quote it is written in.
-/
import Mathlib
import DataBinding.Markup.Reference
import DataBinding.Proofs.Text.Runs

namespace DataBinding.Markup

/-! ## Ampersands that start no reference -/

/-- An ampersand in front of this character may start a reference. -/
def opensReference (c : Char) : Bool :=
  c.isAlphanum || c == '#'

section Unnamed

variable {c : Char} {t : Text}

/-- Every name of a character starts with a plain letter. -/
theorem namesFrom_eq_nil (h : opensReference c = false) : ReferenceTable.namesFrom c = [] := by
  unfold ReferenceTable.namesFrom
  split
  case h_53 => rfl
  all_goals exact absurd h (by decide)

/-- No name starts with another character. -/
theorem named?_cons (h : opensReference c = false) : named? (c :: t) = none := by
  simp [named?, namesFrom_eq_nil h]

theorem longestName?_cons (h : opensReference c = false) (n : Nat) :
    longestName? (c :: t) n = none := by
  induction n with
  | zero => rfl
  | succ n ih =>
    have hnone : unterminated? ((c :: t).take (n + 1)) = none := by
      rw [List.take_succ_cons, unterminated?, named?_cons h]
      exact ite_self none
    rw [longestName?, hnone, ih]
    exact ite_self none

/-- **No reference starts** in front of a character that is neither letter nor digit nor number
sign. -/
theorem reference?_cons (h : opensReference c = false) : reference? (c :: t) = none := by
  have hsign : c ≠ '#' := by
    rintro rfl
    exact absurd h (by decide)
  have hread : reference? (c :: t) = nameReference? (c :: t) := by
    unfold reference?
    split
    · rename_i heq
      exact absurd (List.cons.inj heq).1 hsign
    · rfl
  -- the characters that are tried as a name are none, or they start with this one
  have hrun : ∀ run, run = ((c :: t).takeWhile isNameChar).take maxNameLength →
      named? run = none ∧ longestName? run run.length = none := by
    rintro run rfl
    rw [List.takeWhile_cons]
    split
    · exact ⟨named?_cons h, longestName?_cons h _⟩
    · exact ⟨rfl, rfl⟩
  obtain ⟨hnamed, hlongest⟩ := hrun _ rfl
  rw [hread, nameReference?]
  simp only [hnamed, hlongest, ite_self]

end Unnamed

/-! ## The references that are written -/

/-- The text behind an ampersand that stands for a character. -/
inductive Stands : Text → Char → Prop
  | ampersand : Stands "amp;".toList '&'
  | double : Stands "quot;".toList '"'
  | single : Stands "#39;".toList '\''

/-- A name with its semicolon is read as what it stands for, whatever follows. -/
theorem nameReference?_append {name value : Text} (hname : name.all isNameChar = true)
    (hlength : name.length ≤ maxNameLength) (hvalue : named? name = some value) (rest : Text) :
    nameReference? (name ++ ';' :: rest) = some (value, name.length + 1) := by
  have hrun : ((name ++ ';' :: rest).takeWhile isNameChar).take maxNameLength = name := by
    have hstop : isNameChar ';' = false := by decide
    rw [Text.takeWhile_append_stop (List.all_eq_true.mp hname) (by simp [hstop]),
      List.take_of_length_le hlength]
  rw [nameReference?]
  simp [hrun, hvalue]

/-- A written reference is read as its character, whatever follows. -/
theorem Stands.reference?_eq {body : Text} {c : Char} (h : Stands body c) (rest : Text) :
    reference? (body ++ rest) = some ([c], body.length) := by
  cases h with
  | ampersand =>
    have hvalue : named? "amp".toList = some ['&'] := by decide +kernel
    exact nameReference?_append (by decide) (by decide) hvalue rest
  | double =>
    have hvalue : named? "quot".toList = some ['"'] := by decide +kernel
    exact nameReference?_append (by decide) (by decide) hvalue rest
  | single => rfl

/-- Skipped characters belong to a reference. -/
theorem unescapeFrom_skip (skip : Nat) (t : Text) :
    unescapeFrom skip t = unescapeFrom 0 (t.drop skip) := by
  induction t generalizing skip with
  | nil => cases skip <;> rfl
  | cons c t ih =>
    cases skip with
    | zero => rfl
    | succ skip => exact ih skip

/-- A written reference is replaced by its character. -/
theorem Stands.unescape_eq {body : Text} {c : Char} (h : Stands body c) (rest : Text) :
    unescape ('&' :: (body ++ rest)) = c :: unescape rest := by
  rw [unescape, unescapeFrom, if_pos (beq_self_eq_true '&'), h.reference?_eq]
  show [c] ++ unescapeFrom body.length (body ++ rest) = c :: unescape rest
  rw [unescapeFrom_skip, List.drop_left]
  rfl

/-- A character that starts no reference stays. -/
theorem unescape_cons {c : Char} {t : Text} (h : c = '&' → reference? t = none) :
    unescape (c :: t) = c :: unescape t := by
  rw [unescape, unescapeFrom]
  split
  · rename_i hc
    rw [h (eq_of_beq hc)]
    rfl
  · rfl

/-- Without an ampersand no reference stands in a text. -/
theorem unescape_eq_self {t : Text} (h : '&' ∉ t) : unescape t = t := by
  induction t with
  | nil => rfl
  | cons c t ih =>
    rw [List.mem_cons, not_or] at h
    rw [unescape_cons fun hc => absurd hc.symm h.1, ih h.2]

/-! ## Digits of references -/

/-- A character that starts no reference by number has no digits. -/
theorem overlong?_cons {c : Char} {t : Text} (h : c = '&' → t.head? ≠ some '#') :
    overlong? (c :: t) = overlong? t := by
  rw [overlong?, if_neg]
  simpa using h

/-- No written reference has too many digits. -/
theorem Stands.overlong?_eq {body : Text} {c : Char} (h : Stands body c) (rest : Text) :
    overlong? ('&' :: (body ++ rest)) = overlong? rest := by
  have hplain : ∀ (u : Text), '&' ∉ u → overlong? (u ++ rest) = overlong? rest := by
    intro u hu
    induction u with
    | nil => rfl
    | cons c u ih =>
      rw [List.mem_cons, not_or] at hu
      rw [List.cons_append, overlong?_cons fun hc => absurd hc.symm hu.1, ih hu.2]
  cases h with
  | ampersand => exact (overlong?_cons fun _ => by simp).trans (hplain "amp;".toList (by decide))
  | double => exact (overlong?_cons fun _ => by simp).trans (hplain "quot;".toList (by decide))
  | single =>
    -- the number has two digits
    show (if 4300 < 2 then some 2 else overlong? ("#39;".toList ++ rest)) = overlong? rest
    rw [if_neg (by decide)]
    exact hplain "#39;".toList (by decide)

/-- **What a decoded text is**: the text with its references replaced, none of which has too many
digits. -/
theorem decode_eq_ok_iff {t u : Text} : decode t = .ok u ↔ overlong? t = none ∧ unescape t = u := by
  unfold decode
  cases overlong? t <;> simp

/-! ## Escaped values -/

/-- The reference of a quote stands for it. -/
theorem Quote.exists_stands (quote : Quote) :
    ∃ body, quote.reference = '&' :: body ∧ Stands body quote.char := by
  cases quote with
  | single => exact ⟨_, rfl, .single⟩
  | double => exact ⟨_, rfl, .double⟩

section Escape

variable (quote : Quote)

/-- A character other than an ampersand is escaped by itself. -/
theorem escape_cons {c : Char} (h : c ≠ '&') (t : Text) :
    escape quote (c :: t)
      = (if c = quote.char then quote.reference else [c]) ++ escape quote t := by
  have hsplit : escapeAmpersands (c :: t) = c :: escapeAmpersands t := by
    rw [escapeAmpersands]
    rintro rfl
    exact h rfl
  rw [escape, hsplit, Text.replaceChar, List.flatMap_cons]
  simp only [beq_iff_eq, escape, Text.replaceChar]

/-- An ampersand is escaped by what follows it. -/
theorem escape_ampersand (t : Text) :
    escape quote ('&' :: t)
      = (if (t.head?.map opensReference).getD false then "&amp;".toList else ['&'])
        ++ escape quote t := by
  have hsplit : escapeAmpersands ('&' :: t)
      = (if (t.head?.map opensReference).getD false then "&amp;".toList else ['&'])
        ++ escapeAmpersands t := by
    have hopens : opensReference = fun c => c.isAlphanum || c == '#' := rfl
    rw [escapeAmpersands, hopens]
    split <;> rfl
  -- neither quote occurs in what is written for the ampersand
  rw [escape, hsplit, Text.replaceChar, List.flatMap_append]
  congr 1
  split <;> cases quote <;> rfl

/-- An escaped text starts a reference behind an ampersand only if the text itself does. -/
theorem reference?_escape {t : Text} (h : (t.head?.map opensReference).getD false = false) :
    reference? (escape quote t) = none := by
  have hamp : opensReference '&' = false := by decide
  cases t with
  | nil => rfl
  | cons c t =>
    by_cases hc : c = '&'
    · subst hc
      rw [escape_ampersand]
      split <;> exact reference?_cons hamp
    · rw [escape_cons quote hc]
      split
      · obtain ⟨body, hbody, -⟩ := quote.exists_stands
        rw [hbody]
        exact reference?_cons hamp
      · exact reference?_cons (by simpa using h)

/-- **An escaped value is read back.** -/
theorem unescape_escape (value : Text) : unescape (escape quote value) = value := by
  induction value with
  | nil => rfl
  | cons c t ih =>
    by_cases hc : c = '&'
    · subst hc
      rw [escape_ampersand]
      by_cases hopens : (t.head?.map opensReference).getD false = true
      · rw [if_pos hopens]
        exact (Stands.ampersand.unescape_eq _).trans (congrArg _ ih)
      · rw [if_neg hopens, List.singleton_append, unescape_cons, ih]
        intro _
        exact reference?_escape quote (by simpa using hopens)
    · rw [escape_cons quote hc]
      by_cases hquote : c = quote.char
      · obtain ⟨body, hbody, hstands⟩ := quote.exists_stands
        rw [if_pos hquote, hbody, List.cons_append, hstands.unescape_eq, ih, hquote]
      · rw [if_neg hquote, List.singleton_append, unescape_cons, ih]
        intro h
        exact absurd h hc

/-- An escaped text does not start with a number sign unless the text itself does. -/
theorem head?_escape {t : Text} (h : t.head? ≠ some '#') : (escape quote t).head? ≠ some '#' := by
  cases t with
  | nil => exact nofun
  | cons c t =>
    by_cases hc : c = '&'
    · subst hc
      rw [escape_ampersand]
      split <;> exact nofun
    · rw [escape_cons quote hc]
      split
      · obtain ⟨body, hbody, -⟩ := quote.exists_stands
        rw [hbody]
        exact nofun
      · exact h

theorem overlong?_escape (value : Text) : overlong? (escape quote value) = none := by
  induction value with
  | nil => rfl
  | cons c t ih =>
    by_cases hc : c = '&'
    · subst hc
      rw [escape_ampersand]
      by_cases hopens : (t.head?.map opensReference).getD false = true
      · rw [if_pos hopens]
        exact (Stands.ampersand.overlong?_eq _).trans ih
      · rw [if_neg hopens, List.singleton_append, overlong?_cons, ih]
        -- a number sign would have been told apart by a reference
        refine fun _ => head?_escape quote fun hsign => hopens ?_
        rw [hsign]
        rfl
    · rw [escape_cons quote hc]
      by_cases hquote : c = quote.char
      · obtain ⟨body, hbody, hstands⟩ := quote.exists_stands
        rw [if_pos hquote, hbody, List.cons_append, hstands.overlong?_eq, ih]
      · rw [if_neg hquote, List.singleton_append, overlong?_cons fun h => absurd h hc, ih]

/-- **An escaped value is decoded** to the value. -/
theorem decode_escape (value : Text) : decode (escape quote value) = .ok value :=
  decode_eq_ok_iff.mpr ⟨overlong?_escape quote value, unescape_escape quote value⟩

/-- **The quote that a value is written in** does not occur in it. -/
theorem char_notMem_escape (value : Text) : quote.char ∉ escape quote value := by
  have hreference : quote.char ∉ quote.reference := by
    cases quote <;> decide
  intro h
  rw [escape, Text.replaceChar, List.mem_flatMap] at h
  obtain ⟨c, -, hc⟩ := h
  split at hc
  · exact hreference hc
  · rename_i hne
    rw [List.mem_singleton] at hc
    exact hne (beq_iff_eq.mpr hc.symm)

end Escape

/-- A value with all kinds of ampersands and both quotes. -/
example : escape .double "a && b &lt; \"c\" &".toList
    = "a && b &amp;lt; &quot;c&quot; &".toList := by
  decide

end DataBinding.Markup
