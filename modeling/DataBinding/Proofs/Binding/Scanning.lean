/-
# Where bindings stand

Every binding that a scan finds stands in the text as it is written: the text is what precedes the
binding, the binding, and what follows.  The key fact is

* `liesIn_of_mem_found` : each found binding lies in the text at its place.
-/
import Mathlib.Data.List.Basic
import DataBinding.Binding.Occurrence

namespace DataBinding

namespace Text

/-! ## Searches -/

/-- What is behind a text at the start of another one. -/
theorem dropLead?_eq_some_iff {lead t rest : Text} : dropLead? lead t = some rest ↔ t = lead ++ rest := by
  induction lead generalizing t with
  | nil => simp [dropLead?]
  | cons l lead ih =>
    cases t with
    | nil => simp [dropLead?]
    | cons c t =>
      rw [dropLead?]
      split
      · rename_i heq
        obtain rfl := eq_of_beq heq
        simp [ih]
      · rename_i hne
        have hne' : ¬ c = l := fun h => hne (by simp [h])
        simp [hne']

/-- Starting with a text is having it in front. -/
theorem startsWith_iff {t lead : Text} : t.startsWith lead = true ↔ lead <+: t := by
  rw [startsWith, Option.isSome_iff_exists]
  simp only [dropLead?_eq_some_iff, List.IsPrefix]
  exact exists_congr fun _ => eq_comm

/-- Holding a text is having it somewhere. -/
theorem holds_iff {part t : Text} : holds part t = true ↔ part <:+: t := by
  induction t with
  | nil => simp [holds]
  | cons c t ih => rw [holds, Bool.or_eq_true, startsWith_iff, ih, List.infix_cons_iff]

section Cuts

variable {part t l r : Text}

/-- Without a cut the text does not hold the part. -/
theorem splitLast_eq_none (hpart : part ≠ []) (h : splitLast part t = none) : ¬ part <:+: t := by
  induction t with
  | nil => simpa using hpart
  | cons c t ih =>
    rw [splitLast] at h
    split at h
    · cases h
    · rename_i hrest
      rw [Option.map_eq_none_iff] at h
      rw [List.infix_cons_iff, not_or]
      refine ⟨?_, ih hrest⟩
      rintro ⟨rest, hprefix⟩
      rw [dropLead?_eq_some_iff.mpr hprefix.symm] at h
      cases h

/-- A text is cut at a place behind which the part does not start again. -/
theorem splitLast_eq_some (hpart : part ≠ []) (h : splitLast part t = some (l, r)) :
    t = l ++ (part ++ r) ∧ ¬ part <:+: (part ++ r).tail := by
  induction t generalizing l r with
  | nil => cases h
  | cons c t ih =>
    rw [splitLast] at h
    split at h
    · rename_i hrest
      cases h
      obtain ⟨rfl, hlast⟩ := ih hrest
      exact ⟨rfl, hlast⟩
    · rename_i hrest
      obtain ⟨rest, hdrop, heq⟩ := Option.map_eq_some_iff.mp h
      cases heq
      have hsplit := dropLead?_eq_some_iff.mp hdrop
      rw [← hsplit]
      exact ⟨rfl, splitLast_eq_none hpart hrest⟩

end Cuts

end Text

namespace Occurrence

/-- A text may hold a binding if the opening of one stands in it. -/
theorem mayHold_iff {t : Text} :
    mayHold t = true ↔ Direction.oneWay.opening <:+: t ∨ Direction.twoWay.opening <:+: t := by
  rw [mayHold, Bool.or_eq_true, Text.holds_iff, Text.holds_iff]

/-! ## Places -/

/-- A binding stands in a text whose first character has the given place. -/
def LiesFrom (place : Nat) (t : Text) (o : Occurrence) : Prop :=
  ∃ before after, t = before ++ o.written ++ after ∧ o.start = place + before.length ∧
    o.stop = o.start + o.written.length

/-- A binding stands in a text. -/
def LiesIn (t : Text) (o : Occurrence) : Prop :=
  o.LiesFrom 0 t

/-- A binding behind a first character. -/
theorem LiesFrom.cons {place : Nat} {t : Text} {o : Occurrence} (h : o.LiesFrom (place + 1) t)
    (c : Char) : o.LiesFrom place (c :: t) := by
  obtain ⟨before, after, rfl, hstart, hstop⟩ := h
  exact ⟨c :: before, after, rfl, by rw [hstart, List.length_cons]; omega, hstop⟩

/-! ## One direction -/

/-- A closing pair is written as two closing brackets. -/
theorem eq_closing_of_closesHere {d : Direction} {t : Text} (h : closesHere d t = true) :
    ∃ rest, t = d.closing ++ rest := by
  match t with
  | [] => simp [closesHere] at h
  | [_] => simp [closesHere] at h
  | a :: b :: rest =>
    simp only [closesHere, Bool.and_eq_true, beq_iff_eq] at h
    exact ⟨rest, by rw [h.1.1, h.1.2]; rfl⟩

/-- The characters up to a closing pair are followed by it. -/
theorem eq_append_of_untilClosing? {d : Direction} {t : Text} {n : Nat}
    (h : untilClosing? d t = some n) :
    ∃ inner rest, t = inner ++ d.closing ++ rest ∧ inner.length = n := by
  induction t generalizing n with
  | nil => simp [untilClosing?] at h
  | cons c t ih =>
    rw [untilClosing?] at h
    split at h
    · rename_i hcloses
      obtain ⟨rest, hrest⟩ := eq_closing_of_closesHere hcloses
      obtain rfl := Option.some.inj h
      exact ⟨[], rest, hrest, rfl⟩
    · split at h
      · simp at h
      · obtain ⟨m, hm, rfl⟩ := Option.map_eq_some_iff.mp h
        obtain ⟨inner, rest, rfl, hlength⟩ := ih hm
        exact ⟨c :: inner, rest, rfl, by rw [List.length_cons, hlength]⟩

/-- A binding starts with its opening brackets and holds the characters between the brackets. -/
theorem eq_append_of_innerLength? {d : Direction} {t : Text} {n : Nat}
    (h : innerLength? d t = some n) :
    ∃ inner rest, t = d.opening ++ inner ++ d.closing ++ rest ∧ inner.length = n ∧ inner ≠ [] := by
  match t with
  | [] => simp [innerLength?] at h
  | [_] => simp [innerLength?] at h
  | [_, _] => simp [innerLength?] at h
  | a :: b :: c :: t =>
    rw [innerLength?] at h
    split at h
    · rename_i hopens
      simp only [Bool.and_eq_true, beq_iff_eq] at hopens
      obtain ⟨m, hm, rfl⟩ := Option.map_eq_some_iff.mp h
      obtain ⟨inner, rest, rfl, hlength⟩ := eq_append_of_untilClosing? hm
      refine ⟨c :: inner, rest, ?_, by rw [List.length_cons, hlength], by simp⟩
      rw [hopens.1.1, hopens.1.2]
      rfl
    · simp at h

/-- The binding around its inner text. -/
theorem written_ofInner (d : Direction) (raw : Bool) (start : Nat) (inner : Text) :
    (ofInner d raw start inner).written = d.opening ++ inner ++ d.closing := rfl

/-- The binding is as long as its brackets and its inner text. -/
theorem stop_ofInner (d : Direction) (raw : Bool) (start : Nat) (inner : Text) :
    (ofInner d raw start inner).stop
      = start + (ofInner d raw start inner).written.length := by
  rw [written_ofInner]
  simp only [List.length_append]
  have hopening : d.opening.length = 2 := rfl
  have hclosing : d.closing.length = 2 := rfl
  have hstop : (ofInner d raw start inner).stop = start + inner.length + 4 := rfl
  omega

/-- Every binding that a scan finds stands in the text. -/
theorem liesFrom_of_mem_scanFrom {d : Direction} {raw : Bool} {t : Text} {skip place : Nat}
    {o : Occurrence} (h : o ∈ scanFrom d raw skip place t) : o.LiesFrom place t := by
  induction t generalizing skip place with
  | nil => cases skip <;> simp [scanFrom] at h
  | cons c t ih =>
    cases skip with
    | succ skip => exact (ih h).cons c
    | zero =>
      rw [scanFrom] at h
      split at h
      · rename_i n hn
        rcases List.mem_cons.mp h with rfl | h
        · obtain ⟨inner, rest, ht, hlength, hne⟩ := eq_append_of_innerLength? hn
          have hinner : (t.drop 1).take n = inner := by
            have hdrop : t.drop 1 = inner ++ (d.closing ++ rest) := by
              have h2 : (c :: t).drop 2 = inner ++ (d.closing ++ rest) := by
                rw [ht]
                simp [Direction.opening]
              exact h2
            rw [hdrop, ← hlength, List.take_left']
            rfl
          refine ⟨[], rest, ?_, rfl, stop_ofInner d raw place _⟩
          rw [written_ofInner, hinner, List.nil_append, ht]
        · exact (ih h).cons c
      · exact (ih h).cons c

/-- A binding that a scan finds is written from its opening on. -/
theorem opening_prefix_of_mem_scanFrom {d : Direction} {raw : Bool} {t : Text} {skip place : Nat}
    {o : Occurrence} (h : o ∈ scanFrom d raw skip place t) : o.direction.opening <+: o.written := by
  induction t generalizing skip place with
  | nil => cases skip <;> simp [scanFrom] at h
  | cons c t ih =>
    cases skip with
    | succ skip => exact ih h
    | zero =>
      rw [scanFrom] at h
      split at h
      · rcases List.mem_cons.mp h with rfl | h
        · exact ⟨_, (List.append_assoc ..).symm⟩
        · exact ih h
      · exact ih h

/-- Only two-way bindings name an event. -/
theorem event_of_mem_scanFrom {d : Direction} {raw : Bool} {t : Text} {skip place : Nat}
    {o : Occurrence} (h : o ∈ scanFrom d raw skip place t) :
    o.direction = .oneWay → o.event = none := by
  induction t generalizing skip place with
  | nil => cases skip <;> simp [scanFrom] at h
  | cons c t ih =>
    cases skip with
    | succ skip => exact ih h
    | zero =>
      rw [scanFrom] at h
      split at h
      · rcases List.mem_cons.mp h with rfl | h
        · rintro rfl
          rfl
        · exact ih h
      · exact ih h

/-! ## Both directions -/

/-- The bindings of a text are found unless one of their expressions has a reference with too many
digits. -/
theorem find_eq_ok_iff {raw : Bool} {t : Text} {os : List Occurrence} :
    find raw t = .ok os ↔ overlong? raw t = none ∧ found raw t = os := by
  unfold find
  cases overlong? raw t <;> simp

/-- Joining two lists of bindings adds none and loses none. -/
theorem mem_merge {os others : List Occurrence} {o : Occurrence} :
    o ∈ merge os others ↔ o ∈ os ∨ o ∈ others := by
  induction os generalizing others with
  | nil => simp [merge]
  | cons first os ih =>
    rw [merge, List.mem_append, List.mem_cons, ih, List.mem_cons]
    constructor
    · rintro (h | rfl | h | h)
      · exact .inr (List.takeWhile_subset _ h)
      · exact .inl (.inl rfl)
      · exact .inl (.inr h)
      · exact .inr (List.dropWhile_subset _ h)
    · rintro ((rfl | h) | h)
      · exact .inr (.inl rfl)
      · exact .inr (.inr (.inl h))
      · rw [← List.takeWhile_append_dropWhile (p := fun a => decide (a.start < first.start)) (l := others),
          List.mem_append] at h
        exact h.imp_right fun h => .inr (.inr h)

/-- **Each found binding lies in the text.** -/
theorem liesIn_of_mem_found {raw : Bool} {t : Text} {o : Occurrence} (h : o ∈ found raw t) :
    o.LiesIn t := by
  rcases mem_merge.mp h with h | h
  · exact liesFrom_of_mem_scanFrom h
  · exact liesFrom_of_mem_scanFrom h

/-- A found binding is written from its opening on. -/
theorem opening_prefix_of_mem_found {raw : Bool} {t : Text} {o : Occurrence} (h : o ∈ found raw t) :
    o.direction.opening <+: o.written :=
  (mem_merge.mp h).elim opening_prefix_of_mem_scanFrom opening_prefix_of_mem_scanFrom

/-- A found binding has its opening bracket. -/
theorem opener_mem_of_mem_found {raw : Bool} {t : Text} {o : Occurrence} (h : o ∈ found raw t) :
    o.direction.opener ∈ o.written :=
  (opening_prefix_of_mem_found h).subset List.mem_cons_self

/-- The opening of a found binding stands in the text. -/
theorem opening_infix_of_mem_found {raw : Bool} {t : Text} {o : Occurrence} (h : o ∈ found raw t) :
    o.direction.opening <:+: t := by
  obtain ⟨before, after, ht, -⟩ := liesIn_of_mem_found h
  exact (opening_prefix_of_mem_found h).isInfix.trans ⟨before, after, ht.symm⟩

/-- A found binding names an event only if it is two-way. -/
theorem event_of_mem_found {raw : Bool} {t : Text} {o : Occurrence} (h : o ∈ found raw t) :
    o.direction = .oneWay → o.event = none :=
  (mem_merge.mp h).elim event_of_mem_scanFrom event_of_mem_scanFrom

/-- A text splits at a binding that lies in it behind a place. -/
theorem LiesIn.split {t : Text} {o : Occurrence} (h : o.LiesIn t) {position : Nat}
    (hposition : position ≤ o.start) :
    t.drop position
      = (t.drop position).take (o.start - position) ++ o.written ++ t.drop o.stop := by
  obtain ⟨before, after, rfl, hstart, hstop⟩ := h
  have hlength : o.start = before.length := by omega
  have hdrop : (before ++ o.written ++ after).drop o.stop = after := by
    rw [hstop, hlength, ← List.length_append, List.drop_left']
    rfl
  have hfront : (before ++ o.written ++ after).drop position
      = before.drop position ++ (o.written ++ after) := by
    rw [List.append_assoc, List.drop_append_of_le_length (by omega)]
  have htake : ((before ++ o.written ++ after).drop position).take (o.start - position)
      = before.drop position := by
    rw [hfront, List.take_left']
    rw [List.length_drop, hlength]
  rw [htake, hdrop, hfront, List.append_assoc]

end Occurrence
end DataBinding
