/-
# Patterns

A pattern matches the head of a text in several ways, which are tried in the order of preference: a
class of characters as often as possible and then one time fewer after the other, the first of two
patterns before the second one, and a part that may be missing before its absence.  A match keeps the
texts of the marked parts with their places.

* `Pattern.ways`        : all ways to match, the preferred one first;
* `prefix_of_mem_ways`  : what is matched is the head of the text;
* `first_both_many`     : a class of characters that leaves nothing to try is matched to its end.
-/
import Mathlib.Data.List.TakeWhile
import DataBinding.Text.Basic

namespace DataBinding

/-- A pattern of texts.  Classes of characters are given by their members. -/
inductive Pattern where
  | one (member : Char → Bool)
  | many (member : Char → Bool)
  | notAhead (member : Char → Bool)
  | both (before behind : Pattern)
  | either (preferred other : Pattern)
  | maybe (inner : Pattern)
  | marked (mark : String) (inner : Pattern)

/-- What a pattern matches: the text, and the marked parts with the places where they start. -/
structure Match where
  text : Text
  parts : List (String × Nat × Text)

namespace Match

/-- Two matches, one behind the other. -/
def append (m m' : Match) : Match :=
  ⟨m.text ++ m'.text,
    m.parts ++ m'.parts.map fun (mark, start, t) => (mark, m.text.length + start, t)⟩

/-- The part with a mark, and the place where it starts. -/
def part? (m : Match) (mark : String) : Option (Nat × Text) :=
  (m.parts.find? (·.1 == mark)).map (·.2)

end Match

namespace Pattern

/-- One or more characters of a class. -/
def several (member : Char → Bool) : Pattern :=
  both (one member) (many member)

/-- All ways in which a pattern matches the head of a text, in the order of preference. -/
def ways : Pattern → Text → List Match
  | one member, t => (t.head?.filter member).toList.map fun c => ⟨[c], []⟩
  | many member, t =>
    (List.range ((t.takeWhile member).length + 1)).reverse.map fun n => ⟨t.take n, []⟩
  | notAhead member, t => if t.head?.any member then [] else [⟨[], []⟩]
  | both before behind, t =>
    (before.ways t).flatMap fun m => (behind.ways (t.drop m.text.length)).map m.append
  | either preferred other, t => preferred.ways t ++ other.ways t
  | maybe inner, t => inner.ways t ++ [⟨[], []⟩]
  | marked mark inner, t => (inner.ways t).map fun m => ⟨m.text, (mark, 0, m.text) :: m.parts⟩

/-- The preferred way. -/
def first (pattern : Pattern) (t : Text) : Option Match :=
  (pattern.ways t).head?

variable {a b : Pattern} {member : Char → Bool} {t : Text} {m m' : Match} {c : Char}

theorem ways_one (member : Char → Bool) (t : Text) :
    (one member).ways t = (t.head?.filter member).toList.map fun c => ⟨[c], []⟩ :=
  rfl

theorem ways_many (member : Char → Bool) (t : Text) :
    (many member).ways t
      = (List.range ((t.takeWhile member).length + 1)).reverse.map fun n => ⟨t.take n, []⟩ :=
  rfl

theorem ways_notAhead (member : Char → Bool) (t : Text) :
    (notAhead member).ways t = if t.head?.any member then [] else [⟨[], []⟩] :=
  rfl

theorem ways_both (a b : Pattern) (t : Text) :
    (both a b).ways t
      = (a.ways t).flatMap fun m => (b.ways (t.drop m.text.length)).map m.append :=
  rfl

theorem ways_either (a b : Pattern) (t : Text) : (either a b).ways t = a.ways t ++ b.ways t :=
  rfl

theorem ways_maybe (a : Pattern) (t : Text) : (maybe a).ways t = a.ways t ++ [⟨[], []⟩] :=
  rfl

theorem ways_marked (mark : String) (a : Pattern) (t : Text) :
    (marked mark a).ways t = (a.ways t).map fun m => ⟨m.text, (mark, 0, m.text) :: m.parts⟩ :=
  rfl

/-- A match stands at the head of the text. -/
theorem prefix_of_mem_ways {pattern : Pattern} (h : m ∈ pattern.ways t) : m.text <+: t := by
  induction pattern generalizing t m with
  | one member =>
    simp only [ways_one, List.mem_map, Option.mem_toList, Option.filter_eq_some_iff] at h
    obtain ⟨c, ⟨hc, -⟩, rfl⟩ := h
    obtain ⟨r, rfl⟩ := List.head?_eq_some_iff.mp hc
    exact ⟨r, rfl⟩
  | many member =>
    obtain ⟨n, -, rfl⟩ := List.mem_map.mp h
    exact List.take_prefix n t
  | notAhead member =>
    rw [ways_notAhead] at h
    split at h
    · cases h
    · rw [List.mem_singleton.mp h]
      exact List.nil_prefix
  | both before behind ihbefore ihbehind =>
    -- the second part is matched on what the first one leaves
    obtain ⟨m₁, hm₁, hm⟩ := List.mem_flatMap.mp h
    obtain ⟨m₂, hm₂, rfl⟩ := List.mem_map.mp hm
    obtain ⟨r, hr⟩ := ihbefore hm₁
    have hrest := ihbehind hm₂
    rw [← hr, List.drop_left] at hrest
    rw [← hr]
    exact (List.prefix_append_right_inj _).mpr hrest
  | either preferred other ihpreferred ihother =>
    exact (List.mem_append.mp h).elim ihpreferred ihother
  | maybe inner ih =>
    rcases List.mem_append.mp h with h | h
    · exact ih h
    · rw [List.mem_singleton.mp h]
      exact List.nil_prefix
  | marked mark inner ih =>
    obtain ⟨m', hm', rfl⟩ := List.mem_map.mp h
    exact ih (m := m') hm'

/-- The text of the preferred match is known by its length. -/
theorem first_eq_some {pattern : Pattern} {n : Nat} {parts : List (String × Nat × Text)}
    (h : pattern.first t = some m) (hlength : m.text.length = n) (hparts : m.parts = parts) :
    pattern.first t = some ⟨t.take n, parts⟩ := by
  have htext := List.prefix_iff_eq_take.mp (prefix_of_mem_ways (List.mem_of_head? h))
  rw [h, ← hlength, ← hparts, ← htext]

/-! ## The preferred way -/

theorem first_one (member : Char → Bool) (t : Text) :
    (one member).first t = (t.head?.filter member).map fun c => ⟨[c], []⟩ := by
  rw [first, ways_one]
  cases t.head?.filter member <;> rfl

theorem first_notAhead (member : Char → Bool) (t : Text) :
    (notAhead member).first t = if t.head?.any member then none else some ⟨[], []⟩ := by
  rw [first, ways_notAhead]
  split <;> rfl

/-- A class of characters is matched to its end, or one time fewer after the other. -/
theorem ways_many_eq_cons (member : Char → Bool) (t : Text) :
    (many member).ways t = ⟨t.takeWhile member, []⟩ ::
      (List.range (t.takeWhile member).length).reverse.map fun n => ⟨t.take n, []⟩ := by
  have htake : t.take (t.takeWhile member).length = t.takeWhile member :=
    (List.prefix_iff_eq_take.mp (List.takeWhile_prefix member)).symm
  rw [ways_many, List.range_succ, List.reverse_append, List.reverse_singleton,
    List.singleton_append, List.map_cons, htake]

theorem first_many (member : Char → Bool) (t : Text) :
    (many member).first t = some ⟨t.takeWhile member, []⟩ := by
  rw [first, ways_many_eq_cons, List.head?_cons]

theorem first_either (a b : Pattern) (t : Text) :
    (either a b).first t = (a.first t).or (b.first t) := by
  rw [first, ways_either, List.head?_append]
  rfl

theorem first_maybe (a : Pattern) (t : Text) :
    (maybe a).first t = some ((a.first t).getD ⟨[], []⟩) := by
  rw [first, ways_maybe, List.head?_append, first]
  cases (a.ways t).head? <;> rfl

theorem first_marked (mark : String) (a : Pattern) (t : Text) :
    (marked mark a).first t = (a.first t).map fun m => ⟨m.text, (mark, 0, m.text) :: m.parts⟩ := by
  rw [first, ways_marked, List.head?_map, first]

/-- Of the ways to match what stands in front the first one is taken that leaves a way to match what
stands behind. -/
theorem first_both (a b : Pattern) (t : Text) :
    (both a b).first t
      = (a.ways t).findSome? fun m => (b.first (t.drop m.text.length)).map m.append := by
  rw [first, ways_both, List.head?_flatMap]
  simp only [List.head?_map, first]

theorem first_both_of_none (h : a.first t = none) : (both a b).first t = none := by
  rw [first, List.head?_eq_none_iff] at h
  rw [first_both, h]
  rfl

theorem first_both_of_some (h : a.first t = some m) (h' : b.first (t.drop m.text.length) = some m') :
    (both a b).first t = some (m.append m') := by
  obtain ⟨others, hways⟩ := List.head?_eq_some_iff.mp h
  rw [first_both, hways, List.findSome?_cons, h']
  rfl

/-- One character leaves no choice. -/
theorem first_both_one (member : Char → Bool) (b : Pattern) (c : Char) (t : Text) :
    (both (one member) b).first (c :: t)
      = if member c then (b.first t).map (Match.append ⟨[c], []⟩) else none := by
  rw [first_both, ways_one, List.head?_cons]
  by_cases hc : member c = true
  · rw [if_pos hc, Option.filter_some_pos hc]
    simp
  · rw [if_neg hc, Option.filter_some_neg (by simpa using hc)]
    rfl

theorem first_several (member : Char → Bool) (t : Text) :
    (several member).first t
      = if (t.takeWhile member).isEmpty then none else some ⟨t.takeWhile member, []⟩ := by
  cases t with
  | nil => exact first_both_of_none (first_one member [])
  | cons c t =>
    rw [several, first_both_one, first_many, List.takeWhile_cons]
    by_cases hc : member c = true
    · rw [if_pos hc, if_pos hc]
      rfl
    · rw [if_neg hc, if_neg hc]
      rfl

/-- Before the end of a class of characters stands one of them. -/
theorem exists_drop_of_lt {n : Nat} (h : n < (t.takeWhile member).length) :
    ∃ c r, t.drop n = c :: r ∧ member c = true := by
  have hprefix := List.takeWhile_prefix member (l := t)
  have hn : n < t.length := Nat.lt_of_lt_of_le h hprefix.length_le
  refine ⟨t[n], t.drop (n + 1), List.drop_eq_getElem_cons hn, ?_⟩
  rw [← hprefix.getElem h]
  exact List.mem_takeWhile_imp (List.getElem_mem h)

/-- What follows the head of a text. -/
theorem drop_length_take (n : Nat) (t : Text) : t.drop (t.take n).length = t.drop n := by
  rw [List.length_take]
  rcases Nat.le_total n t.length with hle | hle
  · rw [Nat.min_eq_left hle]
  · rw [Nat.min_eq_right hle, List.drop_length, List.drop_eq_nil_of_le hle]

/-- If what stands behind does not go on from the end of a class of characters, fewer are tried. -/
theorem first_both_many_of_none (h : b.first (t.drop (t.takeWhile member).length) = none) :
    (both (many member) b).first t
      = (List.range (t.takeWhile member).length).reverse.findSome? fun n =>
          (b.first (t.drop n)).map (Match.append ⟨t.take n, []⟩) := by
  rw [first_both, ways_many_eq_cons, List.findSome?_cons, h, Option.map_none, List.findSome?_map]
  simp only [Function.comp_def, drop_length_take]

/-- **A class of characters is matched to its end** if what stands behind starts with none of them. -/
theorem first_both_many (hblocked : ∀ c r, member c = true → b.first (c :: r) = none) (t : Text) :
    (both (many member) b).first t
      = (b.first (t.drop (t.takeWhile member).length)).map
          (Match.append ⟨t.takeWhile member, []⟩) := by
  cases h : b.first (t.drop (t.takeWhile member).length) with
  | some m => exact first_both_of_some (first_many member t) h
  | none =>
    rw [first_both_many_of_none h, Option.map_none, List.findSome?_eq_none_iff]
    intro n hn
    obtain ⟨c, r, hdrop, hc⟩ := exists_drop_of_lt (List.mem_range.mp (List.mem_reverse.mp hn))
    rw [hdrop, hblocked c r hc]
    rfl

/-- **The last one of a class of characters is given back** if what stands behind does not go on from
the end, but from every one of them. -/
theorem first_both_many_of_member (h : b.first (t.drop (t.takeWhile member).length) = none)
    (hmember : ∀ c r, member c = true → b.first (c :: r) = some m) :
    (both (many member) b).first t
      = if 0 < (t.takeWhile member).length then
          some (Match.append ⟨t.take ((t.takeWhile member).length - 1), []⟩ m)
        else none := by
  rw [first_both_many_of_none h]
  cases hlength : (t.takeWhile member).length with
  | zero => rfl
  | succ n =>
    have hlt : n < (t.takeWhile member).length := by
      omega
    obtain ⟨c, r, hdrop, hc⟩ := exists_drop_of_lt hlt
    rw [List.range_succ, List.reverse_append, List.reverse_singleton, List.singleton_append,
      List.findSome?_cons, hdrop, hmember c r hc]
    rfl

end Pattern
end DataBinding
