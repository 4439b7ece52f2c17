/-
# Bindings are leftmost and shortest

The bindings of one direction are those that a reader finds who goes through the text from left to
right: the next one starts at the first opening brackets that closing ones follow on the same line, it
ends at the first of these, and the search goes on behind it.  The bindings of both directions come in
the order of their starts, and each of them is made of the text between its brackets.

* `Brackets`               : two places of a text between which a binding may stand;
* `Scanned`                : the places of the bindings that are found from left to right;
* `scanned_scanFrom`       : the scan of one direction finds these;
* `find_leftmost_shortest` : all bindings of a text, their places and what they are made of.
-/
import Mathlib.Data.List.TakeWhile
import DataBinding.Proofs.Binding.Decoding

namespace DataBinding

namespace Occurrence

variable {d : Direction} {raw : Bool} {t u : Text} {place p q n : Nat}

/-! ## Places of brackets -/

/-- The closing brackets of a direction stand at a place, and no third one follows them. -/
structure ClosesAt (d : Direction) (t : Text) (q : Nat) : Prop where
  first : t[q]? = some d.closer
  second : t[q + 1]? = some d.closer
  last : t[q + 2]? ≠ some d.closer

/-- A binding of a direction may stand between two places: opening brackets stand at the first one and
closing ones at the second one, and between them at least one character and no line end. -/
structure Brackets (d : Direction) (t : Text) (p q : Nat) : Prop where
  first : t[p]? = some d.opener
  second : t[p + 1]? = some d.opener
  inner : p + 3 ≤ q
  line : ∀ i, p + 2 ≤ i → i < q → t[i]? ≠ some '\n'
  closes : ClosesAt d t q

theorem closesHere_iff : closesHere d t = true ↔ ClosesAt d t 0 := by
  rcases t with _ | ⟨a, _ | ⟨b, t⟩⟩
  · constructor
    · intro h
      cases h
    · intro h
      cases h.first
  · constructor
    · intro h
      cases h
    · intro h
      cases h.second
  · simp only [closesHere, Bool.and_eq_true, beq_iff_eq, bne_iff_ne, List.head?_eq_getElem?]
    constructor
    · intro h
      exact ⟨congrArg some h.1.1, congrArg some h.1.2, h.2⟩
    · intro h
      exact ⟨⟨Option.some.inj h.first, Option.some.inj h.second⟩, h.last⟩

/-- Closing brackets behind a text in front. -/
theorem closesAt_append : ClosesAt d (u ++ t) (q + u.length) ↔ ClosesAt d t q := by
  have hget : ∀ i, (u ++ t)[q + u.length + i]? = t[q + i]? := fun i => by
    rw [Nat.add_right_comm, List.getElem?_append_right (Nat.le_add_left ..), Nat.add_sub_cancel]
  constructor
  · exact fun h => ⟨hget 0 ▸ h.first, hget 1 ▸ h.second, hget 2 ▸ h.last⟩
  · exact fun h => ⟨(hget 0).symm ▸ h.first, (hget 1).symm ▸ h.second, (hget 2).symm ▸ h.last⟩

/-- The first closing brackets of a line. -/
theorem untilClosing?_eq_some (h : untilClosing? d t = some n) :
    ClosesAt d t n ∧ (∀ i < n, t[i]? ≠ some '\n') ∧ ∀ m < n, ¬ ClosesAt d t m := by
  induction t generalizing n with
  | nil => cases h
  | cons c t ih =>
    rw [untilClosing?] at h
    split at h
    · rename_i hcloses
      obtain rfl := Option.some.inj h
      exact ⟨closesHere_iff.mp hcloses, fun i hi => absurd hi (Nat.not_lt_zero i),
        fun m hm => absurd hm (Nat.not_lt_zero m)⟩
    · rename_i hcloses
      split at h
      · cases h
      · rename_i hline
        obtain ⟨m, hm, rfl⟩ := Option.map_eq_some_iff.mp h
        obtain ⟨hat, hlines, hfirst⟩ := ih hm
        refine ⟨(closesAt_append (u := [c])).mpr hat, fun i hi => ?_, fun k hk => ?_⟩
        · cases i with
          | zero => simpa using hline
          | succ i => exact hlines i (Nat.lt_of_succ_lt_succ hi)
        · cases k with
          | zero => exact fun h => hcloses (closesHere_iff.mpr h)
          | succ k =>
            exact fun h =>
              hfirst k (Nat.lt_of_succ_lt_succ hk) ((closesAt_append (u := [c])).mp h)

/-- Where no closing brackets are found, the line ends in front of them. -/
theorem untilClosing?_eq_none (h : untilClosing? d t = none) (hat : ClosesAt d t n) :
    ∃ i < n, t[i]? = some '\n' := by
  induction t generalizing n with
  | nil => cases hat.first
  | cons c t ih =>
    rw [untilClosing?] at h
    split at h
    · cases h
    · rename_i hcloses
      cases n with
      | zero => exact absurd (closesHere_iff.mpr hat) hcloses
      | succ n =>
        split at h
        · rename_i hline
          exact ⟨0, Nat.succ_pos n, congrArg some (beq_iff_eq.mp hline)⟩
        · obtain ⟨i, hi, hat⟩ :=
            ih (Option.map_eq_none_iff.mp h) ((closesAt_append (u := [c])).mp hat)
          exact ⟨i + 1, Nat.succ_lt_succ hi, hat⟩

/-- A binding that is read at the start of a text has the first closing brackets that it may have. -/
theorem brackets_of_innerLength? (h : innerLength? d t = some n) :
    Brackets d t 0 (n + 2) ∧ ∀ q, Brackets d t 0 q → n + 2 ≤ q := by
  match t with
  | [] => cases h
  | [_] => cases h
  | [_, _] => cases h
  | a :: b :: c :: t =>
    rw [innerLength?] at h
    split at h
    · rename_i hopens
      simp only [Bool.and_eq_true, beq_iff_eq, bne_iff_ne] at hopens
      obtain ⟨⟨rfl, rfl⟩, hline⟩ := hopens
      obtain ⟨m, hm, rfl⟩ := Option.map_eq_some_iff.mp h
      obtain ⟨hat, hlines, hfirst⟩ := untilClosing?_eq_some hm
      have hcloses : ClosesAt d (d.opener :: d.opener :: c :: t) (m + 3) :=
        (closesAt_append (u := [d.opener, d.opener, c])).mpr hat
      refine ⟨⟨rfl, rfl, by omega, fun i hle hlt => ?_, hcloses⟩, fun q hq => ?_⟩
      · -- the first character is checked on its own
        obtain rfl | ⟨j, rfl⟩ : i = 2 ∨ ∃ j, i = j + 3 := by
          rcases Nat.lt_or_ge 2 i with hi | hi
          · exact .inr ⟨i - 3, by omega⟩
          · exact .inl (by omega)
        · exact fun h => hline (Option.some.inj h)
        · exact hlines j (by omega)
      · by_contra hlt
        obtain ⟨k, rfl⟩ : ∃ k, q = k + 3 := ⟨q - 3, by have := hq.inner; omega⟩
        exact hfirst k (by omega) ((closesAt_append (u := [d.opener, d.opener, c])).mp hq.closes)
    · cases h

/-- Where no binding is read, none may stand. -/
theorem not_brackets_of_innerLength? (h : innerLength? d t = none) (q : Nat) :
    ¬ Brackets d t 0 q := by
  intro hq
  obtain ⟨k, rfl⟩ : ∃ k, q = k + 3 := ⟨q - 3, by have := hq.inner; omega⟩
  match t with
  | [] => cases hq.first
  | [_] => cases hq.second
  | [_, _] => cases hq.closes.first
  | a :: b :: c :: t =>
    obtain rfl := Option.some.inj hq.first
    obtain rfl := Option.some.inj hq.second
    have hline : c ≠ '\n' := by
      rintro rfl
      exact hq.line 2 (Nat.le_refl _) (by omega) rfl
    rw [innerLength?, if_pos (by simpa using hline), Option.map_eq_none_iff] at h
    obtain ⟨i, hi, hend⟩ :=
      untilClosing?_eq_none h ((closesAt_append (u := [d.opener, d.opener, c])).mp hq.closes)
    exact hq.line (i + 3) (by omega) (by omega) hend

/-- Places behind a text in front. -/
theorem brackets_append : Brackets d (u ++ t) u.length (u.length + q) ↔ Brackets d t 0 q := by
  have hget : ∀ i, (u ++ t)[u.length + i]? = t[i]? := fun i => by
    rw [List.getElem?_append_right (Nat.le_add_right ..), Nat.add_sub_cancel_left]
  have hcloses : ClosesAt d (u ++ t) (u.length + q) ↔ ClosesAt d t q := by
    rw [Nat.add_comm]
    exact closesAt_append
  constructor
  · intro h
    refine ⟨hget 0 ▸ h.first, hget 1 ▸ h.second, by have := h.inner; omega, fun i hle hlt => ?_,
      hcloses.mp h.closes⟩
    rw [← hget i]
    exact h.line _ (by omega) (by omega)
  · intro h
    refine ⟨(hget 0).symm ▸ h.first, (hget 1).symm ▸ h.second, by have := h.inner; omega,
      fun i hle hlt => ?_, hcloses.mpr h.closes⟩
    obtain ⟨j, rfl⟩ : ∃ j, i = u.length + j := ⟨i - u.length, by omega⟩
    rw [hget j]
    exact h.line j (by omega) (by omega)

/-! ## Scanning from left to right -/

/-- The starts and ends of the bindings of a direction that are found from a place on.  The next
binding is the one that starts first, and of these the one that ends first. -/
inductive Scanned (d : Direction) (t : Text) : Nat → List (Nat × Nat) → Prop
  | done {place : Nat} (none : ∀ p q, place ≤ p → ¬ Brackets d t p q) : Scanned d t place []
  | next {place p q : Nat} {places : List (Nat × Nat)} (behind : place ≤ p)
      (brackets : Brackets d t p q) (leftmost : ∀ p' q', place ≤ p' → Brackets d t p' q' → p ≤ p')
      (shortest : ∀ q', Brackets d t p q' → q ≤ q') (rest : Scanned d t (q + 2) places) :
      Scanned d t place ((p, q + 2) :: places)

/-- The places are determined by the text. -/
theorem Scanned.unique {places places' : List (Nat × Nat)} (h : Scanned d t place places)
    (h' : Scanned d t place places') : places = places' := by
  induction h generalizing places' with
  | done none =>
    cases h' with
    | done => rfl
    | next behind brackets => exact absurd brackets (none _ _ behind)
  | next behind brackets leftmost shortest _ ih =>
    cases h' with
    | done none => exact absurd brackets (none _ _ behind)
    | next behind' brackets' leftmost' shortest' rest' =>
      obtain rfl := Nat.le_antisymm (leftmost _ _ behind' brackets')
        (leftmost' _ _ behind brackets)
      obtain rfl := Nat.le_antisymm (shortest _ brackets') (shortest' _ brackets)
      rw [ih rest']

/-- A place where no binding may start is passed over. -/
theorem Scanned.pass {places : List (Nat × Nat)} (hnone : ∀ q, ¬ Brackets d t place q)
    (h : Scanned d t (place + 1) places) : Scanned d t place places := by
  have hlater : ∀ p q, place ≤ p → Brackets d t p q → place + 1 ≤ p := by
    intro p q hle hbrackets
    refine Nat.lt_of_le_of_ne hle ?_
    rintro rfl
    exact hnone q hbrackets
  cases h with
  | done none => exact .done fun p q hle hbrackets => none p q (hlater p q hle hbrackets) hbrackets
  | next behind brackets leftmost shortest rest =>
    exact .next (Nat.le_of_succ_le behind) brackets
      (fun p' q' hle hbrackets => leftmost p' q' (hlater p' q' hle hbrackets) hbrackets) shortest
      rest

/-- The start and the end of a binding. -/
def extent (o : Occurrence) : Nat × Nat :=
  (o.start, o.stop)

/-- **The scan of one direction** finds the bindings from left to right. -/
theorem scanned_scanFrom (d : Direction) (raw : Bool) (skip : Nat) (u t : Text) :
    Scanned d (u ++ t) (u.length + skip) ((scanFrom d raw skip u.length t).map extent) := by
  -- what was passed moves to the text in front, so that the places stay those of the whole text
  induction t generalizing skip u with
  | nil =>
    have hnil : scanFrom d raw skip u.length [] = [] := by cases skip <;> rfl
    rw [hnil, List.append_nil]
    refine .done fun p q hle hbrackets => ?_
    have hlt := (List.getElem?_eq_some_iff.mp hbrackets.first).1
    omega
  | cons c t ih =>
    -- the scan goes on behind one more character
    have hstep : ∀ k, Scanned d (u ++ c :: t) (u.length + 1 + k)
        ((scanFrom d raw k (u.length + 1) t).map extent) := by
      intro k
      have := ih k (u ++ [c])
      rwa [List.append_assoc, List.singleton_append, List.length_append, List.length_singleton]
        at this
    have hhere : ∀ p, Brackets d (u ++ c :: t) u.length (u.length + p)
        ↔ Brackets d (c :: t) 0 p := fun _ => brackets_append
    cases skip with
    | succ skip =>
      rw [scanFrom, Nat.add_comm skip, ← Nat.add_assoc]
      exact hstep skip
    | zero =>
      rw [scanFrom, Nat.add_zero]
      split
      · rename_i n hn
        obtain ⟨hbrackets, hshortest⟩ := brackets_of_innerLength? hn
        have hlength : ((t.drop 1).take n).length = n := by
          have hle := add_le_of_innerLength? hn
          rw [List.length_cons] at hle
          rw [List.length_take, List.length_drop]
          omega
        have hextent : extent (ofInner d raw u.length ((t.drop 1).take n))
            = (u.length, u.length + (n + 2) + 2) := by
          show (u.length, u.length + ((t.drop 1).take n).length + 4) = _
          rw [hlength, Nat.add_assoc u.length (n + 2)]
          rfl
        rw [List.map_cons, hextent]
        refine .next (Nat.le_refl _) ((hhere _).mpr hbrackets) (fun _ _ hle _ => hle) ?_ ?_
        · intro q' hq'
          obtain ⟨k, rfl⟩ : ∃ k, q' = u.length + k := ⟨q' - u.length, by have := hq'.inner; omega⟩
          exact Nat.add_le_add_left (hshortest k ((hhere k).mp hq')) _
        · have hrest := hstep (n + 3)
          rwa [show u.length + 1 + (n + 3) = u.length + (n + 2) + 2 by omega] at hrest
      · rename_i hnone
        refine .pass (fun q hq => ?_) (hstep 0)
        obtain ⟨k, rfl⟩ : ∃ k, q = u.length + k := ⟨q - u.length, by have := hq.inner; omega⟩
        exact not_brackets_of_innerLength? hnone k ((hhere k).mp hq)

/-- A scan finds each binding behind the one before. -/
theorem pairwise_scanFrom (d : Direction) (raw : Bool) (skip place : Nat) (t : Text) :
    (scanFrom d raw skip place t).Pairwise fun o o' => o.start < o'.start := by
  induction t generalizing skip place with
  | nil => cases skip <;> exact .nil
  | cons c t ih =>
    cases skip with
    | succ skip => exact ih skip (place + 1)
    | zero =>
      rw [scanFrom]
      split
      · refine .cons (fun o ho => ?_) (ih ..)
        have hle := le_start_of_mem_scanFrom ho
        show place < o.start
        omega
      · exact ih 0 (place + 1)

/-! ## Both directions -/

section Merge

variable {os others : List Occurrence}

/-- Of bindings in their order, those that are left from the first one on that does not start before a
place do not start before it. -/
theorem le_start_of_mem_dropWhile (h : others.Pairwise fun o o' => o.start < o'.start) {o : Occurrence}
    (hmem : o ∈ others.dropWhile (·.start < place)) : place ≤ o.start := by
  induction h with
  | nil => cases hmem
  | @cons first rest hfirst _ ih =>
    rw [List.dropWhile_cons] at hmem
    split at hmem
    · exact ih hmem
    · rename_i hge
      have hge : place ≤ first.start := by simpa using hge
      rcases List.mem_cons.mp hmem with rfl | hmem
      · exact hge
      · exact Nat.le_trans hge (Nat.le_of_lt (hfirst o hmem))

/-- Joining keeps the order, if no two bindings start at the same place. -/
theorem pairwise_merge (hos : os.Pairwise fun o o' => o.start < o'.start)
    (hothers : others.Pairwise fun o o' => o.start < o'.start)
    (hne : ∀ o ∈ os, ∀ o' ∈ others, o.start ≠ o'.start) :
    (merge os others).Pairwise fun o o' => o.start < o'.start := by
  induction hos generalizing others with
  | nil => exact hothers
  | @cons o os hfirst _ ih =>
    have hdrop : ∀ o' ∈ others.dropWhile (·.start < o.start), o.start < o'.start := fun o' ho' =>
      Nat.lt_of_le_of_ne (le_start_of_mem_dropWhile hothers ho')
        (hne o (List.mem_cons_self ..) o' (List.dropWhile_subset _ ho'))
    have hrest := ih (hothers.sublist (List.dropWhile_sublist (·.start < o.start)))
      fun a ha b hb => hne a (List.mem_cons_of_mem _ ha) b (List.dropWhile_subset _ hb)
    -- all that is joined behind `o` starts behind it, and what is taken in front starts in front
    have hbehind : ∀ o' ∈ merge os (others.dropWhile (·.start < o.start)), o.start < o'.start :=
      fun o' ho' => (mem_merge.mp ho').elim (hfirst o') (hdrop o')
    rw [merge, List.pairwise_append]
    refine ⟨hothers.sublist (List.takeWhile_sublist _), .cons hbehind hrest, fun a ha b hb => ?_⟩
    have hlt : a.start < o.start := by simpa using List.mem_takeWhile_imp ha
    rcases List.mem_cons.mp hb with rfl | hb
    · exact hlt
    · exact Nat.lt_trans hlt (hbehind b hb)

/-- The bindings of the first list are found again by a property that the others lack. -/
theorem filter_merge_left {f : Occurrence → Bool} (hos : ∀ o ∈ os, f o = true)
    (hothers : ∀ o ∈ others, f o = false) : (merge os others).filter f = os := by
  induction os generalizing others with
  | nil => exact List.filter_eq_nil_iff.mpr fun o ho => by rw [hothers o ho]; exact Bool.false_ne_true
  | cons o os ih =>
    rw [List.forall_mem_cons] at hos
    have hfront : (others.takeWhile (·.start < o.start)).filter f = [] :=
      List.filter_eq_nil_iff.mpr fun a ha => by
        rw [hothers a (List.takeWhile_subset _ ha)]
        exact Bool.false_ne_true
    rw [merge, List.filter_append, hfront, List.nil_append, List.filter_cons_of_pos hos.1,
      ih hos.2 fun a ha => hothers a (List.dropWhile_subset _ ha)]

/-- So are those of the second list. -/
theorem filter_merge_right {f : Occurrence → Bool} (hos : ∀ o ∈ os, f o = false)
    (hothers : ∀ o ∈ others, f o = true) : (merge os others).filter f = others := by
  induction os generalizing others with
  | nil => exact List.filter_eq_self.mpr hothers
  | cons o os ih =>
    rw [List.forall_mem_cons] at hos
    have hfront : (others.takeWhile (·.start < o.start)).filter f
        = others.takeWhile (·.start < o.start) :=
      List.filter_eq_self.mpr fun a ha => hothers a (List.takeWhile_subset _ ha)
    have hnot : ¬ f o = true := by rw [hos.1]; exact Bool.false_ne_true
    rw [merge, List.filter_append, hfront, List.filter_cons_of_neg hnot,
      ih hos.2 fun a ha => hothers a (List.dropWhile_subset _ ha), List.takeWhile_append_dropWhile]

end Merge

/-- The bindings of one direction among those of a text. -/
theorem filter_found (d : Direction) (raw : Bool) (t : Text) :
    (found raw t).filter (·.direction = d) = scanFrom d raw 0 0 t := by
  have hown : ∀ e, ∀ o ∈ scanFrom e raw 0 0 t, o.direction = e := fun _ _ =>
    direction_of_mem_scanFrom
  cases d with
  | oneWay =>
    refine filter_merge_left (fun o ho => ?_) fun o ho => ?_
    · rw [hown _ o ho]; rfl
    · rw [hown _ o ho]; rfl
  | twoWay =>
    refine filter_merge_right (fun o ho => ?_) fun o ho => ?_
    · rw [hown _ o ho]; rfl
    · rw [hown _ o ho]; rfl

/-- A binding of a text starts with the opening bracket of its direction. -/
theorem getElem?_start_of_mem_scanFrom {o : Occurrence} (h : o ∈ scanFrom d raw 0 0 t) :
    t[o.start]? = some d.opener := by
  obtain ⟨u, r, n, rfl, hstart, hn, -⟩ := exists_of_mem_scanFrom h
  rw [hstart, Nat.zero_add, List.getElem?_append_right (Nat.le_refl _), Nat.sub_self]
  exact (brackets_of_innerLength? hn).1.first

/-- The bindings of a text come in the order of their starts. -/
theorem pairwise_found (raw : Bool) (t : Text) :
    (found raw t).Pairwise fun o o' => o.start < o'.start := by
  refine pairwise_merge (pairwise_scanFrom ..) (pairwise_scanFrom ..) fun o ho o' ho' heq => ?_
  -- two directions have different opening brackets
  have hone := getElem?_start_of_mem_scanFrom ho
  rw [heq, getElem?_start_of_mem_scanFrom ho'] at hone
  exact absurd (Option.some.inj hone) (by decide)

/-! ## What a binding is made of -/

/-- The expression and the event in the text between the brackets of a binding: a two-way binding with
a double colon names an event behind the last one. -/
inductive Parted (d : Direction) : Text → Text → Option Text → Prop
  | whole {inner : Text} (colons : d = .twoWay → ¬ "::".toList <:+: inner) :
      Parted d inner inner none
  | named {expression event : Text} (twoWay : d = .twoWay) (last : ¬ "::".toList <:+: ':' :: event) :
      Parted d (expression ++ ("::".toList ++ event)) expression (some event)

theorem parted_splitEvent (d : Direction) (inner : Text) :
    Parted d inner (splitEvent d inner).1 (splitEvent d inner).2 := by
  have hcolons : "::".toList ≠ [] := by decide
  cases d with
  | oneWay => exact .whole nofun
  | twoWay =>
    rw [splitEvent]
    cases hsplit : Text.splitLast "::".toList inner with
    | none => exact .whole fun _ => Text.splitLast_eq_none hcolons hsplit
    | some parts =>
      obtain ⟨expression, event⟩ := parts
      obtain ⟨rfl, hlast⟩ := Text.splitLast_eq_some hcolons hsplit
      exact .named rfl hlast

/-- A binding is made of what stands at its place in a text: it is written as it stands there, and its
expression, which is decoded in markup text, and its event are in the text between the brackets. -/
structure MadeOf (raw : Bool) (t : Text) (o : Occurrence) : Prop where
  written : (t.drop o.start).take (o.stop - o.start) = o.written
  inner : ∃ inner expression, inner ≠ [] ∧
    o.written = o.direction.opening ++ inner ++ o.direction.closing ∧
    Parted o.direction inner expression o.event ∧
    (if raw then Markup.decode expression else .ok expression) = .ok o.expression

/-- The bindings of a value are made of what stands at their places. -/
theorem madeOf_of_mem_found {o : Occurrence} (h : o ∈ found false t) : o.MadeOf false t := by
  obtain ⟨before, after, ht, hstart, hstop⟩ := liesIn_of_mem_found h
  have hwritten : (t.drop o.start).take (o.stop - o.start) = o.written := by
    rw [hstop, Nat.add_sub_cancel_left, hstart, Nat.zero_add, ht, List.append_assoc, List.drop_left,
      List.take_left]
  obtain ⟨d, hd⟩ := mem_found_iff.mp h
  obtain ⟨u, r, n, -, -, hn, ho⟩ := exists_of_mem_scanFrom hd
  obtain ⟨inner, rest, rfl, rfl, hne⟩ := eq_append_of_innerLength? hn
  have hinner : ((d.opening ++ inner ++ d.closing ++ rest).drop 2).take inner.length = inner := by
    have hopening : d.opening.length = 2 := rfl
    rw [List.append_assoc, List.append_assoc, List.drop_left' hopening, List.take_left]
  rw [hinner] at ho
  refine ⟨hwritten, inner, (splitEvent d inner).1, hne, ?_, ?_, ?_⟩ <;> rw [ho]
  · rfl
  · exact parted_splitEvent d inner
  · rfl

/-- A binding that is decoded is made of the same text. -/
theorem MadeOf.decoded {o : Occurrence} (h : o.MadeOf false t) (hdecodes : ¬ Markup.Overlong o.expression) :
    o.decoded.MadeOf true t := by
  obtain ⟨inner, expression, hne, hwritten, hparted, hexpression⟩ := h.inner
  obtain rfl : expression = o.expression := Except.ok.inj hexpression
  exact ⟨h.written, inner, o.expression, hne, hwritten, hparted,
    Markup.decode_eq_ok_iff.mpr ⟨Markup.overlong?_eq_none_iff.mpr hdecodes, rfl⟩⟩

/-- The bindings that are found are made of what stands at their places. -/
theorem madeOf_of_find {os : List Occurrence} (h : find raw t = .ok os) :
    ∀ o ∈ os, o.MadeOf raw t := by
  obtain ⟨hdecodes, rfl⟩ := find_eq_ok_iff.mp h
  cases raw with
  | false => exact fun _ => madeOf_of_mem_found
  | true =>
    intro o ho
    obtain ⟨o', ho', rfl⟩ := mem_found_raw_iff.mp ho
    exact (madeOf_of_mem_found ho').decoded (overlong?_eq_none_iff.mp hdecodes o' ho')

/-! ## All bindings of a text -/

/-- A text without opening brackets has no bindings. -/
theorem found_eq_nil (hnone : mayHold t = false) (raw : Bool) : found raw t = [] := by
  rw [List.eq_nil_iff_forall_not_mem]
  intro o ho
  have hmay : mayHold t = true := by
    rw [mayHold_iff]
    have hopening := opening_infix_of_mem_found ho
    revert hopening
    cases o.direction
    · exact .inl
    · exact .inr
  rw [hnone] at hmay
  cases hmay

/-- **The bindings of a text.**  Those of a value are found, and those of markup text exactly if the
expressions that a value would have there hold no reference with too many digits.  The bindings come
in the order of their starts; those of one direction stand where a reader finds them from left to
right, each as far to the left and as short as possible; each is made of what stands at its place; and
there are none in a text without opening brackets. -/
theorem find_leftmost_shortest (raw : Bool) (t : Text) :
    (∃ plain, find false t = .ok plain ∧
      ((∃ os, find true t = .ok os) ↔ ∀ o ∈ plain, ¬ Markup.Overlong o.expression)) ∧
    (∀ os, find raw t = .ok os →
      (os.Pairwise fun o o' => o.start < o'.start) ∧
      (∀ d places, Scanned d t 0 places ↔ (os.filter (·.direction = d)).map extent = places) ∧
      ∀ o ∈ os, o.MadeOf raw t) ∧
    (mayHold t = false → find raw t = .ok []) := by
  refine ⟨⟨found false t, find_value t, exists_find_iff⟩, fun os hos => ?_, fun hnone => ?_⟩
  · obtain ⟨-, rfl⟩ := find_eq_ok_iff.mp hos
    refine ⟨pairwise_found raw t, fun d places => ?_, madeOf_of_find hos⟩
    have hscanned : Scanned d t 0 ((scanFrom d raw 0 0 t).map extent) := scanned_scanFrom d raw 0 [] t
    rw [filter_found]
    constructor
    · exact hscanned.unique
    · rintro rfl
      exact hscanned
  · -- without bindings there is no expression that cannot be decoded
    refine find_eq_ok_iff.mpr ⟨?_, found_eq_nil hnone raw⟩
    cases raw with
    | false => rfl
    | true =>
      refine overlong?_eq_none_iff.mpr fun o ho => ?_
      rw [found_eq_nil hnone] at ho
      cases ho

/-- A binding stands in this text, and yet the bindings of the text are not found if it is markup
text. -/
theorem not_find_longBinding :
    found false (longBinding .oneWay) ≠ [] ∧ ¬ ∃ os, find true (longBinding .oneWay) = .ok os := by
  obtain ⟨digits, hdigits⟩ := exists_overlong?_longBinding .oneWay
  constructor
  · intro hnil
    have hnone : overlong? true (longBinding .oneWay) = none :=
      overlong?_eq_none_iff.mpr fun o ho => by rw [hnil] at ho; cases ho
    cases hnone.symm.trans hdigits
  · rintro ⟨os, hos⟩
    cases (find_eq_ok_iff.mp hos).1.symm.trans hdigits

/-- Brackets in a row close with the last two, an event stands behind the last double colon, and a
binding needs a character between its brackets. -/
example :
    (found false "[[a[0]]] \x7b\x7bb::c::d\x7d\x7d [[]]e]]".toList).map
        (fun o => (o.extent, o.expression, o.event))
      = [((0, 8), "a[0]".toList, none), ((9, 20), "b::c".toList, some "d".toList),
        ((21, 28), "]]e".toList, none)] := by
  decide +kernel

end Occurrence
end DataBinding
