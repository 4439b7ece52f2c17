/-
# Another one-way binding in the place of one

A one-way binding is taken out of a text and another one is put in its place.  The scan of its own
direction sees the new one where it saw the old one, and nothing else changes but the places behind
it.  The scan of the other direction sees neither, as long as no two equal braces stand next to each
other in them: a two-way binding lies in front, behind, or around.

* `scanFrom_swap_oneWay` : the one-way bindings of both texts.
* `scanFrom_swap_twoWay` : the two-way bindings of both texts.
* `find_swap`            : all bindings of both texts, in order.
-/
import Mathlib.Data.List.Chain
import Mathlib.Data.List.Forall2
import Mathlib.Data.List.TakeWhile
import DataBinding.Proofs.Binding.Scanning

namespace DataBinding

variable {d : Direction} {raw : Bool} {s t u v w x y : Text} {place skip n : Nat}

/-! ## Brackets -/

/-- A text between the brackets of a one-way binding. -/
def bracketed (x : Text) : Text :=
  Direction.oneWay.opening ++ x ++ Direction.oneWay.closing

theorem bracketed_eq (x : Text) : bracketed x = '[' :: '[' :: (x ++ [']', ']']) := rfl

theorem length_bracketed (x : Text) : (bracketed x).length = x.length + 4 := by
  simp [bracketed_eq]

theorem bracketed_injective : Function.Injective bracketed := by
  intro x y h
  simpa [bracketed_eq] using h

/-- The square bracket that opens is no closing bracket. -/
theorem Direction.bracket_ne_closer (d : Direction) : '[' ≠ d.closer := by
  cases d <;> decide

namespace Occurrence

/-! ## Closings -/

theorem closesHere_of_ne {c : Char} (h : c ≠ d.closer) (t : Text) :
    closesHere d (c :: t) = false := by
  cases t <;> simp [closesHere, h]

/-- A character that closes nothing is passed over. -/
theorem untilClosing?_cons {c : Char} (hcloses : closesHere d (c :: t) = false) (hline : c ≠ '\n') :
    untilClosing? d (c :: t) = (untilClosing? d t).map (· + 1) := by
  simp [untilClosing?, hcloses, hline]

/-- Characters that close nothing are passed over. -/
theorem untilClosing?_append (h : ∀ c ∈ s, c ≠ d.closer ∧ c ≠ '\n') (t : Text) :
    untilClosing? d (s ++ t) = (untilClosing? d t).map (· + s.length) := by
  induction s with
  | nil => simp
  | cons c s ih =>
    rw [List.forall_mem_cons] at h
    rw [List.cons_append, untilClosing?_cons (closesHere_of_ne h.1.1 _) h.1.2, ih h.2,
      Option.map_map]
    rfl

/-- A closing further on is seen from each character that ends no line. -/
theorem isSome_untilClosing?_cons {c : Char} (hline : c ≠ '\n')
    (h : (untilClosing? d t).isSome = true) : (untilClosing? d (c :: t)).isSome = true := by
  cases hcloses : closesHere d (c :: t) with
  | true => simp [untilClosing?, hcloses]
  | false => rwa [untilClosing?_cons hcloses hline, Option.isSome_map]

/-- What is passed over ends no line, and a closing follows. -/
theorem closesHere_of_untilClosing? (h : untilClosing? d t = some n) :
    closesHere d (t.drop n) = true ∧ '\n' ∉ t.take n := by
  induction t generalizing n with
  | nil => cases h
  | cons c t ih =>
    rw [untilClosing?] at h
    split at h
    · rename_i hcloses
      obtain rfl := Option.some.inj h
      exact ⟨hcloses, List.not_mem_nil⟩
    · split at h
      · cases h
      · rename_i hline
        obtain ⟨m, hm, rfl⟩ := Option.map_eq_some_iff.mp h
        obtain ⟨hcloses, htake⟩ := ih hm
        refine ⟨hcloses, ?_⟩
        rw [List.take_succ_cons, List.mem_cons, not_or]
        exact ⟨fun heq => hline (by simp [← heq]), htake⟩

/-- Whether a text closes here depends on three characters, and an opening bracket is none that
closes. -/
theorem closesHere_append (hs : s ≠ []) (t t' : Text) :
    closesHere d (s ++ '[' :: t) = closesHere d (s ++ '[' :: t') := by
  match s with
  | [] => exact absurd rfl hs
  | [a] => simp [closesHere, beq_eq_false_iff_ne.mpr d.bracket_ne_closer]
  | [a, b] => rfl
  | a :: b :: c :: s => rfl

/-- Where a text closes at once, two characters of it do. -/
theorem two_le_of_closesHere (h : closesHere d (s ++ '[' :: t) = true) (hs : s ≠ []) :
    2 ≤ s.length := by
  match s with
  | [] => exact absurd rfl hs
  | [a] => simp [closesHere, d.bracket_ne_closer] at h
  | a :: b :: s => exact Nat.le_add_left 2 s.length

/-! ## Skipping -/

/-- The first characters of a skipped stretch change the place alone. -/
theorem scanFrom_skip (d : Direction) (raw : Bool) (k place : Nat) (w v : Text) :
    scanFrom d raw (w.length + k) place (w ++ v) = scanFrom d raw k (place + w.length) v := by
  induction w generalizing place with
  | nil => rw [List.length_nil, Nat.zero_add, List.nil_append, Nat.add_zero]
  | cons c w ih =>
    rw [List.length_cons, Nat.add_right_comm, List.cons_append, scanFrom, ih, Nat.add_assoc,
      Nat.add_comm 1]

/-- A binding lies in the text that it is read from. -/
theorem add_le_of_innerLength? (h : innerLength? d t = some n) : n + 4 ≤ t.length := by
  obtain ⟨inner, rest, rfl, rfl, -⟩ := eq_append_of_innerLength? h
  have hopening : d.opening.length = 2 := rfl
  have hclosing : d.closing.length = 2 := rfl
  simp only [List.length_append]
  omega

/-- A binding that ends in front of a stretch is the same whatever the stretch is, and the scan goes on
behind it. -/
theorem scanFrom_in_front {c : Char} (hread : innerLength? d (c :: (u ++ w)) = some n)
    (hn : n + 3 ≤ u.length) (raw : Bool) (place : Nat) :
    scanFrom d raw 0 place (c :: (u ++ w)) =
      ofInner d raw place ((u.drop 1).take n) :: scanFrom d raw (n + 3) (place + 1) (u ++ w) := by
  have hinner : ((u ++ w).drop 1).take n = (u.drop 1).take n := by
    rw [List.drop_append_of_le_length (by omega),
      List.take_append_of_le_length (by rw [List.length_drop]; omega)]
  rw [scanFrom, hread, ← hinner]

/-- A binding that covers a stretch ends behind its start, and the scan goes on behind both. -/
theorem scanFrom_around {c : Char} {k : Nat} (hread : innerLength? d (c :: (u ++ (w ++ v))) = some n)
    (hn : n + 4 = (c :: u).length + w.length + k) (hw : w ≠ []) (raw : Bool) (place : Nat) :
    ∃ o : Occurrence, o.start = place ∧ place + 1 + u.length < o.stop ∧
      scanFrom d raw 0 place (c :: (u ++ (w ++ v))) =
        o :: scanFrom d raw k (place + 1 + u.length + w.length) v := by
  refine ⟨ofInner d raw place (((u ++ (w ++ v)).drop 1).take n), rfl, ?_, ?_⟩
  · have hle := add_le_of_innerLength? hread
    have hpos := List.length_pos_iff.mpr hw
    rw [List.length_cons] at hn hle
    show _ < place + (((u ++ (w ++ v)).drop 1).take n).length + 4
    rw [List.length_take, List.length_drop]
    omega
  · have hskip := scanFrom_skip d raw k (place + 1) (u ++ w) v
    have hcovered : (u ++ w).length + k = n + 3 := by
      rw [List.length_cons] at hn
      rw [List.length_append]
      omega
    rw [hcovered, List.length_append, List.append_assoc, ← Nat.add_assoc] at hskip
    rw [scanFrom, hread, ← hskip]

/-- No binding starts at a skipped character. -/
theorem le_start_of_mem_scanFrom {o : Occurrence} (h : o ∈ scanFrom d raw skip place t) :
    place + skip ≤ o.start := by
  induction t generalizing skip place with
  | nil => cases skip <;> cases h
  | cons c t ih =>
    cases skip with
    | succ skip =>
      have := ih h
      omega
    | zero =>
      rw [scanFrom] at h
      split at h
      · rcases List.mem_cons.mp h with rfl | h
        · exact Nat.le_refl _
        · have := ih h
          omega
      · have := ih h
        omega

/-- A binding of a text is read where it starts. -/
theorem exists_of_mem_scanFrom {o : Occurrence} (h : o ∈ scanFrom d raw skip place t) :
    ∃ u r n, t = u ++ r ∧ o.start = place + u.length ∧ innerLength? d r = some n ∧
      o = ofInner d raw o.start ((r.drop 2).take n) := by
  induction t generalizing skip place with
  | nil => cases skip <;> cases h
  | cons c t ih =>
    have hbehind : ∀ {k}, o ∈ scanFrom d raw k (place + 1) t →
        ∃ u r n, c :: t = u ++ r ∧ o.start = place + u.length ∧ innerLength? d r = some n ∧
          o = ofInner d raw o.start ((r.drop 2).take n) := by
      intro k hk
      obtain ⟨u, r, n, rfl, hstart, hread, ho⟩ := ih hk
      exact ⟨c :: u, r, n, rfl, by rw [hstart, List.length_cons]; omega, hread, ho⟩
    cases skip with
    | succ skip => exact hbehind h
    | zero =>
      rw [scanFrom] at h
      split at h
      · rename_i n hn
        rcases List.mem_cons.mp h with rfl | h
        · exact ⟨[], c :: t, n, rfl, rfl, hn, rfl⟩
        · exact hbehind h
      · exact hbehind h

/-- A binding of a text is read at its start. -/
theorem innerLength?_of_mem_scanFrom {o : Occurrence} (h : o ∈ scanFrom d raw skip place (u ++ t))
    (hstart : o.start = place + u.length) :
    ∃ n, innerLength? d t = some n ∧ o = ofInner d raw o.start ((t.drop 2).take n) := by
  obtain ⟨u', r, n, hsplit, hstart', hread, ho⟩ := exists_of_mem_scanFrom h
  obtain ⟨rfl, rfl⟩ := List.append_inj hsplit (by omega)
  exact ⟨n, hread, ho⟩

/-- A scan finds the bindings of its direction. -/
theorem direction_of_mem_scanFrom {o : Occurrence} (h : o ∈ scanFrom d raw skip place t) :
    o.direction = d := by
  obtain ⟨u, r, n, -, -, -, ho⟩ := exists_of_mem_scanFrom h
  rw [ho]
  rfl

/-- Between its brackets a binding holds no line end. -/
theorem line_notMem_of_innerLength? (h : innerLength? d t = some n) : '\n' ∉ (t.drop 2).take n := by
  match t with
  | [] => cases h
  | [_] => cases h
  | [_, _] => cases h
  | a :: b :: c :: t =>
    rw [innerLength?] at h
    split at h
    · rename_i hopens
      obtain ⟨m, hm, rfl⟩ := Option.map_eq_some_iff.mp h
      have hc : c ≠ '\n' := by simpa using (Bool.and_eq_true_iff.mp hopens).2
      show '\n' ∉ (c :: t).take (m + 1)
      rw [List.take_succ_cons, List.mem_cons, not_or]
      exact ⟨hc.symm, (closesHere_of_untilClosing? hm).2⟩
    · cases h

/-! ## The own direction -/

/-- **A closing is found in front of a bracket whatever follows the bracket**, unless it lies
behind. -/
theorem untilClosing?_local (hsome : (untilClosing? d ('[' :: t)).isSome = true) (s t' : Text) :
    untilClosing? d (s ++ '[' :: t') = untilClosing? d (s ++ '[' :: t) ∨
      ∃ n, untilClosing? d (s ++ '[' :: t) = some n ∧ s.length ≤ n := by
  -- in front of the bracket both texts close at the same characters, and at the bracket the first one
  -- is known to close
  induction s with
  | nil =>
    obtain ⟨n, hn⟩ := Option.isSome_iff_exists.mp hsome
    exact .inr ⟨n, hn, Nat.zero_le n⟩
  | cons c s ih =>
    have hcloses := closesHere_append (d := d) (List.cons_ne_nil c s) t t'
    rw [List.cons_append, List.cons_append] at hcloses ⊢
    rw [untilClosing?, untilClosing?, hcloses]
    split
    · exact .inl rfl
    · split
      · exact .inl rfl
      · rcases ih with heq | ⟨n, hn, hle⟩
        · exact .inl (by rw [heq])
        · exact .inr ⟨n + 1, by rw [hn]; rfl, Nat.succ_le_succ hle⟩

/-- **A binding in front of another one is read alike whatever stands in the brackets of the other
one**, unless it runs into that. -/
theorem innerLength?_local (hsome : (untilClosing? .oneWay (x ++ [']', ']'] ++ v)).isSome = true)
    (hs : s ≠ []) (y : Text) :
    innerLength? .oneWay (s ++ (bracketed y ++ v)) = innerLength? .oneWay (s ++ (bracketed x ++ v)) ∨
      ∃ n, innerLength? .oneWay (s ++ (bracketed x ++ v)) = some n ∧ s.length < n + 4 := by
  have hbracket := isSome_untilClosing?_cons (c := '[') (by decide) hsome
  simp only [bracketed_eq, List.cons_append]
  -- a binding is read from three characters on, so the brackets may be among the first ones
  match s with
  | [] => exact absurd rfl hs
  | [a] =>
    obtain ⟨n, hn⟩ := Option.isSome_iff_exists.mp hsome
    simp only [List.cons_append, List.nil_append, innerLength?]
    split
    · exact .inr ⟨n + 1, by rw [hn]; rfl, by rw [List.length_singleton]; omega⟩
    · exact .inl rfl
  | [a, b] =>
    obtain ⟨n, hn⟩ := Option.isSome_iff_exists.mp hbracket
    simp only [List.cons_append, List.nil_append, innerLength?]
    split
    · exact .inr ⟨n + 1, by rw [hn]; rfl, by simp only [List.length_cons, List.length_nil]; omega⟩
    · exact .inl rfl
  | a :: b :: c :: s =>
    have hlocal := untilClosing?_local (isSome_untilClosing?_cons (c := '[') (by decide) hbracket) s
      ('[' :: (y ++ [']', ']'] ++ v))
    simp only [List.cons_append, innerLength?]
    split
    · rcases hlocal with heq | ⟨n, hn, hle⟩
      · exact .inl (by rw [heq])
      · exact .inr ⟨n + 1, by rw [hn]; rfl, by simp only [List.length_cons]; omega⟩
    · exact .inl rfl

/-- What may stand between the brackets of a new one-way binding. -/
structure Fits (y : Text) : Prop where
  nonempty : y ≠ []
  bracket : ']' ∉ y
  line : '\n' ∉ y

/-- A new binding ends at its own brackets. -/
theorem Fits.innerLength? (h : Fits y) (hv : v.head? ≠ some ']') :
    innerLength? .oneWay (bracketed y ++ v) = some y.length := by
  obtain ⟨hne, hbracket, hline⟩ := h
  cases y with
  | nil => exact absurd rfl hne
  | cons c y =>
    rw [List.mem_cons, not_or] at hbracket hline
    have hinner : untilClosing? .oneWay (y ++ ([']', ']'] ++ v)) = some y.length := by
      rw [untilClosing?_append]
      · have hcloses : closesHere .oneWay ([']', ']'] ++ v) = true := by
          simp [closesHere, Direction.closer, hv]
        rw [List.cons_append, untilClosing?, ← List.cons_append, hcloses]
        simp
      · intro e he
        constructor
        · rintro rfl
          exact hbracket.2 he
        · rintro rfl
          exact hline.2 he
    simp [bracketed_eq, Occurrence.innerLength?, Direction.opener, Ne.symm hline.1] at hinner ⊢
    simp [hinner]

/-- The first binding of a text with its brackets. -/
theorem scanFrom_bracketed (h : innerLength? .oneWay (bracketed x ++ v) = some x.length)
    (raw : Bool) (place : Nat) :
    scanFrom .oneWay raw 0 place (bracketed x ++ v) =
      ofInner .oneWay raw place x ::
        scanFrom .oneWay raw 0 (place + (bracketed x).length) v := by
  have hskip := scanFrom_skip .oneWay raw 0 (place + 1) ('[' :: (x ++ [']', ']'])) v
  have hlength : ('[' :: (x ++ [']', ']'])).length + 0 = x.length + 3 := by simp
  have hplace : place + 1 + ('[' :: (x ++ [']', ']'])).length = place + (bracketed x).length := by
    rw [length_bracketed]
    simp
    omega
  rw [hlength, hplace] at hskip
  rw [bracketed_eq, List.cons_append] at h ⊢
  rw [scanFrom, h]
  simp only
  rw [hskip]
  congr 2
  simp

/-- Behind the brackets of a binding no further one stands. -/
theorem head?_of_innerLength? (h : innerLength? .oneWay (bracketed x ++ v) = some x.length) :
    v.head? ≠ some ']' ∧ (untilClosing? .oneWay (x ++ [']', ']'] ++ v)).isSome = true := by
  cases x with
  | nil =>
    obtain ⟨inner, rest, -, hlength, hne⟩ := eq_append_of_innerLength? h
    exact absurd (List.length_eq_zero_iff.mp hlength) hne
  | cons c x =>
    simp only [bracketed_eq, List.cons_append, innerLength?] at h
    split at h
    · rename_i hopens
      have hline : c ≠ '\n' := by simpa using (Bool.and_eq_true_iff.mp hopens).2
      obtain ⟨n, hn, hlength⟩ := Option.map_eq_some_iff.mp h
      obtain rfl : n = x.length := Nat.succ.inj hlength
      refine ⟨?_, isSome_untilClosing?_cons hline (Option.isSome_of_eq_some hn)⟩
      have hcloses := (closesHere_of_untilClosing? hn).1
      rw [List.append_assoc, List.drop_left] at hcloses
      simpa [closesHere, Direction.closer] using hcloses
    · cases h

/-- **The one-way bindings of a text in which one of them is replaced** by another one. -/
theorem scanFrom_swap_oneWay (hy : Fits y) {o : Occurrence}
    (hmem : o ∈ scanFrom .oneWay raw skip place (u ++ (bracketed x ++ v)))
    (hstart : o.start = place + u.length) (hwritten : o.written = bracketed x) :
    ∃ front,
      scanFrom .oneWay raw skip place (u ++ (bracketed x ++ v)) =
        front ++ ofInner .oneWay raw (place + u.length) x ::
          scanFrom .oneWay raw 0 (place + u.length + (bracketed x).length) v ∧
      scanFrom .oneWay raw skip place (u ++ (bracketed y ++ v)) =
        front ++ ofInner .oneWay raw (place + u.length) y ::
          scanFrom .oneWay raw 0 (place + u.length + (bracketed y).length) v ∧
      ∀ o' ∈ front, o'.start < place + u.length := by
  have hread : innerLength? .oneWay (bracketed x ++ v) = some x.length := by
    obtain ⟨n, hn, ho⟩ := innerLength?_of_mem_scanFrom hmem hstart
    have hinner := bracketed_injective (hwritten.symm.trans (congrArg Occurrence.written ho))
    have hle := add_le_of_innerLength? hn
    rw [hn, hinner, List.length_take, List.length_drop]
    congr 1
    omega
  obtain ⟨hhead, hsome⟩ := head?_of_innerLength? hread
  clear hwritten
  induction u generalizing skip place with
  | nil =>
    have hle := le_start_of_mem_scanFrom hmem
    obtain rfl : skip = 0 := by
      rw [List.length_nil] at hstart
      omega
    exact ⟨[], scanFrom_bracketed hread raw place, scanFrom_bracketed (hy.innerLength? hhead) raw place,
      fun _ h => absurd h List.not_mem_nil⟩
  | cons c u ih =>
    have hplace : place + (c :: u).length = place + 1 + u.length := by
      rw [List.length_cons]
      omega
    rw [hplace] at hstart ⊢
    rw [List.cons_append] at hmem
    rw [List.cons_append, List.cons_append]
    cases skip with
    | succ skip =>
      rw [scanFrom] at hmem
      rw [scanFrom, scanFrom]
      exact ih hmem hstart
    | zero =>
      rw [scanFrom] at hmem
      have hlocal := innerLength?_local (s := c :: u) hsome (List.cons_ne_nil c u) y
      rw [List.cons_append, List.cons_append] at hlocal
      cases hn : innerLength? .oneWay (c :: (u ++ (bracketed x ++ v))) with
      | none =>
        rw [hn] at hmem hlocal
        rcases hlocal with heq | ⟨_, h, _⟩
        · rw [scanFrom, scanFrom, hn, heq]
          exact ih hmem hstart
        · cases h
      | some n =>
        rw [hn] at hmem hlocal
        -- a binding that runs into the brackets would hide the one that stands there
        have hmem' := (List.mem_cons.mp hmem).resolve_left fun heq => by
          have : o.start = place := congrArg Occurrence.start heq
          omega
        have hle := le_start_of_mem_scanFrom hmem'
        have heq : innerLength? .oneWay (c :: (u ++ (bracketed y ++ v))) = some n := by
          rcases hlocal with heq | ⟨m, hm, hlt⟩
          · exact heq
          · obtain rfl := Option.some.inj hm
            rw [List.length_cons] at hlt
            omega
        obtain ⟨front, hold, hnew, hfront⟩ := ih hmem' hstart
        have hplace : place < place + 1 + u.length := by omega
        rw [scanFrom_in_front hn (by omega), scanFrom_in_front heq (by omega)]
        exact ⟨_ :: front, congrArg (List.cons _) hold, congrArg (List.cons _) hnew,
          List.forall_mem_cons.mpr ⟨hplace, hfront⟩⟩

/-! ## The other direction -/

/-- Two characters that are no pair of equal braces. -/
def Apart (c e : Char) : Prop :=
  c = e → c ≠ '\x7b' ∧ c ≠ '\x7d'

/-- A stretch in which no two-way binding starts or ends: no two equal braces stand next to each other
in it, it has no brace at its end, and it ends no line. -/
structure Inert (w : Text) : Prop where
  apart : w.IsChain Apart
  last : ∀ c ∈ w.getLast?, c ≠ '\x7b' ∧ c ≠ '\x7d'
  line : '\n' ∉ w

/-- A stretch without its first character. -/
theorem Inert.tail {c : Char} (h : Inert (c :: w)) : Inert w where
  apart := h.apart.tail
  last := fun e he => h.last e (by cases w <;> simp_all)
  line := fun hmem => h.line (List.mem_cons_of_mem c hmem)

/-- The first character of a stretch is no brace with an equal one behind it. -/
theorem Inert.head {c : Char} (h : Inert (c :: w)) (v : Text) :
    ∀ e ∈ (w ++ v).head?, c ≠ '\x7b' ∧ c ≠ '\x7d' ∨ c ≠ e := by
  intro e he
  cases w with
  | nil => exact .inl (h.last c rfl)
  | cons b w =>
    obtain rfl := Option.some.inj he
    by_cases heq : c = b
    · exact .inl ((List.isChain_cons_cons.mp h.apart).1 heq)
    · exact .inr heq

/-- No two-way binding ends in a stretch. -/
theorem Inert.untilClosing? (h : Inert w) (v : Text) :
    untilClosing? .twoWay (w ++ v) = (untilClosing? .twoWay v).map (· + w.length) := by
  induction w with
  | nil => simp
  | cons c w ih =>
    have hcloses : closesHere .twoWay (c :: (w ++ v)) = false := by
      have hhead := h.head v
      cases htail : w ++ v with
      | nil => rfl
      | cons e r =>
        rw [htail] at hhead
        rcases hhead e rfl with ⟨-, hclose⟩ | hne
        · exact closesHere_of_ne hclose _
        · rw [Bool.eq_false_iff]
          intro hcloses
          simp only [closesHere, Bool.and_eq_true, beq_iff_eq] at hcloses
          exact hne (hcloses.1.1.trans hcloses.1.2.symm)
    have hline : c ≠ '\n' := fun heq => h.line (heq ▸ List.mem_cons_self)
    rw [List.cons_append, untilClosing?_cons hcloses hline, ih h.tail, Option.map_map]
    rfl

/-- No two-way binding starts in a stretch. -/
theorem Inert.scanFrom (h : Inert w) (raw : Bool) (place : Nat) (v : Text) :
    scanFrom .twoWay raw 0 place (w ++ v) = scanFrom .twoWay raw 0 (place + w.length) v := by
  induction w generalizing place with
  | nil => rfl
  | cons c w ih =>
    have hread : innerLength? .twoWay (c :: (w ++ v)) = none := by
      have hhead := h.head v
      cases htail : w ++ v with
      | nil => rfl
      | cons e r =>
        rw [htail] at hhead
        cases r with
        | nil => rfl
        | cons b r =>
          rw [innerLength?, if_neg]
          simp only [Bool.and_eq_true, beq_iff_eq]
          rintro ⟨⟨hc, he⟩, -⟩
          rcases hhead e rfl with ⟨hopen, -⟩ | hne
          · exact hopen hc
          · exact hne (hc.trans he.symm)
    rw [List.cons_append, Occurrence.scanFrom, hread]
    simp only
    rw [ih h.tail, List.length_cons, Nat.add_assoc, Nat.add_comm 1]

/-- Two bindings in front of a place are the same, or both run beyond it from the same start. -/
def AlikeUpTo (limit : Nat) (o o' : Occurrence) : Prop :=
  o = o' ∨ o.start = o'.start ∧ limit < o.stop ∧ limit < o'.stop

theorem AlikeUpTo.start_eq {limit : Nat} {o o' : Occurrence} (h : AlikeUpTo limit o o') :
    o'.start = o.start := by
  rcases h with rfl | ⟨hstart, -⟩
  · rfl
  · exact hstart.symm

section Inert

variable (hx : Inert (bracketed x)) (hy : Inert (bracketed y))
include hx hy

/-- **A two-way binding closes in front of the brackets, or behind them** as far as it did. -/
theorem untilClosing?_swap (s v : Text) :
    (untilClosing? .twoWay (s ++ (bracketed y ++ v)) =
        untilClosing? .twoWay (s ++ (bracketed x ++ v)) ∧
      ∀ n ∈ untilClosing? .twoWay (s ++ (bracketed x ++ v)), n + 2 ≤ s.length) ∨
    ∃ k, untilClosing? .twoWay (s ++ (bracketed x ++ v)) =
        some (s.length + (bracketed x).length + k) ∧
      untilClosing? .twoWay (s ++ (bracketed y ++ v)) =
        some (s.length + (bracketed y).length + k) := by
  induction s with
  | nil =>
    rw [List.nil_append, List.nil_append, hx.untilClosing?, hy.untilClosing?]
    cases hv : untilClosing? .twoWay v with
    | none => exact .inl ⟨rfl, fun _ h => by cases h⟩
    | some k =>
      refine .inr ⟨k, ?_, ?_⟩
      · rw [Option.map_some, List.length_nil, Nat.zero_add, Nat.add_comm]
      · rw [Option.map_some, List.length_nil, Nat.zero_add, Nat.add_comm]
  | cons c s ih =>
    have hcloses : closesHere .twoWay (c :: (s ++ (bracketed y ++ v))) =
        closesHere .twoWay (c :: (s ++ (bracketed x ++ v))) :=
      closesHere_append (List.cons_ne_nil c s) _ _
    rw [List.cons_append, List.cons_append, Occurrence.untilClosing?, Occurrence.untilClosing?,
      hcloses]
    split
    · -- brackets that close before the binding close it in both texts
      rename_i hcloses
      refine .inl ⟨rfl, fun n hn => ?_⟩
      obtain rfl := Option.some.inj hn
      have := two_le_of_closesHere (s := c :: s) hcloses (List.cons_ne_nil c s)
      omega
    · split
      · exact .inl ⟨rfl, fun _ h => by cases h⟩
      · rcases ih with ⟨heq, hle⟩ | ⟨k, hold, hnew⟩
        · refine .inl ⟨by rw [heq], fun n hn => ?_⟩
          obtain ⟨m, hm, rfl⟩ := Option.map_eq_some_iff.mp hn
          have := hle m hm
          rw [List.length_cons]
          omega
        · refine .inr ⟨k, ?_, ?_⟩
          · rw [hold, Option.map_some, List.length_cons]
            congr 1
            omega
          · rw [hnew, Option.map_some, List.length_cons]
            congr 1
            omega

/-- **A two-way binding in front of the brackets is read alike, or covers them** and ends as far
behind them as it did. -/
theorem innerLength?_swap (hs : s ≠ []) (v : Text) :
    (innerLength? .twoWay (s ++ (bracketed y ++ v)) =
        innerLength? .twoWay (s ++ (bracketed x ++ v)) ∧
      ∀ n ∈ innerLength? .twoWay (s ++ (bracketed x ++ v)), n + 4 ≤ s.length) ∨
    ∃ n n' k, innerLength? .twoWay (s ++ (bracketed x ++ v)) = some n ∧
      innerLength? .twoWay (s ++ (bracketed y ++ v)) = some n' ∧
      n + 4 = s.length + (bracketed x).length + k ∧
      n' + 4 = s.length + (bracketed y).length + k := by
  match s with
  | [] => exact absurd rfl hs
  | [a] =>
    simp [bracketed_eq, innerLength?, Direction.opener]
  | [a, b] =>
    -- the first bracket is a character of the binding, and the others follow
    have hbehind : ∀ z, Inert (bracketed z) → untilClosing? .twoWay ('[' :: (z ++ [']', ']'] ++ v)) =
        (untilClosing? .twoWay v).map (· + (z.length + 3)) := fun z hz =>
      (hz.tail.untilClosing? v).trans (by simp [Direction.closing])
    simp only [bracketed_eq, List.cons_append, List.nil_append, innerLength?]
    split
    · rw [hbehind x hx, hbehind y hy]
      cases hv : untilClosing? .twoWay v with
      | none => exact .inl ⟨rfl, fun _ h => by cases h⟩
      | some k =>
        refine .inr ⟨_, _, k + 2, rfl, rfl, ?_, ?_⟩
        · simp only [List.length_cons, List.length_append, List.length_nil]
          omega
        · simp only [List.length_cons, List.length_append, List.length_nil]
          omega
    · exact .inl ⟨rfl, fun _ h => by cases h⟩
  | a :: b :: c :: s =>
    simp only [List.cons_append, innerLength?]
    split
    · rcases untilClosing?_swap hx hy s v with ⟨heq, hle⟩ | ⟨k, hold, hnew⟩
      · refine .inl ⟨by rw [heq], fun n hn => ?_⟩
        obtain ⟨m, hm, rfl⟩ := Option.map_eq_some_iff.mp hn
        have := hle m hm
        simp only [List.length_cons]
        omega
      · refine .inr ⟨_, _, k + 2, by rw [hold]; rfl, by rw [hnew]; rfl, ?_, ?_⟩
        · simp only [List.length_cons]
          omega
        · simp only [List.length_cons]
          omega
    · exact .inl ⟨rfl, fun _ h => by cases h⟩

/-- **The two-way bindings of a text in which a one-way binding is replaced** by another one. -/
theorem scanFrom_swap_twoWay (raw : Bool) (u v : Text) (place : Nat) (hskip : skip ≤ u.length) :
    ∃ front front' k,
      scanFrom .twoWay raw skip place (u ++ (bracketed x ++ v)) =
        front ++ scanFrom .twoWay raw k (place + u.length + (bracketed x).length) v ∧
      scanFrom .twoWay raw skip place (u ++ (bracketed y ++ v)) =
        front' ++ scanFrom .twoWay raw k (place + u.length + (bracketed y).length) v ∧
      List.Forall₂ (AlikeUpTo (place + u.length)) front front' ∧
      (∀ o ∈ front, o.start < place + u.length) ∧ ∀ o ∈ front', o.start < place + u.length := by
  induction u generalizing skip place with
  | nil =>
    obtain rfl : skip = 0 := Nat.le_zero.mp hskip
    exact ⟨[], [], 0, hx.scanFrom raw place v, hy.scanFrom raw place v, .nil,
      fun _ h => absurd h List.not_mem_nil, fun _ h => absurd h List.not_mem_nil⟩
  | cons c u ih =>
    have hplace : place + (c :: u).length = place + 1 + u.length := by
      rw [List.length_cons]
      omega
    have hstart : place < place + 1 + u.length := by omega
    rw [hplace]
    rw [List.length_cons] at hskip
    cases skip with
    | succ skip =>
      obtain ⟨front, front', k, hold, hnew, hfront, hbefore⟩ :=
        ih (place + 1) (Nat.le_of_succ_le_succ hskip)
      exact ⟨front, front', k, hold, hnew, hfront, hbefore⟩
    | zero =>
      have hswap := innerLength?_swap hx hy (List.cons_ne_nil c u) v
      rw [List.cons_append, List.cons_append] at hswap ⊢
      rcases hswap with ⟨heq, hle⟩ | ⟨n, n', k, hn, hn', hend, hend'⟩
      · -- the binding ends in front of the brackets, and the scan goes on in front of them
        cases hn : innerLength? .twoWay (c :: (u ++ (bracketed x ++ v))) with
        | none =>
          rw [scanFrom, scanFrom, heq, hn]
          exact ih (place + 1) (Nat.zero_le _)
        | some n =>
          have hlength := hle n hn
          rw [List.length_cons] at hlength
          have hinside : n + 3 ≤ u.length := by omega
          obtain ⟨front, front', k, hold, hnew, hfront, hbefore, hbefore'⟩ := ih (place + 1) hinside
          rw [scanFrom_in_front hn hinside, scanFrom_in_front (heq.trans hn) hinside]
          exact ⟨_ :: front, _ :: front', k, congrArg (List.cons _) hold, congrArg (List.cons _) hnew,
            .cons (.inl rfl) hfront, List.forall_mem_cons.mpr ⟨hstart, hbefore⟩,
            List.forall_mem_cons.mpr ⟨hstart, hbefore'⟩⟩
      · -- the binding covers the brackets, and what it covers behind them is skipped in both texts
        have hne : ∀ z, bracketed z ≠ [] := fun z => by simp [bracketed_eq]
        obtain ⟨o, ho, hstop, hold⟩ := scanFrom_around hn hend (hne x) raw place
        obtain ⟨o', ho', hstop', hnew⟩ := scanFrom_around hn' hend' (hne y) raw place
        refine ⟨[o], [o'], k, hold, hnew, .cons (.inr ⟨ho.trans ho'.symm, hstop, hstop'⟩) .nil, ?_, ?_⟩
        · exact List.forall_mem_singleton.mpr (ho ▸ hstart)
        · exact List.forall_mem_singleton.mpr (ho' ▸ hstart)

end Inert

/-! ## Further to the right -/

/-- A binding of a text that stands elsewhere: as far behind `q` as the other one behind `p`. -/
structure Moved (p q : Nat) (o o' : Occurrence) : Prop where
  direction : o'.direction = o.direction
  written : o'.written = o.written
  expression : o'.expression = o.expression
  start : o'.start + p = o.start + q
  stop : o'.stop + p = o.stop + q

/-- The same distance is seen from two places further on. -/
theorem Moved.further {p q : Nat} {o o' : Occurrence} (h : Moved p q o o') (k : Nat) :
    Moved (p + k) (q + k) o o' :=
  ⟨h.direction, h.written, h.expression, by have := h.start; omega, by have := h.stop; omega⟩

theorem Moved.trans {p q r : Nat} {o o' o'' : Occurrence} (h : Moved p q o o')
    (h' : Moved q r o' o'') : Moved p r o o'' where
  direction := h'.direction.trans h.direction
  written := h'.written.trans h.written
  expression := h'.expression.trans h.expression
  start := by
    have := h.start
    have := h'.start
    omega
  stop := by
    have := h.stop
    have := h'.stop
    omega

/-- Bindings that are moved twice. -/
theorem moved_trans {p q r : Nat} {os os' os'' : List Occurrence} (h : List.Forall₂ (Moved p q) os os')
    (h' : List.Forall₂ (Moved q r) os' os'') : List.Forall₂ (Moved p r) os os'' := by
  induction h generalizing os'' with
  | nil =>
    cases h'
    exact .nil
  | cons ho _ ih =>
    cases h' with
    | cons ho' hrest => exact .cons (ho.trans ho') (ih hrest)

/-- The bindings of a text that stands elsewhere. -/
theorem scanFrom_moved (d : Direction) (raw : Bool) (skip p q : Nat) (t : Text) :
    List.Forall₂ (Moved p q) (scanFrom d raw skip p t) (scanFrom d raw skip q t) := by
  suffices h : ∀ i, List.Forall₂ (Moved p q) (scanFrom d raw skip (p + i) t)
      (scanFrom d raw skip (q + i) t) from h 0
  induction t generalizing skip with
  | nil =>
    intro i
    cases skip <;> exact .nil
  | cons c t ih =>
    intro i
    cases skip with
    | succ skip => exact ih skip (i + 1)
    | zero =>
      rw [scanFrom, scanFrom]
      split
      · rename_i n _
        refine .cons ⟨rfl, rfl, rfl, ?_, ?_⟩ (ih _ (i + 1))
        · show q + i + p = p + i + q
          omega
        · show q + i + _ + 4 + p = p + i + _ + 4 + q
          omega
      · exact ih _ (i + 1)

/-! ## Both directions -/

/-- Lists that are alike are split alike at the end of a run. -/
theorem span_forall₂ {R : Occurrence → Occurrence → Prop} {p p' : Occurrence → Bool}
    (hp : ∀ {e e'}, R e e' → p' e' = p e) {os os' : List Occurrence} (h : List.Forall₂ R os os') :
    List.Forall₂ R (os.takeWhile p) (os'.takeWhile p') ∧
      List.Forall₂ R (os.dropWhile p) (os'.dropWhile p') := by
  induction h with
  | nil => exact ⟨.nil, .nil⟩
  | @cons e e' os os' he hrest ih =>
    simp only [List.takeWhile_cons, List.dropWhile_cons, hp he]
    cases p e with
    | true => exact ⟨.cons he ih.1, ih.2⟩
    | false => exact ⟨.nil, .cons he hrest⟩

/-- Bindings that start in the same order are joined alike. -/
theorem merge_forall₂ {R : Occurrence → Occurrence → Prop}
    (hR : ∀ {o o' e e'}, R o o' → R e e' → (e'.start < o'.start ↔ e.start < o.start))
    {os os' others others' : List Occurrence}
    (h : List.Forall₂ R os os') (hothers : List.Forall₂ R others others') :
    List.Forall₂ R (merge os others) (merge os' others') := by
  induction h generalizing others others' with
  | nil => exact hothers
  | @cons o o' os os' ho _ ih =>
    obtain ⟨hbefore, hbehind⟩ := span_forall₂ (fun he => decide_eq_decide.mpr (hR ho he)) hothers
    rw [merge, merge]
    exact List.rel_append hbefore (.cons ho (ih hbehind))

/-- A run ends in front of a list of which nothing belongs to it. -/
theorem span_append_of_none {α : Type} {p : α → Bool} {l l' : List α}
    (h : ∀ a ∈ l', p a = false) :
    (l ++ l').takeWhile p = l.takeWhile p ∧ (l ++ l').dropWhile p = l.dropWhile p ++ l' := by
  have hl' : l'.takeWhile p = [] ∧ l'.dropWhile p = l' := by
    cases l' with
    | nil => exact ⟨rfl, rfl⟩
    | cons a l' => simp [h a List.mem_cons_self]
  rw [List.takeWhile_append, List.dropWhile_append, hl'.1, hl'.2]
  constructor
  · split
    · rename_i hall
      rw [List.append_nil]
      exact ((List.takeWhile_prefix p).eq_of_length hall).symm
    · rfl
  · split
    · rename_i hnone
      rw [List.isEmpty_iff.mp hnone, List.nil_append]
    · rfl

/-- Two lists of bindings are joined in front of a binding and behind it. -/
theorem merge_append_cons {front back others others' : List Occurrence} {o : Occurrence}
    (hfront : ∀ e ∈ front, e.start < o.start) (hothers : ∀ e ∈ others, e.start < o.start)
    (hothers' : ∀ e ∈ others', ¬ e.start < o.start) :
    merge (front ++ o :: back) (others ++ others') = merge front others ++ o :: merge back others' := by
  -- what starts behind the binding starts behind all that stand in front of it
  have hlate : ∀ n ≤ o.start, ∀ b ∈ others', decide (b.start < n) = false := fun n hn b hb =>
    decide_eq_false fun hlt => hothers' b hb (Nat.lt_of_lt_of_le hlt hn)
  induction front generalizing others with
  | nil =>
    obtain ⟨htake, hdrop⟩ := span_append_of_none (l := others) (hlate o.start (Nat.le_refl _))
    rw [List.nil_append, merge, merge, htake, hdrop,
      List.takeWhile_eq_self_iff.mpr (by simpa using hothers),
      List.dropWhile_eq_nil_iff.mpr (by simpa using hothers), List.nil_append]
  | cons e front ih =>
    rw [List.forall_mem_cons] at hfront
    obtain ⟨htake, hdrop⟩ :=
      span_append_of_none (l := others) (hlate e.start (Nat.le_of_lt hfront.1))
    have hrest : ∀ b ∈ others.dropWhile (·.start < e.start), b.start < o.start := fun b hb =>
      hothers b (List.dropWhile_subset _ hb)
    rw [List.cons_append, merge, merge, htake, hdrop, ih hfront.2 hrest]
    simp

/-- **The bindings of a text in which a one-way binding is replaced** by another one: in front of it
they are the same, or run into it, and behind it they are the same further to the right. -/
theorem find_swap (hx : Inert (bracketed x)) (hy : Inert (bracketed y)) (hfits : Fits y)
    {o : Occurrence} (hmem : o ∈ found raw (u ++ (bracketed x ++ v))) (hstart : o.start = u.length)
    (hone : o.direction = .oneWay) (hwritten : o.written = bracketed x) :
    ∃ front front' back back',
      found raw (u ++ (bracketed x ++ v)) = front ++ ofInner .oneWay raw u.length x :: back ∧
      found raw (u ++ (bracketed y ++ v)) = front' ++ ofInner .oneWay raw u.length y :: back' ∧
      List.Forall₂ (AlikeUpTo u.length) front front' ∧ (∀ e ∈ front, e.start < u.length) ∧
      List.Forall₂ (Moved (u.length + (bracketed x).length) (u.length + (bracketed y).length))
        back back' ∧
      ∀ e ∈ back, u.length + (bracketed x).length ≤ e.start := by
  have hmem' : o ∈ scanFrom .oneWay raw 0 0 (u ++ (bracketed x ++ v)) := by
    refine (mem_merge.mp hmem).resolve_right fun h => ?_
    cases hone.symm.trans (direction_of_mem_scanFrom h)
  obtain ⟨front, hold, hnew, hfront⟩ :=
    scanFrom_swap_oneWay hfits hmem' (hstart.trans (Nat.zero_add _).symm) hwritten
  obtain ⟨others, others', k, hothers, hothers', hforall, hbefore⟩ :=
    scanFrom_swap_twoWay hx hy raw u v 0 (Nat.zero_le u.length)
  rw [Nat.zero_add] at hold hnew hfront hothers hothers' hforall hbefore
  have hbehind : ∀ d k p, ∀ e ∈ scanFrom d raw k (u.length + p) v, u.length + p ≤ e.start :=
    fun d k p e he => Nat.le_trans (Nat.le_add_right _ k) (le_start_of_mem_scanFrom he)
  have hlate : ∀ k p, ∀ e ∈ scanFrom .twoWay raw k (u.length + p) v, ¬ e.start < u.length := by
    intro k p e he
    have := hbehind _ _ _ e he
    omega
  -- both scans fall apart at the start of the replaced binding, and so do their joined bindings
  refine ⟨merge front others, merge front others', _, _,
    (congrArg₂ merge hold hothers).trans (merge_append_cons hfront hbefore.1 (hlate k _)),
    (congrArg₂ merge hnew hothers').trans (merge_append_cons hfront hbefore.2 (hlate k _)),
    ?_, ?_, ?_, ?_⟩
  · refine merge_forall₂ (fun ho he => ?_) (List.forall₂_same.mpr fun e _ => .inl rfl) hforall
    rw [ho.start_eq, he.start_eq]
  · exact fun e he => (mem_merge.mp he).elim (hfront e) (hbefore.1 e)
  · refine merge_forall₂ (fun ho he => ?_) (scanFrom_moved ..) (scanFrom_moved ..)
    have := ho.start
    have := he.start
    omega
  · exact fun e he => (mem_merge.mp he).elim (hbehind _ _ _ e) (hbehind _ _ _ e)

end Occurrence
end DataBinding
