/-
# Parentheses and the height of expressions

Parentheses around an accepted text leave the expression as it is, further to the right, and each pair
adds one level of nesting.  So an accepted text stands some pairs, up to a number that its own levels
leave, and one more pair makes the text too deep.  Every level that an expression has is counted, and
accepted expressions are therefore of bounded height, however long their texts are.

* `read?_nested`   : a text in many pairs of parentheses.
* `Reads.counted`  : an operand counts the levels of its expression.
* `height_of_parse` : the height of an accepted expression.
* `parse_nested`   : the pairs of parentheses that an accepted text stands.
-/
import DataBinding.Proofs.Expression.Nesting
import DataBinding.Proofs.Expression.Extents

namespace DataBinding

/-! ## Heights -/

namespace Expr

mutual

/-- The number of constructs on the longest way down an expression. -/
def height : Expr → Nat
  | identifier _ _ | this _ | literal _ _ => 1
  | member _ object _ _ => height object + 1
  | index _ object position _ => max (height object) (height position) + 1
  | call _ callee arguments => max (height callee) (heightAll arguments) + 1
  | unary _ _ argument => height argument + 1
  | binary _ _ left right => max (height left) (height right) + 1
  | conditional _ test consequent alternate =>
    max (height test) (max (height consequent) (height alternate)) + 1
  | array _ elements => heightAll elements + 1

/-- The height of the highest one of several expressions. -/
def heightAll : List Expr → Nat
  | [] => 0
  | e :: es => max (height e) (heightAll es)

end

theorem heightAll_le {n : Nat} {es : List Expr} (h : ∀ e ∈ es, height e ≤ n) : heightAll es ≤ n := by
  induction es with
  | nil => exact Nat.zero_le n
  | cons e es ih =>
    exact max_le (h e (List.mem_cons_self ..)) (ih fun e he => h e (List.mem_cons_of_mem _ he))

/-- An expression is one higher than its parts. -/
theorem height_le_of_parts {n : Nat} {e : Expr} (h : ∀ part ∈ e.parts, height part ≤ n) :
    height e ≤ n + 1 := by
  cases e with
  | identifier | this | literal => exact Nat.le_add_left ..
  | call s callee arguments =>
    obtain ⟨hcallee, harguments⟩ := List.forall_mem_cons.mp h
    exact Nat.succ_le_succ (max_le hcallee (heightAll_le harguments))
  | array s elements => exact Nat.succ_le_succ (heightAll_le h)
  | _ =>
    simp only [parts, List.forall_mem_cons] at h
    simp only [height]
    omega

/-! ## Shifting twice -/

mutual

theorem shift_zero : ∀ e : Expr, shift 0 e = e
  | identifier _ _ | this _ | literal _ _ => rfl
  | member s object property optional =>
    congrArg (member s · property optional) (shift_zero object)
  | index s object position optional =>
    congrArg₂ (index s · · optional) (shift_zero object) (shift_zero position)
  | call s callee arguments => congrArg₂ (call s) (shift_zero callee) (shiftAll_zero arguments)
  | unary s op argument => congrArg (unary s op) (shift_zero argument)
  | binary s op left right => congrArg₂ (binary s op) (shift_zero left) (shift_zero right)
  | conditional s test consequent alternate => by
    rw [shift, shift_zero test, shift_zero consequent, shift_zero alternate]
    rfl
  | array s elements => congrArg (array s) (shiftAll_zero elements)

theorem shiftAll_zero : ∀ es : List Expr, shiftAll 0 es = es
  | [] => rfl
  | e :: es => congrArg₂ List.cons (shift_zero e) (shiftAll_zero es)

end

theorem span_shift_shift (j k : Nat) (s : Span) : (s.shift j).shift k = s.shift (j + k) := by
  rw [Span.shift, Span.shift, Span.shift, Nat.add_assoc, Nat.add_assoc]

mutual

/-- An expression that is read later twice is read later by both distances. -/
theorem shift_shift (j k : Nat) : ∀ e : Expr, shift k (shift j e) = shift (j + k) e
  | identifier s _ | this s | literal s _ => by
    simp only [shift, span_shift_shift]
  | member _ object _ _ | unary _ _ object => by
    simp only [shift, span_shift_shift, shift_shift j k object]
  | index _ left right _ | binary _ _ left right => by
    simp only [shift, span_shift_shift, shift_shift j k left, shift_shift j k right]
  | call _ callee arguments => by
    simp only [shift, span_shift_shift, shift_shift j k callee, shiftAll_shiftAll j k arguments]
  | conditional _ test consequent alternate => by
    simp only [shift, span_shift_shift, shift_shift j k test, shift_shift j k consequent,
      shift_shift j k alternate]
  | array _ elements => by
    simp only [shift, span_shift_shift, shiftAll_shiftAll j k elements]

theorem shiftAll_shiftAll (j k : Nat) :
    ∀ es : List Expr, shiftAll k (shiftAll j es) = shiftAll (j + k) es
  | [] => rfl
  | e :: es => congrArg₂ List.cons (shift_shift j k e) (shiftAll_shiftAll j k es)

end

end Expr

namespace Expression

variable {t : Text}

/-! ## Levels of operands -/

/-- The levels of a construct count those of its parts. -/
theorem levels_lt_above {parts : List Operand} : ∀ part ∈ parts, part.levels < Operand.above parts := by
  have hfold : ∀ (parts : List Operand) (n : Nat),
      n ≤ parts.foldl (fun n part => max n part.levels) n ∧
        ∀ part ∈ parts, part.levels ≤ parts.foldl (fun n part => max n part.levels) n := by
    intro parts
    induction parts with
    | nil => exact fun n => ⟨Nat.le_refl n, fun _ h => nomatch h⟩
    | cons first parts ih =>
      intro n
      obtain ⟨hle, hall⟩ := ih (max n first.levels)
      refine ⟨(le_max_left ..).trans hle, fun part hpart => ?_⟩
      rcases List.mem_cons.mp hpart with rfl | hpart
      · exact (le_max_right ..).trans hle
      · exact hall part hpart
  exact fun part hpart => Nat.lt_succ_of_le ((hfold parts 0).2 part hpart)

namespace Operand

/-- The operand counts all levels of its expression. -/
def Counted (o : Operand) : Prop :=
  o.expr.height ≤ o.levels + 1

/-- A construct counts its levels if its parts do. -/
theorem counted_compound {e : Expr} {operands : List Operand} (h : ∀ o ∈ operands, Counted o)
    (hparts : e.parts = operands.map (·.expr)) : Counted (compound e operands) := by
  refine Expr.height_le_of_parts fun part hpart => ?_
  change part ∈ e.parts at hpart
  rw [hparts] at hpart
  obtain ⟨o, ho, rfl⟩ := List.mem_map.mp hpart
  exact (h o ho).trans (levels_lt_above o ho)

/-- Parentheses count as a level of their own. -/
theorem Counted.parenthesized {o : Operand} (h : Counted o) (s : Span) :
    Counted (.parenthesized s o) :=
  Nat.le_succ_of_le h

end Operand

/-- The operands that a started construct has taken. -/
def Frame.operands : Frame → List Operand
  | .unary _ _ | .paren _ => []
  | .binary _ left => [left]
  | .consequent test => [test]
  | .alternate test branch => [test, branch]
  | .array _ elements => elements
  | .arguments callee passed => callee :: passed
  | .index object _ => [object]

/-- All operands of started constructs count their levels. -/
def CountedAll (frames : List Frame) : Prop :=
  ∀ frame ∈ frames, ∀ o ∈ frame.operands, o.Counted

namespace CountedAll

variable {frame : Frame} {frames : List Frame} {last : Operand}

theorem nil : CountedAll [] :=
  fun _ h => nomatch h

@[simp] theorem cons_iff :
    CountedAll (frame :: frames) ↔ (∀ o ∈ frame.operands, o.Counted) ∧ CountedAll frames :=
  List.forall_mem_cons

/-- Completing operations keeps the count. -/
theorem settle (h : CountedAll frames) (hlast : last.Counted) (next : Nat) :
    CountedAll (settle next frames last).1 ∧ (settle next frames last).2.Counted := by
  induction frames generalizing last with
  | nil => exact ⟨h, hlast⟩
  | cons frame frames ih =>
    obtain ⟨hframe, hrest⟩ := cons_iff.mp h
    cases frame with
    | unary op start => exact ih hrest (Operand.counted_compound (by simpa using hlast) rfl)
    | binary op left =>
      rw [Expression.settle]
      split
      · refine ih hrest (Operand.counted_compound ?_ rfl)
        simpa using ⟨hframe left (List.mem_singleton_self _), hlast⟩
      · exact ⟨h, hlast⟩
    | _ => exact ⟨h, hlast⟩

/-- Completing all operations keeps the count. -/
theorem close (h : CountedAll frames) (hlast : last.Counted) : (close frames last).2.Counted := by
  induction frames generalizing last with
  | nil => exact hlast
  | cons frame frames ih =>
    obtain ⟨hframe, hrest⟩ := cons_iff.mp h
    cases frame with
    | unary op start => exact ih hrest (Operand.counted_compound (by simpa using hlast) rfl)
    | binary op left =>
      refine ih hrest (Operand.counted_compound ?_ rfl)
      simpa using ⟨hframe left (List.mem_singleton_self _), hlast⟩
    | alternate test branch =>
      refine ih hrest (Operand.counted_compound ?_ rfl)
      simpa [Frame.operands, and_assoc] using And.intro hframe hlast
    | _ => exact hlast

end CountedAll

/-- What a phrase stands for counts its levels. -/
def Phrase.Counted : Phrase → Prop
  | .primary o | .whole o => o.Counted
  | .pending frames => CountedAll frames
  | .items elements | .bracket elements => ∀ o ∈ elements, o.Counted

/-- A word has no levels below it. -/
theorem counted_word {name : Text} {s : Span} {o : Operand} (h : wordOperand? name s = some o) :
    o.Counted := by
  unfold wordOperand? at h
  split_ifs at h <;> cases h <;> exact Nat.le_refl _

/-- **Operands count their levels**, whatever construct they were read as. -/
theorem Reads.counted {phrase : Phrase} {w : List Token} (h : Reads phrase w) : phrase.Counted := by
  induction h with
  | word admitted => exact counted_word admitted
  | literal => exact Nat.le_refl _
  | parenthesized _ ih => exact ih.parenthesized _
  | member _ _ ih => exact Operand.counted_compound (List.forall_mem_singleton.mpr ih) rfl
  | index _ _ _ _ ih ih' => exact Operand.counted_compound (by simpa using ⟨ih, ih'⟩) rfl
  | call _ _ _ ih ih' => exact Operand.counted_compound (by simpa using ⟨ih, ih'⟩) rfl
  | array _ ih =>
    exact Operand.counted_compound (fun o ho => ih o (List.mem_reverse.mp ho)) rfl
  | noItems => exact fun _ h => nomatch h
  | elision _ ih => exact ih
  | item _ _ ih ih' => exact List.forall_mem_cons.mpr ⟨ih', ih⟩
  | closed _ ih => exact ih
  | closedBehind _ _ ih ih' => exact List.forall_mem_cons.mpr ⟨ih', ih⟩
  | nothing => exact .nil
  | unary _ _ ih => exact CountedAll.cons_iff.mpr ⟨List.forall_mem_nil _, ih⟩
  | binary _ _ _ ih ih' =>
    obtain ⟨hframes, hleft⟩ := CountedAll.settle ih ih' _
    exact CountedAll.cons_iff.mpr ⟨by simpa [Frame.operands] using hleft, hframes⟩
  | conditional _ _ _ _ ih ih' ih'' =>
    obtain ⟨hframes, htest⟩ := CountedAll.settle ih ih' _
    exact CountedAll.cons_iff.mpr ⟨by simpa [Frame.operands] using ⟨htest, ih''⟩, hframes⟩
  | remark _ ih => exact ih
  | whole _ _ ih ih' => exact CountedAll.close ih ih'

/-- **Accepted expressions are of bounded height.** -/
theorem height_of_parse {e : Expr} (h : parse t = .ok e) : e.height ≤ maxLevels + 1 := by
  obtain ⟨o, hread, hlevels, rfl⟩ := read?_of_parse h
  obtain ⟨w, -, hreads⟩ := read?_eq_some_iff.mp hread
  exact hreads.counted.trans (Nat.succ_le_succ hlevels)

/-! ## Many pairs of parentheses -/

/-- A text in the given number of pairs of parentheses. -/
def nested (k : Nat) (t : Text) : Text :=
  List.replicate k '(' ++ (t ++ List.replicate k ')')

theorem nested_zero (t : Text) : nested 0 t = t :=
  List.append_nil t

/-- One pair more stands around the others. -/
theorem nested_succ (k : Nat) (t : Text) : nested (k + 1) t = enclosed (nested k t) := by
  rw [nested, nested, enclosed, List.replicate_succ, List.replicate_succ', List.append_assoc,
    List.append_assoc]
  rfl

/-- **In parentheses a text is read as the same expression**, one byte later and one level deeper for
each pair. -/
theorem read?_nested {o : Operand} (h : read? t = some o) (k : Nat) :
    ∃ p, read? (nested k t) = some p ∧ p.expr = o.expr.shift k ∧ p.levels = o.levels + k := by
  induction k with
  | zero => exact ⟨o, by rwa [nested_zero], (Expr.shift_zero _).symm, rfl⟩
  | succ k ih =>
    obtain ⟨p, hp, hexpr, hlevels⟩ := ih
    refine ⟨p.enclosed 0 (Text.byteLength (nested k t)), ?_, ?_, ?_⟩
    · rw [nested_succ]
      exact read?_enclosed hp
    · show p.expr.shift 1 = _
      rw [hexpr, Expr.shift_shift]
    · show p.levels + 1 = _
      rw [hlevels, Nat.add_assoc]

/-- A text in parentheses is not blank if the text is not. -/
theorem allBlank_nested (h : t.allBlank = false) (k : Nat) : (nested k t).allBlank = false := by
  cases k with
  | zero => rwa [nested_zero]
  | succ k => rfl

/-- **Parentheses are transparent up to a limit.**  An accepted text stands a certain number of pairs of
parentheses, and around them it is the same expression, further to the right by a byte for each pair;
more pairs make it too deep.  The expression itself is of bounded height. -/
theorem parse_nested {e : Expr} (h : parse t = .ok e) :
    (∃ m ≤ 256, ∀ k,
      ((∃ f, parse (nested k t) = .ok f) ↔ k ≤ m) ∧
      (k ≤ m → parse (nested k t) = .ok (e.shift k)) ∧
      (m < k → parse (nested k t) = .error ⟨.tooDeep, nested k t, none⟩)) ∧
    Cause.tooDeep.message = "Expression is nested too deeply" ∧ e.height ≤ 257 := by
  obtain ⟨o, hread, hlevels, rfl⟩ := read?_of_parse h
  have hblank : t.allBlank = false := (Synthesis.parse_eq_ok_iff.mp h).1
  refine ⟨⟨maxLevels - o.levels, Nat.sub_le .., fun k => ?_⟩, rfl, height_of_parse h⟩
  obtain ⟨p, hnested, hexpr, hdeeper⟩ := read?_nested hread k
  have hparse := parse_of_read? (allBlank_nested hblank k) hnested
  have hlimit : p.levels ≤ maxLevels ↔ k ≤ maxLevels - o.levels := by
    omega
  refine ⟨?_, fun hk => ?_, fun hk => ?_⟩
  · rw [accepted_iff (allBlank_nested hblank k) hnested, hlimit]
  · rw [hparse, if_pos (hlimit.mpr hk), hexpr]
  · rw [hparse, if_neg (fun hp => Nat.not_le_of_lt hk (hlimit.mp hp))]

/-- A negated call in parentheses of its own. -/
def negatedCallText : Text :=
  "!(f(a))".toList

/-- What it is read as. -/
def negatedCall : Expr :=
  .unary ⟨0, 7⟩ .not (.call ⟨2, 6⟩ (.identifier ⟨2, 3⟩ ['f']) [.identifier ⟨4, 5⟩ ['a']])

/-- The call, its parentheses and the negation are three levels, which leave room for 253 pairs. -/
theorem parse_nested_negatedCallText :
    parse negatedCallText = .ok negatedCall ∧
      parse (nested 253 negatedCallText) = .ok (negatedCall.shift 253) ∧
      parse (nested 254 negatedCallText) = .error ⟨.tooDeep, nested 254 negatedCallText, none⟩ := by
  have hread : read? negatedCallText = some ⟨negatedCall, ⟨0, 7⟩, 3⟩ :=
    read?_eq_some_iff.mpr ⟨[⟨.mark (.unary .not), 0, 1⟩, ⟨.mark .openParen, 1, 2⟩,
      ⟨.word ['f'], 2, 3⟩, ⟨.mark .openParen, 3, 4⟩, ⟨.word ['a'], 4, 5⟩,
      ⟨.mark .closeParen, 5, 6⟩, ⟨.mark .closeParen, 6, 7⟩],
      by decide +kernel, parse?_eq_some_iff.mp rfl⟩
  have haccepted (k : Nat) :
      (∃ f, parse (nested k negatedCallText) = .ok f) ↔ 3 + k ≤ maxLevels := by
    obtain ⟨p, hp, -, hlevels⟩ := read?_nested hread k
    rw [accepted_iff (allBlank_nested (by decide) k) hp, hlevels]
  have hparse := (parse_of_read? (by decide) hread).trans (if_pos (by decide))
  obtain ⟨⟨m, -, hm⟩, -⟩ := parse_nested hparse
  have hroom : 253 ≤ m := (hm 253).1.mp ((haccepted 253).mpr (by decide))
  have hfull : m < 254 := by
    by_contra hle
    exact absurd ((haccepted 254).mp ((hm 254).1.mpr (Nat.le_of_not_lt hle))) (by decide)
  exact ⟨hparse, (hm 253).2.1 hroom, (hm 254).2.2 hfull⟩

end Expression
end DataBinding
