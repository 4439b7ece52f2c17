/-
# What a run of a reader tells

A run of a reader that succeeds is taken apart along the way the reader is built: a sequence succeeded in
both parts, a choice in one of them, a mark was next in the text.  What all results of a reader have in
common is told in the same way.

* `eq_ok_of_bind`     : a sequence of two readers succeeds if both do;
* `Gives`             : all results of a reader have a property;
* `cases_of_completed`, `cases_of_expression` : an operand stays as it is or becomes another node;
* `Steps`             : the runs of a step that is repeated.
-/
import DataBinding.Script.Parser

namespace DataBinding.Script

namespace Reader

/-! ## What a run of a reader tells -/

variable {α β : Type} {c c' : Cursor} {a a' : α} {b : β}

/-- A sequence of two readers succeeds if both do. -/
theorem eq_ok_of_bind {r : Reader α} {f : α → Reader β} (h : (r >>= f) c = .ok (b, c')) :
    ∃ a d, r c = .ok (a, d) ∧ f a d = .ok (b, c') := by
  cases hr : (r c : Except Nat (α × Cursor)) with
  | error place =>
    simp only [bind, StateT.bind, hr, Except.bind] at h
    simp at h
  | ok p =>
    simp only [bind, StateT.bind, hr, Except.bind] at h
    exact ⟨p.1, p.2, rfl, h⟩

theorem eq_of_pure (h : (pure a : Reader α) c = .ok (a', c')) : a' = a ∧ c' = c := by
  obtain ⟨rfl, rfl⟩ := Prod.mk.inj (Except.ok.inj h)
  exact ⟨rfl, rfl⟩

theorem eq_ok_of_map {f : α → β} {r : Reader α} (h : (f <$> r) c = .ok (b, c')) :
    ∃ a, b = f a ∧ r c = .ok (a, c') := by
  rw [map_eq_pure_bind] at h
  obtain ⟨a, d, hr, h⟩ := eq_ok_of_bind h
  obtain ⟨rfl, rfl⟩ := eq_of_pure h
  exact ⟨a, rfl, hr⟩

theorem eq_ok_of_orTry {first second : Reader α} (h : orTry first second c = .ok (a, c')) :
    first c = .ok (a, c') ∨ second c = .ok (a, c') := by
  unfold orTry at h
  split at h
  · rename_i hfirst
    exact .inl (hfirst.trans h)
  · split at h
    · rename_i hsecond
      exact .inr (hsecond.trans h)
    · cases h

theorem eq_ok_of_whole {r : Reader α} (h : whole r c = .ok (a, c')) : r c = .ok (a, c') := by
  unfold whole at h
  split at h
  · rename_i hr
    exact hr.trans h
  · cases h

/-- The bracketing is restored behind what is read with another one. -/
theorem eq_ok_of_withBrackets {bracketed : Bool} {r : Reader α}
    (h : withBrackets bracketed r c = .ok (a, c')) :
    ∃ d, r { c with bracketed } = .ok (a, d) ∧ c' = { d with bracketed := c.bracketed } := by
  obtain ⟨_, _, hget, h⟩ := eq_ok_of_bind h
  obtain ⟨rfl, rfl⟩ := Prod.mk.inj (Except.ok.inj hget)
  obtain ⟨_, _, hset, h⟩ := eq_ok_of_bind h
  obtain ⟨rfl, rfl⟩ := Prod.mk.inj (Except.ok.inj hset)
  obtain ⟨_, d, hr, h⟩ := eq_ok_of_bind h
  obtain ⟨_, _, hset, h⟩ := eq_ok_of_bind h
  obtain ⟨rfl, rfl⟩ := Prod.mk.inj (Except.ok.inj hset)
  obtain ⟨rfl, rfl⟩ := eq_of_pure h
  exact ⟨d, hr, rfl⟩

theorem eq_of_ahead {d : Cursor} (h : ahead c = .ok (d, c')) : d = c.next ∧ c' = c := by
  obtain ⟨rfl, rfl⟩ := Prod.mk.inj (Except.ok.inj h)
  exact ⟨rfl, rfl⟩

theorem eq_of_moveTo {d : Cursor} {u : Unit} (h : moveTo d c = .ok (u, c')) : c' = d := by
  obtain ⟨-, rfl⟩ := Prod.mk.inj (Except.ok.inj h)
  rfl

theorem eq_of_startsWith {lead : String} {b : Bool} (h : startsWith lead c = .ok (b, c')) :
    b = c.next.rest.startsWith lead.toList ∧ c' = c := by
  obtain ⟨_, _, hahead, h⟩ := eq_ok_of_bind h
  obtain ⟨rfl, rfl⟩ := eq_of_ahead hahead
  exact eq_of_pure h

/-- Characters are taken if they are next. -/
theorem cases_of_take? {lead : String} {b : Bool} (h : take? lead c = .ok (b, c')) :
    (b = true ∧ c.next.rest.startsWith lead.toList = true ∧ c' = c.next.skip lead.length) ∨
      (b = false ∧ c' = c) := by
  obtain ⟨_, _, hahead, h⟩ := eq_ok_of_bind h
  obtain ⟨rfl, rfl⟩ := eq_of_ahead hahead
  split at h
  · rename_i hstarts
    obtain ⟨_, _, hmove, h⟩ := eq_ok_of_bind h
    obtain ⟨rfl, rfl⟩ := eq_of_pure h
    exact .inl ⟨rfl, hstarts, eq_of_moveTo hmove⟩
  · obtain ⟨rfl, rfl⟩ := eq_of_pure h
    exact .inr ⟨rfl, rfl⟩

theorem ne_ok_of_refuse : (refuse : Reader α) c ≠ .ok (a, c') := by
  intro h
  cases h

theorem eq_of_expect {lead : String} {u : Unit} (h : expect lead c = .ok (u, c')) :
    c.next.rest.startsWith lead.toList = true ∧ c' = c.next.skip lead.length := by
  obtain ⟨taken, d, htake, hunless⟩ := eq_ok_of_bind h
  obtain ⟨rfl, hstarts, rfl⟩ | ⟨rfl, rfl⟩ := cases_of_take? htake
  · obtain ⟨-, rfl⟩ := eq_of_pure hunless
    exact ⟨hstarts, rfl⟩
  · exact absurd hunless ne_ok_of_refuse

/-- A leaf is the token that it takes. -/
theorem eq_of_leaf {construct : Construct} {length : Nat} {node : Node}
    (h : leaf construct length c = .ok (node, c')) :
    node = .mk construct ⟨c.next.position, (c.next.skip length).position⟩ (c.next.rest.take length) [] ∧
      c' = c.next.skip length := by
  obtain ⟨_, _, hahead, h⟩ := eq_ok_of_bind h
  obtain ⟨rfl, rfl⟩ := eq_of_ahead hahead
  obtain ⟨_, _, hmove, h⟩ := eq_ok_of_bind h
  obtain rfl := eq_of_moveTo hmove
  exact eq_of_pure h

theorem eq_of_nodeFrom {construct : Construct} {start : Nat} {parts : List Node} {node : Node}
    (h : nodeFrom construct start parts c = .ok (node, c')) :
    node = .group construct ⟨start, c.position⟩ parts ∧ c' = c := by
  obtain ⟨rfl, rfl⟩ := Prod.mk.inj (Except.ok.inj h)
  exact ⟨rfl, rfl⟩

/-! ## Kinds of results -/

/-- All results of a reader have a property. -/
def Gives (P : α → Prop) (r : Reader α) : Prop :=
  ∀ c a c', r c = .ok (a, c') → P a

section Gives

variable {P : α → Prop} {r r' : Reader α}

theorem Gives.any (r : Reader α) : Gives (fun _ => True) r :=
  fun _ _ _ _ => trivial

theorem Gives.bind {r : Reader β} {f : β → Reader α} (h : ∀ b, Gives P (f b)) :
    Gives P (r >>= f) := by
  intro c a c' hr
  obtain ⟨b, d, -, hf⟩ := eq_ok_of_bind hr
  exact h b d a c' hf

/-- The results of the first reader may be counted on. -/
theorem Gives.behind {Q : β → Prop} {r : Reader β} {f : β → Reader α} (h : Gives Q r)
    (hf : ∀ b, Q b → Gives P (f b)) : Gives P (r >>= f) := by
  intro c a c' hr
  obtain ⟨b, d, hb, hfb⟩ := eq_ok_of_bind hr
  exact hf b (h c b d hb) d a c' hfb

theorem Gives.pure (h : P a) : Gives P (pure a : Reader α) := by
  intro c b c' hr
  obtain ⟨rfl, -⟩ := eq_of_pure hr
  exact h

theorem Gives.refuse : Gives P (refuse : Reader α) :=
  fun _ _ _ hr => absurd hr ne_ok_of_refuse

theorem Gives.orTry (h : Gives P r) (h' : Gives P r') : Gives P (orTry r r') := by
  intro c a c' hr
  exact (eq_ok_of_orTry hr).elim (h c a c') (h' c a c')

theorem Gives.whole (h : Gives P r) : Gives P (whole r) :=
  fun c a c' hr => h c a c' (eq_ok_of_whole hr)

theorem Gives.ite {p : Prop} [Decidable p] (h : Gives P r) (h' : Gives P r') :
    Gives P (if p then r else r') := by
  split
  · exact h
  · exact h'

/-- A property of the result that a step gives, if it gives one. -/
theorem Gives.some (h : Gives P r) : Gives (fun o => ∀ a ∈ o, P a) (some <$> r) := by
  intro c o c' hr b hb
  obtain ⟨a, rfl, ha⟩ := eq_ok_of_map hr
  obtain rfl := Option.some.inj hb
  exact h c _ c' ha

theorem Gives.none : Gives (fun o => ∀ a ∈ o, P a) (Pure.pure none : Reader (Option α)) :=
  .pure fun _ h => by cases h

end Gives

/-- The node is neither an identifier nor an object literal. -/
def IsOther (node : Node) : Prop :=
  node.construct ≠ .identifier ∧ node.construct ≠ .object

theorem gives_nodeFrom {P : Node → Prop} {construct : Construct} {start : Nat} {parts : List Node}
    (h : ∀ span, P (.group construct span parts)) : Gives P (nodeFrom construct start parts) := by
  intro c a c' hr
  obtain ⟨rfl, -⟩ := eq_of_nodeFrom hr
  exact h _

/-- A node is another one if its construct is. -/
theorem other_nodeFrom {construct : Construct} {start : Nat} {parts : List Node}
    (h : construct ≠ .identifier ∧ construct ≠ .object) :
    Gives IsOther (nodeFrom construct start parts) :=
  gives_nodeFrom fun _ => h

theorem other_leaf {construct : Construct} {length : Nat}
    (h : construct ≠ .identifier ∧ construct ≠ .object) : Gives IsOther (leaf construct length) := by
  intro c a c' hr
  obtain ⟨rfl, -⟩ := eq_of_leaf hr
  exact h

section Others

variable {g : Grammar}

theorem other_parenthesized : Gives IsOther (parenthesized g) :=
  .bind fun _ => .bind fun _ => .bind fun _ => other_nodeFrom (by decide)

theorem other_spread : Gives IsOther (spread g) :=
  .bind fun _ => .bind fun _ => .bind fun _ => other_nodeFrom (by decide)

theorem other_template : Gives IsOther (template g) :=
  .bind fun _ => .bind fun _ => .bind fun _ => .bind fun _ => .bind fun _ => other_nodeFrom (by decide)

theorem other_regex : Gives IsOther regex := by
  refine .bind fun _ => ?_
  dsimp only
  split
  · exact .ite .refuse (other_leaf (by decide))
  · exact .refuse

theorem other_privateName : Gives IsOther privateName := by
  refine .bind fun c => ?_
  split
  · split
    · exact other_leaf (by decide)
    · exact .refuse
  · exact .refuse

theorem other_function (start : Nat) (named : Bool) : Gives IsOther (function g start named) := by
  refine .bind fun _ => .bind fun generator => ?_
  have hnode : ∀ parts, Gives IsOther
      (nodeFrom (if generator then .generator else .function) start parts) := by
    intro parts
    cases generator <;> exact other_nodeFrom (by decide)
  have hrest : Gives IsOther (do
      let parts ← functionRest g
      nodeFrom (if generator then .generator else .function) start parts) :=
    .bind hnode
  exact .ite (.bind fun _ => hrest) (.bind fun _ => .ite hrest (.bind fun _ => hrest))

theorem other_element : Gives IsOther (element g) := by
  refine .bind fun c => .bind fun _ => .bind fun _ => ?_
  extract_lets rest
  have hrest : ∀ attributes, Gives IsOther (rest attributes) := by
    intro attributes
    refine .bind fun _ => .ite (.bind fun _ => other_nodeFrom (by decide)) ?_
    refine .bind fun _ => .bind fun children => .bind fun _ => .bind fun _ => ?_
    have hclose : Gives IsOther (do
        expect ">"
        nodeFrom .markupElement c.position (attributes ++ children)) :=
      .bind fun _ => other_nodeFrom (by decide)
    exact .ite hclose (.bind fun _ => hclose)
  exact .ite (.bind hrest) (.bind fun _ => .bind fun _ => .bind hrest)

theorem other_classLiteral (start : Nat) (decorated : List Node) (named : Bool) :
    Gives IsOther (classLiteral g start decorated named) := by
  refine .bind fun _ => .bind fun _ => .bind fun _ => ?_
  extract_lets anonymous rest
  have hrest : Gives IsOther (rest ()) :=
    .bind fun _ => .bind fun _ => .bind fun _ => other_nodeFrom (by decide)
  exact .ite (.bind fun _ => hrest) hrest

theorem other_construction : Gives IsOther (construction g) := by
  refine .bind fun _ => .bind fun _ => .bind fun _ => .ite ?_ ?_
  · exact .bind fun _ => other_nodeFrom (by decide)
  · refine .bind fun _ => .bind fun _ => ?_
    exact .ite (.bind fun _ => other_nodeFrom (by decide)) (.bind fun _ => other_nodeFrom (by decide))

theorem other_importOperand : Gives IsOther importOperand := by
  refine .behind (other_leaf (by decide)) fun word hword => ?_
  refine .bind fun _ => .ite (.pure hword) (.bind fun _ => .ite (.orTry ?_ (.pure hword)) .refuse)
  exact .bind fun _ => .bind fun _ => other_nodeFrom (by decide)

/-! ### Accesses, operations and assignments -/

theorem other_accessed (object : Node) : Gives IsOther (accessed object) :=
  .bind fun _ => .bind fun _ => .ite (.bind fun _ => other_nodeFrom (by decide))
    (.bind fun _ => other_nodeFrom (by decide))

theorem other_indexed (object : Node) : Gives IsOther (indexed g object) :=
  .bind fun _ => .bind fun _ => other_nodeFrom (by decide)

theorem other_called {construct : Construct} (h : construct ≠ .identifier ∧ construct ≠ .object)
    (callee : Node) : Gives IsOther (called g construct callee) :=
  .bind fun _ => .bind fun _ => other_nodeFrom h

/-- An access, a call or a step behind an operand is another node. -/
theorem other_tail (tails : Tails) (node : Node) :
    Gives (fun o => ∀ a ∈ o, IsOther a) (tail g tails node) := by
  refine .bind fun c => ?_
  extract_lets step
  have hstep : Gives (fun o => ∀ a ∈ o, IsOther a) step :=
    .bind fun _ => .ite .none (.bind fun _ => .some (other_nodeFrom (by decide)))
  split
  · refine .ite .none (.bind fun _ => .ite .none (.bind fun _ => ?_))
    split
    · exact .some (other_indexed node)
    · exact .some (other_called (by decide) node)
    · exact .some (other_accessed node)
  · exact .bind fun _ => .some (other_accessed node)
  · exact .some (other_indexed node)
  · exact .ite (.some (other_called (by decide) node)) .none
  · exact .bind fun _ => .some (other_nodeFrom (by decide))
  · exact hstep
  · exact hstep
  · exact .none

/-- An operation is another node. -/
theorem other_operation (least : Nat) (left : Node) :
    Gives (fun o => ∀ a ∈ o, IsOther a) (operation g least left) := by
  refine .bind fun c => ?_
  dsimp only
  split
  · exact .ite .none (.bind fun _ => .bind fun _ => .some (other_nodeFrom (by decide)))
  · refine .ite (.bind fun _ => .some ?_) .none
    exact .bind fun _ => .bind fun _ => other_nodeFrom (by decide)
  · exact .none

/-- An assignment is another node, and where there is none the node stays as it is. -/
theorem gives_assigned (node : Node) : Gives (fun a => a = node ∨ IsOther a) (assigned g node) := by
  have hassignment : ∀ construct start parts, construct ≠ .identifier ∧ construct ≠ .object →
      Gives (fun a => a = node ∨ IsOther a) (nodeFrom construct start parts) :=
    fun _ _ _ h => gives_nodeFrom fun _ => .inr h
  refine .ite (.bind fun _ => .ite (.bind fun _ => hassignment _ _ _ (by decide)) ?_) (.pure (.inl rfl))
  refine .bind fun c => ?_
  split
  · exact .ite .refuse (.bind fun _ => .bind fun _ => hassignment _ _ _ (by decide))
  · exact .pure (.inl rfl)

/-- An arrow function is one. -/
theorem gives_arrowRest (start : Nat) (parameters : List Node) :
    Gives (fun p => p.1.construct = .arrow) (arrowRest g start parameters) := by
  have hnode : ∀ parts inBraces, Gives (fun p => p.1.construct = .arrow) (do
      return (← nodeFrom .arrow start parts, inBraces) : Reader (Node × Bool)) := by
    intro parts inBraces
    have harrow : Gives (fun a : Node => a.construct = .arrow) (nodeFrom .arrow start parts) :=
      gives_nodeFrom fun _ => rfl
    exact .behind harrow fun _ h => .pure h
  refine .bind fun _ => .bind fun _ => ?_
  exact .ite (.orTry (.bind fun _ => hnode _ _) (.bind fun _ => hnode _ _)) (.bind fun _ => hnode _ _)

theorem gives_arrow (start : Nat) : Gives (fun p => p.1.construct = .arrow) (arrow g start) :=
  .bind fun parameters => gives_arrowRest start parameters

theorem gives_shortArrow (start : Nat) :
    Gives (fun p => p.1.construct = .arrow) (shortArrow g start) := by
  refine .bind fun parameter => .bind fun _ => ?_
  exact .ite (gives_arrowRest start [parameter]) (.bind fun _ => gives_arrowRest start [parameter])

theorem gives_asyncArrow : Gives (fun p => p.1.construct = .arrow) (asyncArrow g) :=
  .bind fun _ => .bind fun _ => .bind fun _ => .ite (gives_arrow _) (gives_shortArrow _)

end Others

/-! ## Extended values -/

/-- A value that is extended stays as it is or is what a step gave. -/
theorem cases_of_extendUpTo {step : α → Reader (Option α)} {fuel : Nat} {a b : α}
    (h : extendUpTo fuel step a c = .ok (b, c')) :
    b = a ∨ ∃ a' d d', step a' d = .ok (some b, d') := by
  induction fuel generalizing a c with
  | zero => exact .inl (eq_of_pure h).1
  | succ fuel ih =>
    obtain ⟨o, d, hstep, hrest⟩ := eq_ok_of_bind h
    cases o with
    | none => exact .inl (eq_of_pure hrest).1
    | some a' =>
      obtain rfl | hlater := ih hrest
      · exact .inr ⟨a, c, d, hstep⟩
      · exact .inr hlater

theorem cases_of_extend {step : α → Reader (Option α)} {a b : α}
    (h : extend step a c = .ok (b, c')) : b = a ∨ ∃ a' d d', step a' d = .ok (some b, d') := by
  obtain ⟨_, _, -, hrest⟩ := eq_ok_of_bind h
  exact cases_of_extendUpTo hrest

/-- An operand with what follows it is the operand or another node. -/
theorem cases_of_completed {g : Grammar} {base : Reader Node} {node : Node}
    (h : completed g base c = .ok (node, c')) :
    ∃ operand d, base c = .ok (operand, d) ∧ (node = operand ∨ IsOther node) := by
  obtain ⟨operand, d, hbase, hrest⟩ := eq_ok_of_bind h
  obtain ⟨extended, e, hextend, hassigned⟩ := eq_ok_of_bind hrest
  refine ⟨operand, d, hbase, ?_⟩
  obtain rfl | hother := gives_assigned extended e node c' hassigned
  · obtain rfl | ⟨a, d, d', hstep⟩ := cases_of_extend hextend
    · exact .inl rfl
    · exact .inr (other_tail ⟨true, true⟩ a d _ d' hstep node rfl)
  · exact .inr hother

/-- Operations on an operand are the operand or another node. -/
theorem cases_of_expression {g : Grammar} {least : Nat} {node : Node}
    (h : expression g least c = .ok (node, c')) :
    ∃ operand d, g .operand c = .ok (operand, d) ∧ (node = operand ∨ IsOther node) := by
  obtain ⟨operand, d, hoperand, hextend⟩ := eq_ok_of_bind h
  refine ⟨operand, d, hoperand, ?_⟩
  obtain rfl | ⟨a, d, d', hstep⟩ := cases_of_extend hextend
  · exact .inl rfl
  · exact .inr (other_operation least a d _ d' hstep node rfl)

/-! ## Repeated steps -/

/-- A step is repeated until it gives nothing or a limit is reached. -/
inductive Steps (step : Reader (Option α)) : Cursor → List α → Cursor → Prop
  | limit {c : Cursor} : Steps step c [] c
  | stop {c d : Cursor} (last : step c = .ok (none, d)) : Steps step c [] d
  | more {c d e : Cursor} {a : α} {as : List α} (first : step c = .ok (some a, d))
      (rest : Steps step d as e) : Steps step c (a :: as) e

theorem steps_of_manyUpTo {step : Reader (Option α)} {fuel : Nat} {as : List α}
    (h : manyUpTo fuel step c = .ok (as, c')) : Steps step c as c' := by
  induction fuel generalizing c as with
  | zero =>
    obtain ⟨rfl, rfl⟩ := eq_of_pure h
    exact .limit
  | succ fuel ih =>
    obtain ⟨o, d, hfirst, hrest⟩ := eq_ok_of_bind h
    cases o with
    | none =>
      obtain ⟨rfl, rfl⟩ := eq_of_pure hrest
      exact .stop hfirst
    | some a =>
      obtain ⟨as, rfl, hmore⟩ := eq_ok_of_map hrest
      exact .more hfirst (ih hmore)

theorem steps_of_many {step : Reader (Option α)} {as : List α}
    (h : many step c = .ok (as, c')) : Steps step c as c' := by
  obtain ⟨_, _, hget, hrest⟩ := eq_ok_of_bind h
  obtain ⟨rfl, rfl⟩ := Prod.mk.inj (Except.ok.inj hget)
  exact steps_of_manyUpTo hrest

end Reader

end DataBinding.Script
