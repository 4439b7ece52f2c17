/-
# Object literals and calls stand where they are read

Every production of the script grammar is faithful if the rules that it calls are.  So the span of
every object literal that is read starts at the literal's opening brace, on a character boundary, and
a call of a name opens where the name and the brace of its first argument stand.  The key facts are

* `tail_faithfulAt`    : a call is placed where its callee ends in front of its mark;
* `grammar_faithful`   : all rules of the grammar are faithful, by induction on the depth of calls;
* `braceAt_of_parse`   : every object literal in a read script starts at a brace of the script;
* `opensWith_of_parse` : every call of a name with an object literal opens in the script.
-/
import DataBinding.Proofs.Script.Places

set_option mvcgen.warning false

open Std.Do

namespace DataBinding.Script

namespace Reader

variable {t : Source} {α : Type} [Placed α]

section Productions

variable {g : Grammar} (hg : ∀ rule, Faithful t (g rule))
include hg

/-! ## Brackets -/

@[spec]
theorem spread_faithful : Faithful t (spread g) := by
  mvcgen [spread, hg] <;> simp_all

@[spec]
theorem expressionOrSpread_faithful : Faithful t (expressionOrSpread g) := by
  mvcgen [expressionOrSpread, hg] <;> simp_all

@[spec]
theorem parenthesized_faithful : Faithful t (parenthesized g) := by
  mvcgen [parenthesized, hg] <;> simp_all

@[spec]
theorem block_faithful : Faithful t (block g) := by
  mvcgen [block, hg] <;> simp_all

/-! Literals -/

omit hg in
@[spec]
theorem regex_faithful : Faithful t regex := by
  mvcgen [regex] <;> simp_all

@[spec]
theorem template_faithful : Faithful t (template g) := by
  mvcgen [template, hg] <;> simp_all [in_skip]

omit hg in
@[spec]
theorem elementName_faithful : Faithful t elementName := by
  mvcgen [elementName] <;> simp_all [in_skip]

@[spec]
theorem elementAttribute_faithful : Faithful t (elementAttribute g) := by
  mvcgen [elementAttribute, hg] <;> simp_all

@[spec]
theorem elementChildren_faithful : Faithful t (elementChildren g) := by
  mvcgen [elementChildren, hg] <;> simp_all [in_skip]

@[spec]
theorem element_faithful : Faithful t (element g) := by
  mvcgen [element, hg] <;> simp_all

/-! Patterns -/

@[spec]
theorem withDefault_faithful (item : Reader Node) (h : Faithful t item) :
    Faithful t (withDefault g item) := by
  mvcgen [withDefault, hg, h] <;> simp_all

@[spec]
theorem propertyName_faithful : Faithful t (propertyName g) := by
  mvcgen [propertyName, hg] <;> simp_all

@[spec]
theorem propertyPattern_faithful : Faithful t (propertyPattern g) := by
  mvcgen [propertyPattern, hg] <;> simp_all

@[spec]
theorem pattern_faithful : Faithful t (pattern g) := by
  mvcgen [pattern, hg] <;> simp_all

@[spec]
theorem binding_faithful : Faithful t (binding g) := by
  mvcgen [binding, hg] <;> simp_all

@[spec]
theorem decorators_faithful : Faithful t (decorators g) := by
  mvcgen [decorators, hg] <;> simp_all

@[spec]
theorem parameters_faithful : Faithful t (parameters g) := by
  mvcgen [parameters, hg] <;> simp_all

/-! Functions, objects and classes -/

@[spec]
theorem functionRest_faithful : Faithful t (functionRest g) := by
  mvcgen [functionRest, hg] <;> simp_all

@[spec]
theorem function_faithful (start : Nat) (named : Bool) : Faithful t (function g start named) := by
  mvcgen [function, hg] <;> simp_all [-Construct.isPlain]
  all_goals
    intro _ _ _
    split <;> rfl

omit hg in
@[spec]
theorem memberFollows_faithful : Faithful t memberFollows := by
  mvcgen [memberFollows] <;> simp_all

omit hg in
@[spec]
theorem modifier?_faithful (word : String) : Faithful t (modifier? word) := by
  mvcgen [modifier?] <;> simp_all

omit hg in
@[spec]
theorem modifiers_faithful : Faithful t modifiers := by
  mvcgen [modifiers] <;> simp_all

@[spec]
theorem objectMember_faithful : Faithful t (objectMember g) := by
  mvcgen [objectMember, hg] <;> simp_all [in_node, Node.Found, Node.construct]

omit hg in
@[spec]
theorem endStatement_faithful (closed : Bool) : Faithful t (endStatement closed) := by
  mvcgen [endStatement, atStatementEnd]

omit hg in
@[spec]
theorem atStatementEnd_faithful (closed : Bool) : Faithful t (atStatementEnd closed) := by
  mvcgen [atStatementEnd]

/-- An object literal starts at the brace that is taken first. -/
@[spec]
theorem object_faithful : Faithful t (object g) := by
  rw [faithful_iff]
  intro c a c' hc hr
  -- the place that was looked up is the one where the brace is taken
  obtain ⟨_, c, hahead, hopen⟩ := eq_ok_of_bind hr
  obtain ⟨rfl, rfl⟩ := eq_of_ahead hahead
  obtain ⟨_, d, hexpect, hmembers⟩ := eq_ok_of_bind hopen
  obtain ⟨hstarts, rfl⟩ := eq_of_expect hexpect
  obtain ⟨members, e, hitems, hnode⟩ := eq_ok_of_bind hmembers
  obtain ⟨rfl, rfl⟩ := eq_of_nodeFrom hnode
  have hread : Faithful t (withBrackets true (items "\x7d" (objectMember g))) := by
    mvcgen [hg]
  obtain ⟨hin, he⟩ := faithful_iff.mp hread _ _ _ (in_skip (in_next hc) _) hitems
  obtain ⟨before, htext, hposition⟩ := in_next hc
  have hbrace : BraceAt t.text c.next.position := by
    rw [(Cursor.passes_skip rfl hstarts).1] at htext
    exact ⟨before, _, htext, hposition⟩
  refine ⟨(in_node ..).mpr ⟨⟨fun _ => hbrace, fun hcall => ?_⟩, hin⟩, he⟩
  exact absurd hcall (by simp [Node.construct])

@[spec]
theorem classMember_faithful : Faithful t (classMember g) := by
  mvcgen [classMember, hg] <;> simp_all

@[spec]
theorem classLiteral_faithful (start : Nat) (decorated : List Node) (h : In t decorated)
    (named : Bool) : Faithful t (classLiteral g start decorated named) := by
  mvcgen [classLiteral, hg] <;> simp_all

/-! Operands -/

@[spec]
theorem construction_faithful : Faithful t (construction g) := by
  mvcgen [construction, hg] <;> simp_all

omit hg in
@[spec]
theorem importOperand_faithful : Faithful t importOperand := by
  mvcgen [importOperand] <;> simp_all

@[spec]
theorem wordForm_faithful (word : Text) : Faithful t (wordForm g word) := by
  mvcgen [wordForm, hg] <;> simp_all

@[spec]
theorem simpleForm_faithful : Faithful t (simpleForm g) := by
  mvcgen [simpleForm, hg] <;> simp_all

omit hg in
@[spec]
theorem accessed_faithful (object : Node) (h : In t object) : Faithful t (accessed object) := by
  mvcgen [accessed] <;> simp_all

@[spec]
theorem indexed_faithful (object : Node) (h : In t object) : Faithful t (indexed g object) := by
  mvcgen [indexed, hg] <;> simp_all

/-! Accesses and calls behind a name -/

section Behind

variable {c d e : Cursor}

omit hg

/-- From one place, a reader moves to a place in the text and gives something placed. -/
def FaithfulAt (t : Source) (c : Cursor) (r : Reader α) : Prop :=
  ∀ a c', r c = .ok (a, c') → In t a ∧ In t c'

theorem Faithful.at {r : Reader α} (h : Faithful t r) (hc : In t c) : FaithfulAt t c r :=
  fun a c' hr => faithful_iff.mp h c a c' hc hr

theorem FaithfulAt.bind {β : Type} {r : Reader β} {f : β → Reader α}
    (h : ∀ b d, r c = .ok (b, d) → FaithfulAt t d (f b)) : FaithfulAt t c (r >>= f) := by
  intro a c' hr
  obtain ⟨b, d, hb, ha⟩ := eq_ok_of_bind hr
  exact h b d hb a c' ha

theorem FaithfulAt.some {r : Reader α} (h : FaithfulAt t c r) : FaithfulAt t c (some <$> r) := by
  intro o c' hr
  obtain ⟨a, rfl, ha⟩ := eq_ok_of_map hr
  exact (h a c' ha).imp_left (in_some a).mpr

theorem FaithfulAt.none (hc : In t c) : FaithfulAt t c (pure none : Reader (Option α)) := by
  intro o c' hr
  obtain ⟨rfl, rfl⟩ := eq_of_pure hr
  exact ⟨in_none, hc⟩

/-- An identifier ends in front of a place, or in front of a mark before the place. -/
def EndsBefore (t : Source) (node : Node) (mark : Text) (c : Cursor) : Prop :=
  node.construct = .identifier → ∃ before, t.text = before ++ (node.wording ++ (mark ++ c.rest))

/-- What ends its name where it stops leaves the name in front of the place. -/
theorem EndsName.endsBefore {r : Reader Node} (h : EndsName r) {a : Node} (hc : In t c)
    (hr : r c = .ok (a, d)) : EndsBefore t a [] d := by
  intro hname
  obtain ⟨before, htext, -⟩ := hc
  obtain ⟨front, hrest⟩ := h c a d hr hname
  exact ⟨before ++ front, by rw [htext, hrest, List.append_assoc, List.nil_append]⟩

/-- What stands between a name and the parenthesis of a call, which follows a stretch: nothing, or
the mark of an optional call. -/
def IsMark (mark : Text) (c : Cursor) : Prop :=
  mark = [] ∨ ∃ gap, mark = gap ++ ['?', '.'] ∧ Stretch false gap ('?' :: '.' :: c.rest)

/-- A call whose mark and first brace stand behind its name opens there. -/
theorem stands_of_reaches {name before mark : Text} {place : Nat}
    (htext : t.text = before ++ (name ++ (mark ++ c.rest))) (hc : In t c) (hmark : IsMark mark c)
    (hreaches : c.Reaches false d) (hpasses : d.Passes '(' e) (hopens : e.OpensAt place) :
    ∃ o : Opening, o.Stands name t.text place := by
  obtain ⟨front, hfront, hposition⟩ := hc
  obtain ⟨gap, hgap, hd, hstretch⟩ := hreaches
  obtain ⟨hparenthesis, he⟩ := hpasses
  obtain ⟨f, after, ⟨inner, hinner, hf, hloose⟩, hbrace, rfl⟩ := hopens
  rw [hbrace] at hinner hloose
  rw [hparenthesis, hinner] at hgap hstretch
  -- the bytes up to the parenthesis are those of the texts before it
  have hlength : c.position = Text.byteLength (before ++ (name ++ mark)) := by
    have hsame : front ++ c.rest = (before ++ (name ++ mark)) ++ c.rest := by
      rw [← hfront, htext]
      simp only [List.append_assoc]
    rw [← hposition, List.append_cancel_right hsame]
  have hplace : f.position =
      Text.byteLength (before ++ (name ++ (mark ++ (gap ++ ('(' :: inner))))) := by
    have hcons : Text.byteLength ('(' :: inner) = '('.utf8Size + Text.byteLength inner := by
      simp [Text.byteLength]
    simp only [hf, he, hd, hlength, Text.byteLength_append, hcons]
    omega
  obtain rfl | ⟨early, rfl, hearly⟩ := hmark
  · refine ⟨⟨before, gap, ['('], inner, after⟩, ?_, ?_, hstretch, .inl rfl, hloose⟩
    · rw [htext, hgap]
      simp [Opening.call]
    · rw [hplace]
      simp
  · refine ⟨⟨before, early, '?' :: '.' :: (gap ++ ['(']), inner, after⟩, ?_, ?_, ?_, ?_, hloose⟩
    · rw [htext, hgap]
      simp [Opening.call]
    · rw [hplace]
      simp
    · rw [hgap] at hearly
      simpa using hearly
    · exact .inr ⟨gap, rfl, hstretch⟩

/-- The mark of an optional call stands between a name and the place behind it. -/
theorem endsBefore_skip {node : Node} {r : Text} (h : EndsBefore t node [] c)
    (hrest : c.next.rest = '?' :: '.' :: r) :
    ∃ mark, IsMark mark (c.next.skip 2) ∧ EndsBefore t node mark (c.next.skip 2) := by
  obtain ⟨gap, hgap, -, hstretch⟩ := c.reaches_next
  have hskip : (c.next.skip 2).rest = r := by
    simp [Cursor.skip, hrest]
  rw [hrest] at hgap hstretch
  refine ⟨gap ++ ['?', '.'], .inr ⟨gap, rfl, by rwa [hskip]⟩, fun hname => ?_⟩
  obtain ⟨before, htext⟩ := h hname
  exact ⟨before, by simp [htext, hskip, hgap]⟩

include hg

/-- A call is placed where its callee ends in front of its mark. -/
theorem called_faithfulAt (hshape : Shaped g) {construct : Construct} {callee : Node} {mark : Text}
    (hconstruct : construct ≠ .object) (hcallee : In t callee) (hc : In t c) (hmark : IsMark mark c)
    (hends : EndsBefore t callee mark c) : FaithfulAt t c (called g construct callee) := by
  intro node c' h
  have hopens : ∀ first rest, node.parts = callee :: first :: rest →
      callee.construct = .identifier → first.construct = .object →
      ∃ o : Opening, o.Stands callee.wording t.text first.span.start := by
    intro first rest hparts hname hobject
    obtain ⟨before, htext⟩ := hends hname
    obtain ⟨d, e, hreaches, hpasses, hopensAt⟩ := opens_called hshape h hparts hobject
    exact stands_of_reaches htext hc hmark hreaches hpasses hopensAt
  have hread : Faithful t (withBrackets true (items ")" (expressionOrSpread g))) := by
    mvcgen [hg]
  obtain ⟨_, d, hexpect, harguments⟩ := eq_ok_of_bind h
  obtain ⟨-, hd⟩ := (expect_faithful _).at hc _ _ hexpect
  obtain ⟨arguments, e, hbrackets, hnode⟩ := eq_ok_of_bind harguments
  obtain ⟨hin, he⟩ := hread.at hd _ _ hbrackets
  obtain ⟨rfl, rfl⟩ := eq_of_nodeFrom hnode
  refine ⟨(in_node ..).mpr ⟨⟨fun h => absurd h hconstruct, fun _ => ?_⟩, ?_⟩, he⟩
  · intro callee' first rest hparts
    obtain ⟨rfl, rfl⟩ := List.cons.inj hparts
    exact hopens first rest rfl
  · exact (in_cons ..).mpr ⟨hcallee, hin⟩

/-- An access or a call is placed where the name before it ends in front of it. -/
theorem tail_faithfulAt (hshape : Shaped g) {tails : Tails} {node : Node} (hnode : In t node)
    (hc : In t c) (hends : EndsBefore t node [] c) : FaithfulAt t c (tail g tails node) := by
  have hindexed : Faithful t (indexed g node) := indexed_faithful hg node hnode
  have haccessed : Faithful t (accessed node) := accessed_faithful node hnode
  refine .bind fun _ c hahead => ?_
  obtain ⟨rfl, rfl⟩ := eq_of_ahead hahead
  extract_lets step
  have hstep : Faithful t step := by
    mvcgen [step] <;> simp_all [in_skip, in_next]
  split
  · rename_i x r hquestion
    split
    · exact .none hc
    · refine .bind fun _ d hexpect => ?_
      obtain ⟨-, hd⟩ := (expect_faithful _).at hc _ _ hexpect
      obtain ⟨-, rfl⟩ := eq_of_expect hexpect
      split
      · exact .none hd
      · refine .bind fun _ _ hnext => ?_
        obtain ⟨rfl, rfl⟩ := eq_of_ahead hnext
        split
        · exact (hindexed.at hd).some
        · -- an optional call, whose mark stands between the name and the parenthesis
          obtain ⟨mark, hmark, hbefore⟩ := endsBefore_skip hends hquestion
          exact (called_faithfulAt hg hshape (by decide) hnode hd hmark hbefore).some
        · exact (haccessed.at hd).some
  · refine Faithful.at ?_ hc
    mvcgen [haccessed] <;> simp_all
  · exact (hindexed.at hc).some
  · split
    · exact (called_faithfulAt hg hshape (by decide) hnode hc (.inl rfl) hends).some
    · exact .none hc
  · refine Faithful.at ?_ hc
    mvcgen [hg] <;> simp_all
  · exact hstep.at hc
  · exact hstep.at hc
  · exact .none hc

/-- What follows an operand is placed where a name as the operand ends in front of it, by induction
on the number of steps.  Behind the first step the operand is no name anymore. -/
theorem extendUpTo_faithfulAt (hshape : Shaped g) {tails : Tails} (fuel : Nat) {node : Node}
    (hnode : In t node) (hc : In t c) (hends : EndsBefore t node [] c) :
    FaithfulAt t c (extendUpTo fuel (tail g tails) node) := by
  induction fuel generalizing node c with
  | zero =>
    intro a c' h
    obtain ⟨rfl, rfl⟩ := eq_of_pure h
    exact ⟨hnode, hc⟩
  | succ fuel ih =>
    refine .bind fun o d htail => ?_
    obtain ⟨hin, hd⟩ := tail_faithfulAt hg hshape hnode hc hends o d htail
    cases o with
    | none =>
      intro a c' h
      obtain ⟨rfl, rfl⟩ := eq_of_pure h
      exact ⟨hnode, hd⟩
    | some next =>
      have hother := other_tail tails node c _ d htail next rfl
      exact ih (hin next rfl) hd fun hname => absurd hname hother.1

/-- An operand with the accesses and calls that follow it. -/
theorem followed_faithful (hshape : Shaped g) (tails : Tails) {base : Reader Node}
    (h : Faithful t base) (hends : EndsName base) :
    Faithful t (do let node ← base; extend (tail g tails) node) := by
  refine faithful_iff.mpr fun c a c' hc hr => ?_
  obtain ⟨node, d, hbase, hextend⟩ := eq_ok_of_bind hr
  obtain ⟨hnode, hd⟩ := h.at hc node d hbase
  obtain ⟨_, _, hget, hsteps⟩ := eq_ok_of_bind hextend
  obtain ⟨rfl, rfl⟩ := Prod.mk.inj (Except.ok.inj hget)
  exact extendUpTo_faithfulAt hg hshape _ hnode hd (hends.endsBefore hc hbase) a c' hsteps

end Behind

/-! ## Arrow functions -/

@[spec]
theorem arrowRest_faithful (start : Nat) (parameters : List Node) (h : In t parameters) :
    Faithful t (arrowRest g start parameters) := by
  mvcgen [arrowRest, hg] <;> simp_all

@[spec]
theorem arrow_faithful (start : Nat) : Faithful t (arrow g start) := by
  mvcgen [arrow, hg] <;> simp_all

@[spec]
theorem shortArrow_faithful (start : Nat) : Faithful t (shortArrow g start) := by
  mvcgen [shortArrow, hg] <;> simp_all

@[spec]
theorem asyncArrow_faithful : Faithful t (asyncArrow g) := by
  mvcgen [asyncArrow, hg] <;> simp_all

/-! ## Assignments -/

@[spec]
theorem assigned_faithful (node : Node) (h : In t node) : Faithful t (assigned g node) := by
  mvcgen [assigned, hg] <;> simp_all [in_skip]

@[spec]
theorem constructed_faithful (hshape : Shaped g) : Faithful t (constructed g) := by
  refine bind_faithful remarks_faithful (Gives.any _) fun _ _ _ =>
    bind_faithful (atWord_faithful _) (Gives.any _) fun _ _ _ => ?_
  split
  · exact followed_faithful hg hshape _ (construction_faithful hg) other_construction.tells.name
  · exact followed_faithful hg hshape _ (simpleForm_faithful hg) (tells_simpleForm hshape.element).name

@[spec]
theorem target_faithful (hshape : Shaped g) : Faithful t (target g) := by
  refine bind_faithful remarks_faithful (Gives.any _) fun _ _ _ =>
    bind_faithful (startsWith_faithful _) (Gives.any _) fun _ _ _ => ?_
  split
  · exact refuse_faithful
  · exact followed_faithful hg hshape _ (simpleForm_faithful hg) (tells_simpleForm hshape.element).name

@[spec]
theorem completed_faithful (hshape : Shaped g) (base : Reader Node) (h : Faithful t base)
    (hends : EndsName base) : Faithful t (completed g base) := by
  have heq : completed g base = (do let node ← base; extend (tail g ⟨true, true⟩) node) >>= assigned g := by
    unfold completed
    simp only [bind_assoc]
  rw [heq]
  exact bind_faithful (followed_faithful hg hshape _ h hends) (Gives.any _) fun node hnode _ =>
    assigned_faithful hg node hnode

@[spec]
theorem arrowOr_faithful (hshape : Shaped g) (arrow : Reader (Node × Bool)) (other : Reader Node)
    (harrow : Faithful t arrow) (hgives : Gives (fun p => p.1.construct = .arrow) arrow)
    (hother : Faithful t other) : Faithful t (arrowOr g arrow other) := by
  refine orTry_faithful _ _ (bind_faithful harrow hgives fun p hp hconstruct => ?_) hother
  have hnode : Faithful t (pure p.1 : Reader Node) := by
    mvcgen
    exact ⟨hp.1, by assumption⟩
  have hends : EndsName (pure p.1 : Reader Node) := by
    intro c a c' hr hname
    obtain ⟨rfl, -⟩ := eq_of_pure hr
    rw [hconstruct] at hname
    cases hname
  show Faithful t (if p.2 = true then completed g (pure p.1) else pure p.1)
  split
  · exact completed_faithful hg hshape _ hnode hends
  · exact hnode

@[spec]
theorem bracketForm_faithful (hshape : Shaped g) : Faithful t (bracketForm g) := by
  have hname := (tells_simpleForm hshape.element).name
  mvcgen [bracketForm, hg] <;> simp_all

/-! ## Operations -/

omit hg in
@[spec]
theorem operandFollows_faithful : Faithful t operandFollows := by
  unfold operandFollows
  apply Triple.bind _ _ ahead_faithful
  intro c
  split
  · mvcgen
    simp_all
  · split
    · mvcgen
      simp_all
    · split
      · mvcgen
        simp_all
      · mvcgen <;> simp_all

@[spec]
theorem unaryForm_faithful (construct : Construct) (h : construct.isPlain = true) (length : Nat) :
    Faithful t (unaryForm g construct length) := by
  mvcgen [unaryForm, hg] <;> simp_all [in_skip]

@[spec]
theorem yieldForm_faithful : Faithful t (yieldForm g) := by
  mvcgen [yieldForm, hg] <;> simp_all

@[spec]
theorem wordOperand_faithful (hshape : Shaped g) (word : Text) :
    Faithful t (wordOperand g word) := by
  have hname := (tells_simpleForm hshape.element).name
  have hidentifier := tells_identifier.name
  have hshort := gives_shortArrow (g := g)
  have hasync := gives_asyncArrow (g := g)
  mvcgen [wordOperand, hg] <;> simp_all

@[spec]
theorem operand_faithful (hshape : Shaped g) : Faithful t (operand g) := by
  have hname := (tells_simpleForm hshape.element).name
  have harrow := gives_arrow (g := g)
  mvcgen [operand, hg] <;> simp_all

@[spec]
theorem ternary_faithful (test : Node) (h : In t test) : Faithful t (ternary g test) := by
  mvcgen [ternary, hg] <;> simp_all

@[spec]
theorem operation_faithful (least : Nat) (left : Node) (h : In t left) :
    Faithful t (operation g least left) := by
  mvcgen [operation, hg] <;> simp_all +zetaDelta [in_skip]

@[spec]
theorem expression_faithful (least : Nat) : Faithful t (expression g least) := by
  mvcgen [expression, hg] <;> simp_all

@[spec]
theorem sequence_faithful : Faithful t (sequence g) := by
  mvcgen [sequence, hg] <;> simp_all

/-! ## Declarations -/

@[spec]
theorem declarators_faithful : Faithful t (declarators g) := by
  mvcgen [declarators, hg] <;> simp_all

@[spec]
theorem declaration_faithful (word : String) : Faithful t (declaration g word) := by
  mvcgen [declaration, hg] <;> simp_all

@[spec]
theorem functionDeclaration_faithful : Faithful t (functionDeclaration g) := by
  mvcgen [functionDeclaration, hg] <;> simp_all

@[spec]
theorem classDeclaration_faithful : Faithful t (classDeclaration g) := by
  mvcgen [classDeclaration, hg] <;> simp_all

@[spec]
theorem expressionStatement_faithful : Faithful t (expressionStatement g) := by
  mvcgen [expressionStatement, hg] <;> simp_all

/-! ## Control flow -/

@[spec]
theorem blockStatement_faithful : Faithful t (blockStatement g) := by
  mvcgen [blockStatement, hg] <;> simp_all

@[spec]
theorem ifStatement_faithful : Faithful t (ifStatement g) := by
  mvcgen [ifStatement, hg] <;> simp_all

@[spec]
theorem itemsHead_faithful : Faithful t (itemsHead g) := by
  mvcgen [itemsHead, List.anyM, hg] <;> simp_all

@[spec]
theorem counterHead_faithful : Faithful t (counterHead g) := by
  mvcgen [counterHead, hg] <;> simp_all

@[spec]
theorem forStatement_faithful : Faithful t (forStatement g) := by
  mvcgen [forStatement, hg] <;> simp_all

@[spec]
theorem guarded_faithful (word : String) : Faithful t (guarded g word) := by
  mvcgen [guarded, hg] <;> simp_all

@[spec]
theorem doStatement_faithful : Faithful t (doStatement g) := by
  mvcgen [doStatement, hg] <;> simp_all

@[spec]
theorem switchCase_faithful : Faithful t (switchCase g) := by
  mvcgen [switchCase, hg] <;> simp_all

@[spec]
theorem switchStatement_faithful : Faithful t (switchStatement g) := by
  mvcgen [switchStatement, hg] <;> simp_all

@[spec]
theorem tryStatement_faithful : Faithful t (tryStatement g) := by
  mvcgen [tryStatement, hg] <;> simp_all

omit hg in
@[spec]
theorem bareJump_faithful (word : String) : Faithful t (jump word none) := by
  mvcgen [jump] <;> simp_all

omit hg in
@[spec]
theorem jump_faithful (word : String) (value : Reader Node) (h : Faithful t value) :
    Faithful t (jump word (some value)) := by
  mvcgen [jump, h] <;> simp_all

/-! ## Modules -/

omit hg in
theorem namedItems_faithful : Faithful t namedItems := by
  mvcgen [namedItems] <;> simp_all

@[spec]
theorem moduleName_faithful : Faithful t (moduleName g) := by
  mvcgen [moduleName, hg] <;> simp_all

@[spec]
theorem importStatement_faithful : Faithful t (importStatement g) := by
  have hitems : Faithful t namedItems := namedItems_faithful
  mvcgen [importStatement, hitems, hg] <;> simp_all

@[spec]
theorem exportStatement_faithful : Faithful t (exportStatement g) := by
  have hitems : Faithful t namedItems := namedItems_faithful
  mvcgen [exportStatement, List.foldr, hitems, hg] <;> simp_all

/-! ## Statements -/

@[spec]
theorem labeled_faithful : Faithful t (labeled g) := by
  mvcgen [labeled, hg] <;> simp_all

@[spec]
theorem otherStatement_faithful : Faithful t (otherStatement g) := by
  mvcgen [otherStatement, hg]

@[spec]
theorem wordStatement_faithful (word : Text) : Faithful t (wordStatement g word) := by
  mvcgen [wordStatement, hg]

@[spec]
theorem statement_faithful : Faithful t (statement g) := by
  mvcgen [statement, hg] <;> simp_all

end Productions

end Reader

/-! ## Scripts -/

/-- Every rule of the grammar is faithful, whatever the depth of calls. -/
theorem grammar_faithful (t : Source) (depth : Nat) (rule : Rule) :
    Reader.Faithful t (grammar depth rule) := by
  induction depth generalizing rule with
  | zero => exact Reader.refuse_faithful
  | succ depth ih =>
    cases rule with
    | sequence => exact Reader.sequence_faithful ih
    | expression rank => exact Reader.expression_faithful ih rank
    | operand => exact Reader.operand_faithful ih (shaped_grammar depth)
    | target => exact Reader.target_faithful ih (shaped_grammar depth)
    | constructed => exact Reader.constructed_faithful ih (shaped_grammar depth)
    | pattern => exact Reader.pattern_faithful ih
    | element => exact Reader.element_faithful ih
    | statement => exact Reader.statement_faithful ih

/-- The statements that are read from a place in a text are placed there. -/
theorem in_statementsFrom {t : Source} {g : Grammar} (hg : ∀ rule, Reader.Faithful t (g rule))
    (fuel : Nat) {c : Cursor} (hc : In t c) : In t (statementsFrom g fuel c).1 := by
  induction fuel generalizing c with
  | zero => exact in_nil
  | succ fuel ih =>
    unfold statementsFrom
    cases hremarks : (Reader.remarks c : Except Nat (List Node × Cursor)) with
    | error place => exact in_nil
    | ok read =>
      obtain ⟨set, c'⟩ := read
      obtain ⟨hset, hc'⟩ := Reader.faithful_iff.mp Reader.remarks_faithful _ _ _ hc hremarks
      dsimp only
      split
      · exact hset
      · cases hstatement : (g .statement c' : Except Nat (Node × Cursor)) with
        | error place => exact hset
        | ok read =>
          obtain ⟨node, c''⟩ := read
          obtain ⟨hnode, hc''⟩ := Reader.faithful_iff.mp (hg _) _ _ _ hc' hstatement
          exact (in_append _ _).mpr ⟨hset, (in_cons _ _).mpr ⟨hnode, ih hc''⟩⟩

/-- The statements that are read in a script are placed there. -/
theorem in_parse (t : Text) : In (Source.mk t) (parse t).statements := by
  have hstart : In (Source.mk t) (Cursor.mk t 0 false) := ⟨[], rfl, rfl⟩
  unfold parse
  exact in_statementsFrom (grammar_faithful ⟨t⟩ _) _ (in_skip hstart (interpreterLine t))

/-- **Object literals start at a brace.**  Every object literal that is read in a script starts at an
opening brace of the script. -/
theorem braceAt_of_parse {t : Text} {node : Node} (h : node ∈ Node.allOf (parse t).statements)
    (hobject : node.construct = .object) : BraceAt t node.span.start := by
  obtain ⟨statement, hmem, hnode⟩ := Node.mem_allOf.mp h
  exact (in_parse t statement hmem node hnode).1 hobject

/-- **Calls open.**  Every call of a name that is read in a script, optional or not, with an object
literal as its first argument opens in the script with the name, its mark, and the brace of the literal. -/
theorem opensWith_of_parse {t : Text} {node : Node} (h : node ∈ Node.allOf (parse t).statements)
    (hcall : node.construct = .call ∨ node.construct = .optionalCall) : OpensWith t node.parts := by
  obtain ⟨statement, hmem, hnode⟩ := Node.mem_allOf.mp h
  exact (in_parse t statement hmem node hnode).2 hcall

end DataBinding.Script
