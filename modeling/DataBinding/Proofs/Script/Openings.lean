/-
# How calls open

What stands between a name that is called and an object literal as its first argument: blanks and
comments, the mark of the call, and behind it again blanks and comments, besides commas for empty
places.  Two facts about readers carry this.  A reader that gives an identifier stops directly behind
it, and one that gives an object literal passes only such a stretch before the literal's brace.

* `Stretch`         : what may stand between two tokens.
* `EndsName`        : a reader that stops behind the identifier it gives.
* `OpensObject`     : a reader that passes a stretch before the object literal it gives.
* `shaped_grammar`  : the operands and expressions of the grammar do.
* `opens_called`    : the stretches of a call.
-/
import DataBinding.Proofs.Lexeme.Lookahead
import DataBinding.Proofs.Text.Utf8
import DataBinding.Proofs.Script.Runs

namespace DataBinding.Script

/-! ## Stretches between tokens -/

/-- What may stand between two tokens: blanks and comments, and where it is loose also commas and
lines set aside.  The second text is what follows. -/
inductive Stretch (loose : Bool) : Text → Text → Prop
  | nil {t : Text} : Stretch loose [] t
  | blank {c : Char} {g t : Text} (blank : Lexeme.isSpacing c = true) (rest : Stretch loose g t) :
      Stretch loose (c :: g) t
  | comment {w g t : Text} (comment : Lexeme.Comment w (g ++ t)) (rest : Stretch loose g t) :
      Stretch loose (w ++ g) t
  | comma {g t : Text} (allowed : loose = true) (rest : Stretch loose g t) :
      Stretch loose (',' :: g) t
  | remark {w g t : Text} (allowed : loose = true) (remark : Lexeme.SetAside w (g ++ t))
      (rest : Stretch loose g t) : Stretch loose (w ++ g) t

namespace Stretch

variable {loose : Bool} {g g' t : Text}

/-- Stretches are joined. -/
theorem append (h : Stretch loose g (g' ++ t)) (h' : Stretch loose g' t) :
    Stretch loose (g ++ g') t := by
  generalize hrest : g' ++ t = r at h
  induction h with
  | nil => exact h'
  | blank blank _ ih => exact .blank blank (ih hrest)
  | comma allowed _ ih => exact .comma allowed (ih hrest)
  | comment comment _ ih =>
    rw [List.append_assoc]
    refine .comment ?_ (ih hrest)
    rwa [List.append_assoc, hrest]
  | remark allowed remark _ ih =>
    rw [List.append_assoc]
    refine .remark allowed ?_ (ih hrest)
    rwa [List.append_assoc, hrest]

/-- Blanks and comments are a loose stretch as well. -/
theorem loosen (h : Stretch loose g t) : Stretch true g t := by
  induction h with
  | nil => exact .nil
  | blank blank _ ih => exact .blank blank ih
  | comment comment _ ih => exact .comment comment ih
  | comma _ _ ih => exact .comma rfl ih
  | remark _ remark _ ih => exact .remark rfl remark ih

end Stretch

/-- The characters of a comment are passed. -/
theorem gapLength_skip (w t : Text) (wide : Bool) :
    gapLength w.length wide (w ++ t) =
      (w.length + (gapLength 0 wide t).1, (gapLength 0 wide t).2) := by
  induction w with
  | nil => simp
  | cons c w ih =>
    rw [List.cons_append, List.length_cons, gapLength, ih]
    simp only [Prod.mk.injEq, and_true]
    omega

/-- What is passed before the next token is a stretch. -/
theorem stretch_gapLength (t : Text) (wide : Bool) :
    Stretch false (t.take (gapLength 0 wide t).1) (t.drop (gapLength 0 wide t).1) := by
  induction hlength : t.length using Nat.strongRecOn generalizing t wide with
  | ind k ih =>
    subst hlength
    cases t with
    | nil => exact .nil
    | cons c t =>
      rw [gapLength]
      split
      · rename_i hblank
        exact .blank hblank (ih t.length (Nat.lt_succ_self _) t _ rfl)
      · split
        · rename_i n hcomment
          obtain ⟨w, r, hsplit, hw, rfl⟩ := Lexeme.comment?_eq_some_iff.mp hcomment
          obtain ⟨u, rfl, -⟩ := hw.head?
          rw [List.cons_append] at hsplit
          obtain ⟨rfl, rfl⟩ := List.cons.inj hsplit
          -- behind the comment the gap goes on as at its start
          have hskip : gapLength (('/' :: u).length - 1) true (u ++ r) = _ := gapLength_skip u r true
          have hshort : r.length < ('/' :: (u ++ r)).length := by
            rw [List.length_cons, List.length_append]
            omega
          have hrest := ih r.length hshort r true rfl
          rw [hskip]
          have htake : ('/' :: (u ++ r)).take (u.length + (gapLength 0 true r).1 + 1) =
              ('/' :: u) ++ r.take (gapLength 0 true r).1 := by
            rw [List.take_succ_cons, List.take_length_add_append, List.cons_append]
          have hdrop : ('/' :: (u ++ r)).drop (u.length + (gapLength 0 true r).1 + 1) =
              r.drop (gapLength 0 true r).1 := by
            rw [List.drop_succ_cons, List.drop_length_add_append]
          rw [htake, hdrop]
          exact .comment (by rwa [List.take_append_drop]) hrest
        · exact .nil

/-! ## Places -/

namespace Cursor

variable {loose : Bool} {c d e : Cursor}

/-- A stretch leads from one place to another one. -/
def Reaches (loose : Bool) (c d : Cursor) : Prop :=
  ∃ g, c.rest = g ++ d.rest ∧ d.position = c.position + Text.byteLength g ∧ Stretch loose g d.rest

theorem Reaches.refl (c : Cursor) : c.Reaches loose c :=
  ⟨[], rfl, rfl, .nil⟩

theorem Reaches.trans (h : c.Reaches loose d) (h' : d.Reaches loose e) : c.Reaches loose e := by
  obtain ⟨g, hrest, hposition, hg⟩ := h
  obtain ⟨g', hrest', hposition', hg'⟩ := h'
  refine ⟨g ++ g', ?_, ?_, (hrest' ▸ hg).append hg'⟩
  · rw [hrest, hrest', List.append_assoc]
  · rw [hposition', hposition, Text.byteLength_append, Nat.add_assoc]

theorem Reaches.loosen (h : c.Reaches loose d) : c.Reaches true d := by
  obtain ⟨g, hrest, hposition, hg⟩ := h
  exact ⟨g, hrest, hposition, hg.loosen⟩

/-- Blanks and comments lead to the next token. -/
theorem reaches_next (c : Cursor) : c.Reaches false c.next :=
  ⟨_, (List.take_append_drop ..).symm, rfl, stretch_gapLength c.rest true⟩

/-- A loose stretch leads from the place to a brace at the given byte. -/
def OpensAt (c : Cursor) (place : Nat) : Prop :=
  ∃ d after, c.Reaches true d ∧ d.rest = '\x7b' :: after ∧ d.position = place

theorem Reaches.opensAt {place : Nat} (h : c.Reaches true d) (h' : d.OpensAt place) :
    c.OpensAt place := by
  obtain ⟨e, after, hreaches, hrest⟩ := h'
  exact ⟨e, after, h.trans hreaches, hrest⟩

/-- No blank and no comment stands where a token is next. -/
theorem next_eq_self {x : Char} {r : Text} (hrest : c.rest = x :: r)
    (hspacing : Lexeme.isSpacing x = false) (hcomment : Lexeme.comment? (x :: r) = none) :
    c.next = c := by
  have hgap : (gapLength 0 true c.rest).1 = 0 := by
    rw [hrest, gapLength, hspacing, if_neg Bool.false_ne_true, hcomment]
  rw [next, hgap]
  simp [skip, Text.byteLength]

/-- One character leads from a place to the next one. -/
def Passes (x : Char) (c d : Cursor) : Prop :=
  c.rest = x :: d.rest ∧ d.position = c.position + x.utf8Size

/-- A mark that stands ahead is passed. -/
theorem passes_skip {x : Char} {lead : String} (hlead : lead.toList = [x])
    (h : c.rest.startsWith lead.toList = true) : c.Passes x (c.skip lead.length) := by
  have hlength : lead.length = 1 := by
    rw [← String.length_toList, hlead]
    rfl
  rw [hlead] at h
  unfold Passes skip
  cases hrest : c.rest with
  | nil => simp [hrest, Text.startsWith, Text.dropLead?] at h
  | cons y r =>
    obtain rfl : x = y := by simpa [hrest, Text.startsWith, Text.dropLead?] using h
    simp [hlength, Text.byteLength]

/-- A comma is a loose stretch. -/
theorem Passes.reaches (h : c.Passes ',' d) : c.Reaches true d :=
  ⟨[','], h.1, h.2, .comma rfl .nil⟩

end Cursor

namespace Reader

variable {α : Type} {c c' : Cursor}

/-! ## Identifiers and object literals -/

/-- A reader that gives an identifier stops directly behind it. -/
def EndsName (r : Reader Node) : Prop :=
  ∀ c a c', r c = .ok (a, c') → a.construct = .identifier →
    ∃ before, c.rest = before ++ (a.wording ++ c'.rest)

/-- A reader that gives an object literal passes a stretch before the literal's brace. -/
def OpensObject (r : Reader Node) : Prop :=
  ∀ c a c', r c = .ok (a, c') → a.construct = .object → c.OpensAt a.span.start

/-- What a reader tells about an identifier or an object literal that it gives. -/
structure Tells (r : Reader Node) : Prop where
  name : EndsName r
  object : OpensObject r

section Openings

variable {r r' : Reader Node} {g : Grammar}

theorem OpensObject.of_ne (h : Gives (fun a => a.construct ≠ .object) r) : OpensObject r :=
  fun c a c' hr hobject => absurd hobject (h c a c' hr)

theorem OpensObject.orTry (h : OpensObject r) (h' : OpensObject r') : OpensObject (orTry r r') :=
  fun c a c' hr => (eq_ok_of_orTry hr).elim (h c a c') (h' c a c')

theorem OpensObject.ahead {f : Cursor → Reader Node} (h : ∀ d, OpensObject (f d)) :
    OpensObject (ahead >>= f) := by
  intro c a c' hr
  obtain ⟨_, _, hahead, hf⟩ := eq_ok_of_bind hr
  obtain ⟨rfl, rfl⟩ := eq_of_ahead hahead
  exact h _ _ a c' hf

/-- What is read behind a node may keep it. -/
theorem OpensObject.keep {f : Node → Reader Node} (h : OpensObject r)
    (hf : ∀ node, Gives (· = node) (f node)) : OpensObject (r >>= f) := by
  intro c a c' hr
  obtain ⟨node, d, hnode, hkept⟩ := eq_ok_of_bind hr
  obtain rfl := hf node d a c' hkept
  exact h c a d hnode

theorem Gives.tells (h : Gives IsOther r) : Tells r where
  name := fun c a c' hr hname => absurd hname (h c a c' hr).1
  object := .of_ne fun c a c' hr => (h c a c' hr).2

theorem Tells.orTry (h : Tells r) (h' : Tells r') : Tells (orTry r r') where
  name := fun c a c' hr => (eq_ok_of_orTry hr).elim (h.name c a c') (h'.name c a c')
  object := h.object.orTry h'.object

theorem Tells.ahead {f : Cursor → Reader Node} (h : ∀ d, Tells (f d)) : Tells (ahead >>= f) where
  name := by
    intro c a c' hr
    obtain ⟨_, _, hahead, hf⟩ := eq_ok_of_bind hr
    obtain ⟨rfl, rfl⟩ := eq_of_ahead hahead
    exact (h _).name _ a c' hf
  object := .ahead fun d => (h d).object

/-! ### Lines set aside -/

/-- A line set aside is passed as a remark. -/
theorem reaches_remark {length : Nat} {node : Node} {c : Cursor}
    (hremark : Lexeme.markupRemark? c.rest = some length)
    (h : leaf .remark length c = .ok (node, c')) :
    c.Reaches true c' ∧ node.construct = .remark := by
  obtain ⟨rfl, rfl⟩ := eq_of_leaf h
  obtain ⟨w, r, hrest, hw, rfl⟩ := Lexeme.markupRemark?_eq_some_iff.mp hremark
  have hself : c.next = c := by
    obtain ⟨mark, u, rfl | rfl, rfl, -⟩ := hw
    · exact Cursor.next_eq_self hrest (by decide) rfl
    · exact Cursor.next_eq_self hrest (by decide) rfl
  rw [hself]
  refine ⟨⟨w ++ [], ?_, ?_, ?_⟩, rfl⟩
  · simp [Cursor.skip, hrest]
  · simp [Cursor.skip, hrest]
  · refine .remark rfl ?_ .nil
    simpa [Cursor.skip, hrest] using hw

/-- A step over a line set aside passes a stretch and gives a remark. -/
def remarkStep : Reader (Option Node) := do
  let c ← get
  let (n, wide) := gapLength 0 true c.rest
  let c := c.skip n
  match if wide then Lexeme.markupRemark? c.rest else none with
  | some length =>
    moveTo c
    some <$> leaf .remark length
  | none => pure none

theorem remarks_eq : remarks = many remarkStep := rfl

theorem reaches_remarkStep {o : Option Node} (h : remarkStep c = .ok (o, c')) :
    c.Reaches true c' ∧ ∀ node ∈ o, node.construct = .remark := by
  obtain ⟨_, _, hget, hmatch⟩ := eq_ok_of_bind h
  obtain ⟨rfl, rfl⟩ := Prod.mk.inj (Except.ok.inj hget)
  have hnext : (match if (gapLength 0 true c.rest).2 then Lexeme.markupRemark? c.next.rest else none with
      | some length => do
        moveTo c.next
        some <$> leaf .remark length
      | none => pure none : Reader (Option Node)) c = .ok (o, c') := hmatch
  generalize hset : (if (gapLength 0 true c.rest).2 then Lexeme.markupRemark? c.next.rest else none) =
    found at hnext
  cases found with
  | some length =>
    have hremark : Lexeme.markupRemark? c.next.rest = some length := by
      split at hset
      · exact hset
      · cases hset
    obtain ⟨_, _, hmove, hleaf⟩ := eq_ok_of_bind hnext
    obtain rfl := eq_of_moveTo hmove
    obtain ⟨node, rfl, hnode⟩ := eq_ok_of_map hleaf
    obtain ⟨hreaches, hconstruct⟩ := reaches_remark hremark hnode
    refine ⟨c.reaches_next.loosen.trans hreaches, ?_⟩
    rintro _ ⟨⟩
    exact hconstruct
  | none =>
    obtain ⟨rfl, rfl⟩ := eq_of_pure hnext
    exact ⟨.refl _, fun _ h => by cases h⟩

/-- Lines set aside are passed as remarks. -/
theorem reaches_remarks {set : List Node} (h : remarks c = .ok (set, c')) :
    c.Reaches true c' ∧ ∀ node ∈ set, node.construct = .remark := by
  rw [remarks_eq] at h
  have hsteps := steps_of_many h
  clear h
  induction hsteps with
  | limit => exact ⟨.refl _, fun _ h => absurd h List.not_mem_nil⟩
  | stop last => exact ⟨(reaches_remarkStep last).1, fun _ h => absurd h List.not_mem_nil⟩
  | more first _ ih =>
    obtain ⟨hreaches, ha⟩ := reaches_remarkStep first
    exact ⟨hreaches.trans ih.1, List.forall_mem_cons.mpr ⟨ha _ rfl, ih.2⟩⟩

/-- Lines set aside may stand before an object literal. -/
theorem OpensObject.remarks {f : List Node → Reader Node} (h : ∀ set, OpensObject (f set)) :
    OpensObject (remarks >>= f) := by
  intro c a c' hr hobject
  obtain ⟨set, d, hset, hf⟩ := eq_ok_of_bind hr
  exact (reaches_remarks hset).1.opensAt (h set d a c' hf hobject)

/-! ### Items -/

/-- A step over an item between brackets. -/
def itemStep (closer : String) (item : Reader Node) : Reader (Option (List Node)) := do
  let set ← remarks
  if !set.isEmpty then return some set
  else if ← startsWith closer then return none
  else if ← take? "," then return some []
  else
    let node ← item
    unless (← startsWith ",") || (← startsWith closer) do refuse
    return some [node]

theorem items_eq (closer : String) (item : Reader Node) : items closer item = (do
    let groups ← many (itemStep closer item)
    expect closer
    return groups.flatten) := rfl

/-- A step gives lines set aside, passes a comma, or reads an item. -/
theorem cases_of_itemStep {closer : String} {item : Reader Node} {group : List Node}
    (h : itemStep closer item c = .ok (some group, c')) :
    (∃ node rest, group = node :: rest ∧ node.construct = .remark) ∨
      (group = [] ∧ c.Reaches true c') ∨
      ∃ node d e, group = [node] ∧ c.Reaches true d ∧ item d = .ok (node, e) := by
  obtain ⟨set, d, hremarks, hset⟩ := eq_ok_of_bind h
  obtain ⟨hreaches, hconstruct⟩ := reaches_remarks hremarks
  split at hset
  · rename_i hne
    obtain ⟨hgroup, rfl⟩ := eq_of_pure hset
    obtain rfl := Option.some.inj hgroup
    cases group with
    | nil => simp at hne
    | cons node rest => exact .inl ⟨node, rest, rfl, hconstruct node List.mem_cons_self⟩
  · -- without such lines there is the closer, a comma or an item
    obtain ⟨closed, _, hcloser, hclosed⟩ := eq_ok_of_bind hset
    obtain ⟨-, rfl⟩ := eq_of_startsWith hcloser
    rename_i d
    split at hclosed
    · obtain ⟨hnone, -⟩ := eq_of_pure hclosed
      cases hnone
    · obtain ⟨comma, e, htake, hcomma⟩ := eq_ok_of_bind hclosed
      obtain ⟨rfl, hstarts, rfl⟩ | ⟨rfl, rfl⟩ := cases_of_take? htake
      · obtain ⟨hgroup, rfl⟩ := eq_of_pure hcomma
        obtain rfl := Option.some.inj hgroup
        have hpassed := (Cursor.passes_skip rfl hstarts).reaches
        exact .inr (.inl ⟨rfl, hreaches.trans (d.reaches_next.loosen.trans hpassed)⟩)
      · obtain ⟨node, f, hitem, hbehind⟩ := eq_ok_of_bind hcomma
        obtain ⟨_, _, -, hbehind'⟩ := eq_ok_of_bind hbehind
        obtain ⟨_, _, -, hclose⟩ := eq_ok_of_bind hbehind'
        have hgroup : group = [node] := by
          split at hclose
          · exact (Option.some.inj (eq_of_pure hclose).1)
          · obtain ⟨_, _, hrefuse, -⟩ := eq_ok_of_bind hclose
            exact absurd hrefuse ne_ok_of_refuse
        exact .inr (.inr ⟨node, _, f, hgroup, hreaches, hitem⟩)

/-- The first item between brackets stands behind a stretch, if it is no line set aside. -/
theorem first_of_items {closer : String} {item : Reader Node} {node : Node} {nodes : List Node}
    (h : items closer item c = .ok (node :: nodes, c')) (hremark : node.construct ≠ .remark) :
    ∃ d e, c.Reaches true d ∧ item d = .ok (node, e) := by
  rw [items_eq] at h
  obtain ⟨groups, d, hmany, hclose⟩ := eq_ok_of_bind h
  obtain ⟨_, _, -, hpure⟩ := eq_ok_of_bind hclose
  obtain ⟨hflatten, -⟩ := eq_of_pure hpure
  have hsteps := steps_of_many hmany
  clear h hmany hclose hpure
  induction hsteps with
  | limit => cases hflatten
  | stop => cases hflatten
  | @more c d e group groups first _ ih =>
    obtain ⟨first', rest', rfl, hfirst'⟩ | ⟨rfl, hreaches⟩ | ⟨node', d', e', rfl, hreaches, hitem⟩ :=
      cases_of_itemStep first
    · obtain ⟨rfl, -⟩ := List.cons.inj hflatten
      exact absurd hfirst' hremark
    · obtain ⟨d'', e'', hd'', hitem⟩ := ih hflatten
      exact ⟨d'', e'', hreaches.trans hd'', hitem⟩
    · obtain ⟨rfl, -⟩ := List.cons.inj hflatten
      exact ⟨d', e', hreaches, hitem⟩

/-! ### Simple forms -/

/-- An identifier that is read ends where its reader stops. -/
theorem endsName_leaf (construct : Construct) (length : Nat) : EndsName (leaf construct length) := by
  intro c a c' hr _
  obtain ⟨rfl, rfl⟩ := eq_of_leaf hr
  obtain ⟨g, hrest, -⟩ := c.reaches_next
  exact ⟨g, by simp [Node.wording, Cursor.skip, hrest]⟩

theorem tells_identifier : Tells identifier where
  name := by
    intro c a c' hr hname
    obtain ⟨found, d, hpeek, hfound⟩ := eq_ok_of_bind hr
    obtain ⟨_, _, hahead, hpure⟩ := eq_ok_of_bind hpeek
    obtain ⟨rfl, rfl⟩ := eq_of_ahead hahead
    obtain ⟨-, rfl⟩ := eq_of_pure hpure
    cases found with
    | none => exact absurd hfound ne_ok_of_refuse
    | some word =>
      dsimp only at hfound
      split at hfound
      · exact absurd hfound ne_ok_of_refuse
      · exact endsName_leaf _ _ _ _ _ hfound hname
  object := by
    refine .of_ne (.bind fun found => ?_)
    cases found with
    | none => exact .refuse
    | some word =>
      refine .ite .refuse fun c a c' hr => ?_
      obtain ⟨rfl, -⟩ := eq_of_leaf hr
      show (if _ then Construct.undefined else Construct.identifier) ≠ Construct.object
      split <;> decide

/-- An object literal that is read starts at the brace that is next. -/
theorem tells_object : Tells (object g) where
  name := by
    have hconstruct : Gives (fun a => a.construct ≠ .identifier) (object g) :=
      .bind fun _ => .bind fun _ => .bind fun _ => gives_nodeFrom fun _ h => by cases h
    exact fun c a c' hr hname => absurd hname (hconstruct c a c' hr)
  object := by
    intro c a c' hr _
    obtain ⟨_, _, hahead, hopen⟩ := eq_ok_of_bind hr
    obtain ⟨rfl, rfl⟩ := eq_of_ahead hahead
    obtain ⟨_, d, hexpect, hmembers⟩ := eq_ok_of_bind hopen
    obtain ⟨hstarts, -⟩ := eq_of_expect hexpect
    obtain ⟨_, _, -, hnode⟩ := eq_ok_of_bind hmembers
    obtain ⟨rfl, -⟩ := eq_of_nodeFrom hnode
    exact ⟨_, _, (Cursor.reaches_next _).loosen, (Cursor.passes_skip rfl hstarts).1, rfl⟩

/-- A form that starts with a word is a name or another node. -/
theorem tells_wordForm (word : Text) : Tells (wordForm g word) := by
  refine .ahead fun c => ?_
  split
  · exact (other_leaf (by decide)).tells
  · exact (other_leaf (by decide)).tells
  · exact (other_leaf (by decide)).tells
  · exact (other_leaf (by decide)).tells
  · exact (other_leaf (by decide)).tells
  · exact (other_function _ _).tells
  · exact (other_classLiteral _ _ _).tells
  · exact other_construction.tells
  · exact other_importOperand.tells
  · exact Tells.orTry (Gives.bind fun _ => other_function _ _).tells tells_identifier
  · exact tells_identifier

/-- A simple form. -/
theorem tells_simpleForm (helement : Gives IsOther (g .element)) : Tells (simpleForm g) := by
  refine .ahead fun c => ?_
  split
  · exact Gives.refuse.tells
  · exact other_parenthesized.tells
  · exact (Gives.bind fun _ => .bind fun _ => other_nodeFrom (by decide)).tells
  · exact tells_object
  · exact other_template.tells
  · exact other_regex.tells
  · exact helement.tells
  · exact (Gives.whole (.bind fun _ => other_classLiteral _ _ _)).tells
  · split
    · exact (other_leaf (by decide)).tells
    · split
      · exact (other_leaf (by decide)).tells
      · split
        · exact tells_wordForm _
        · exact Gives.refuse.tells

/-! ### Operands and expressions -/

/-- An operand with what follows it opens as the operand does. -/
theorem opensObject_completed (h : OpensObject r) : OpensObject (completed g r) := by
  intro c a c' hr hobject
  obtain ⟨operand, d, hoperand, rfl | hother⟩ := cases_of_completed hr
  · exact h c _ d hoperand hobject
  · exact absurd hobject hother.2

/-- An arrow function with what follows it is another node. -/
theorem opensObject_arrowOr {arrow : Reader (Node × Bool)}
    (harrow : Gives (fun p => p.1.construct = .arrow) arrow) (h : OpensObject r) :
    OpensObject (arrowOr g arrow r) := by
  refine .orTry (Gives.tells (.behind harrow fun p hp => ?_)).object h
  have hother : IsOther p.1 := by
    rw [IsOther, hp]
    decide
  refine .ite (fun c a c' hr => ?_) (.pure hother)
  obtain ⟨_, d, hpure, hnode⟩ := cases_of_completed hr
  obtain ⟨rfl, -⟩ := eq_of_pure hpure
  exact hnode.elim (fun h => h ▸ hother) id

theorem opensObject_bracketForm (helement : Gives IsOther (g .element)) :
    OpensObject (bracketForm g) := by
  have hform : OpensObject (completed g (simpleForm g)) :=
    opensObject_completed (tells_simpleForm helement).object
  refine .ahead fun c => .orTry (hform.keep fun node => ?_) (Gives.tells ?_).object
  · refine .bind fun _ => .bind fun _ => .bind fun _ => ?_
    exact .ite (.bind fun _ => .pure rfl) (.pure rfl)
  · have hvalue : ∀ left, Gives IsOther (do
        let value ← g (.expression 0)
        nodeFrom .assignment c.position [left, value]) := fun _ =>
      .bind fun _ => other_nodeFrom (by decide)
    exact .bind fun left => .bind fun _ => .ite (hvalue left) (.bind fun _ => hvalue left)

theorem other_unaryForm {construct : Construct} (h : construct ≠ .identifier ∧ construct ≠ .object)
    (length : Nat) : Gives IsOther (unaryForm g construct length) :=
  .bind fun _ => .bind fun _ => .bind fun _ => other_nodeFrom h

theorem other_yieldForm : Gives IsOther (yieldForm g) := by
  have hvalue : ∀ start, Gives IsOther (do
      let value ← g (.expression 0)
      nodeFrom .yield start [value]) := fun _ =>
    .bind fun _ => other_nodeFrom (by decide)
  refine .bind fun _ => .bind fun _ => .bind fun _ => .ite (hvalue _) (.bind fun _ => .ite ?_ ?_)
  · exact other_nodeFrom (by decide)
  · exact .bind fun _ => .ite (hvalue _) (other_nodeFrom (by decide))

theorem opensObject_wordOperand (helement : Gives IsOther (g .element)) (word : Text) :
    OpensObject (wordOperand g word) := by
  have hform : OpensObject (completed g (simpleForm g)) :=
    opensObject_completed (tells_simpleForm helement).object
  have hshort : ∀ start, OpensObject
      (arrowOr g (shortArrow g start) (completed g (simpleForm g))) := fun start =>
    opensObject_arrowOr (gives_shortArrow start) hform
  refine .ahead fun c => ?_
  split
  · exact (other_unaryForm (by decide) _).tells.object
  · exact (other_unaryForm (by decide) _).tells.object
  · exact (other_unaryForm (by decide) _).tells.object
  · exact other_yieldForm.tells.object
  · refine .orTry (Gives.tells ?_).object (opensObject_completed tells_identifier.object)
    have hawait : Gives IsOther (do
        moveTo c
        unaryForm g .await 5) := .bind fun _ => other_unaryForm (by decide) _
    exact .bind fun _ => .bind fun _ => .ite hawait (.bind fun _ => hawait)
  · exact opensObject_arrowOr gives_asyncArrow (hshort _)
  · split
    · exact hform
    · exact hshort _

theorem opensObject_operand (helement : Gives IsOther (g .element)) : OpensObject (operand g) := by
  have hform : OpensObject (completed g (simpleForm g)) :=
    opensObject_completed (tells_simpleForm helement).object
  refine .remarks fun _ => .ahead fun c => ?_
  split
  · exact opensObject_arrowOr (gives_arrow _) hform
  · exact opensObject_bracketForm helement
  · exact opensObject_bracketForm helement
  · exact (other_unaryForm (by decide) _).tells.object
  · exact (other_unaryForm (by decide) _).tells.object
  · exact (other_unaryForm (by decide) _).tells.object
  · exact (other_unaryForm (by decide) _).tells.object
  · exact (other_unaryForm (by decide) _).tells.object
  · exact (other_unaryForm (by decide) _).tells.object
  · exact (Gives.behind other_privateName fun _ h => .bind fun _ => .ite (.pure h) .refuse).tells.object
  · split
    · exact opensObject_wordOperand helement _
    · exact hform

theorem opensObject_expression (hoperand : OpensObject (g .operand)) (least : Nat) :
    OpensObject (expression g least) := by
  intro c a c' hr hobject
  obtain ⟨operand, d, hleft, rfl | hother⟩ := cases_of_expression hr
  · exact hoperand c _ d hleft hobject
  · exact absurd hobject hother.2

/-- The rules of a family that an argument is read with. -/
structure Shaped (g : Grammar) : Prop where
  element : Gives IsOther (g .element)
  operand : OpensObject (g .operand)
  expression : ∀ rank, OpensObject (g (.expression rank))

theorem opensObject_argument (hg : Shaped g) : OpensObject (expressionOrSpread g) := by
  intro c a c' hr
  obtain ⟨spread, d, hstarts, hargument⟩ := eq_ok_of_bind hr
  obtain ⟨-, rfl⟩ := eq_of_startsWith hstarts
  split at hargument
  · exact other_spread.tells.object _ _ _ hargument
  · exact hg.expression 0 _ _ _ hargument

/-- Where an object literal is the first argument of a call, the parenthesis of the call and a
stretch lead to its brace. -/
theorem opens_called (hg : Shaped g) {construct : Construct} {callee node first : Node}
    {rest : List Node} (h : called g construct callee c = .ok (node, c'))
    (hparts : node.parts = callee :: first :: rest) (hobject : first.construct = .object) :
    ∃ d e, c.Reaches false d ∧ d.Passes '(' e ∧ e.OpensAt first.span.start := by
  obtain ⟨_, d, hexpect, harguments⟩ := eq_ok_of_bind h
  obtain ⟨hstarts, rfl⟩ := eq_of_expect hexpect
  obtain ⟨arguments, e, hbrackets, hnode⟩ := eq_ok_of_bind harguments
  obtain ⟨rfl, -⟩ := eq_of_nodeFrom hnode
  obtain rfl : arguments = first :: rest := (List.cons.inj hparts).2
  obtain ⟨f, hitems, -⟩ := eq_ok_of_withBrackets hbrackets
  obtain ⟨d, e', hreaches, hitem⟩ := first_of_items hitems (by rw [hobject]; decide)
  refine ⟨_, _, c.reaches_next, Cursor.passes_skip rfl hstarts, ?_⟩
  exact hreaches.opensAt (opensObject_argument hg d first e' hitem hobject)

end Openings

end Reader

/-- The rules of the grammar are so, whatever the depth of calls. -/
theorem shaped_grammar (depth : Nat) : Reader.Shaped (grammar depth) := by
  induction depth with
  | zero => exact ⟨.refuse, Reader.Gives.refuse.tells.object, fun _ => Reader.Gives.refuse.tells.object⟩
  | succ depth ih =>
    exact ⟨Reader.other_element, Reader.opensObject_operand ih.element,
      Reader.opensObject_expression ih.operand⟩

end DataBinding.Script
