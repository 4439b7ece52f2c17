/-
# Readers keep their place

A reader of scripts stands in the text that it reads: the text ahead of it is what is left behind the
bytes that it counts.  The key construction is the triple `Reader.Faithful`: from a place in the text
a reader moves to a place in the text, and what it gives is placed there as well.  The elementary
readers and the ways to combine readers are faithful.
-/
import Mathlib
import DataBinding.Proofs.Script.Openings

set_option mvcgen.warning false

open Std.Do

namespace DataBinding

namespace Script

/-! ## Places in a text -/

/-- A brace opens in a text behind the given number of bytes. -/
def BraceAt (t : Text) (place : Nat) : Prop :=
  ∃ before after, t = before ++ '\x7b' :: after ∧ before.byteLength = place

/-- The texts around the opening of a call: those before the name and behind the brace, and between
them what stands behind the name, the mark of the call, and what stands behind the mark. -/
structure Opening where
  before : Text
  gap : Text
  mark : Text
  inner : Text
  after : Text

/-- The text from the name of the call on. -/
def Opening.call (o : Opening) (name : Text) : Text :=
  name ++ (o.gap ++ (o.mark ++ (o.inner ++ '\x7b' :: o.after)))

/-- A call of a name opens in a text and has a brace at the given byte.  Its mark is a parenthesis,
and that of an optional call starts with a question mark and a dot. -/
structure Opening.Stands (o : Opening) (name t : Text) (place : Nat) : Prop where
  text : t = o.before ++ o.call name
  place : Text.byteLength (o.before ++ (name ++ (o.gap ++ (o.mark ++ o.inner)))) = place
  gap : Stretch false o.gap (o.mark ++ (o.inner ++ '\x7b' :: o.after))
  mark : o.mark = ['('] ∨ ∃ g, o.mark = '?' :: '.' :: (g ++ ['(']) ∧
    Stretch false g ('(' :: (o.inner ++ '\x7b' :: o.after))
  inner : Stretch true o.inner ('\x7b' :: o.after)

/-- A call opens with the parts of a construct, if these are an identifier and an object literal. -/
def OpensWith (t : Text) (parts : List Node) : Prop :=
  ∀ callee first rest, parts = callee :: first :: rest → callee.construct = .identifier →
    first.construct = .object → ∃ o : Opening, o.Stands callee.wording t first.span.start

/-- The constructs that are known by more than their parts. -/
@[simp]
def Construct.isPlain : Construct → Bool
  | .object | .call | .optionalCall => false
  | _ => true

/-- A construct is found in a text: an object literal starts at a brace, and a call opens. -/
def Node.Found (t : Text) (node : Node) : Prop :=
  (node.construct = .object → BraceAt t node.span.start) ∧
    (node.construct = .call ∨ node.construct = .optionalCall → OpensWith t node.parts)

theorem Node.found_of_isPlain {t : Text} {node : Node} (h : node.construct.isPlain = true) :
    node.Found t := by
  refine ⟨fun hobject => ?_, fun hcall => ?_⟩
  · rw [hobject] at h
    cases h
  · rcases hcall with hcall | hcall <;>
    · rw [hcall] at h
      cases h

/-- The text that readers read. -/
structure Source where
  text : Text

/-- What readers give can be placed in the text that is read. -/
class Placed (α : Type) where
  In : Source → α → Prop

export Placed (In)

/-- A cursor is placed where the text ahead of it is what follows the bytes before it. -/
instance : Placed Cursor :=
  ⟨fun t c => ∃ before, t.text = before ++ c.rest ∧ before.byteLength = c.position⟩

/-- A construct is placed if all object literals in it start at a brace and all calls open. -/
instance : Placed Node :=
  ⟨fun t node => ∀ inner ∈ node.all, inner.Found t.text⟩

instance : Placed Unit := ⟨fun _ _ => True⟩

instance : Placed Bool := ⟨fun _ _ => True⟩

instance : Placed Char := ⟨fun _ _ => True⟩

instance : Placed Span := ⟨fun _ _ => True⟩

instance {α : Type} [Placed α] : Placed (List α) := ⟨fun t as => ∀ a ∈ as, In t a⟩

instance {α : Type} [Placed α] : Placed (Option α) := ⟨fun t o => ∀ a ∈ o, In t a⟩

instance {α β : Type} [Placed α] [Placed β] : Placed (α × β) := ⟨fun t p => In t p.1 ∧ In t p.2⟩

section Placed

variable {t : Source} {α β : Type} [Placed α] [Placed β]

@[simp] theorem in_unit (u : Unit) : In t u := trivial

@[simp] theorem in_bool (b : Bool) : In t b := trivial

@[simp] theorem in_char (c : Char) : In t c := trivial

@[simp] theorem in_span (s : Span) : In t s := trivial

@[simp] theorem in_text (w : Text) : In t w := fun _ _ => trivial

@[simp] theorem in_nil : In t ([] : List α) := by
  intro a ha
  exact absurd ha List.not_mem_nil

@[simp] theorem in_cons (a : α) (as : List α) : In t (a :: as) ↔ In t a ∧ In t as :=
  List.forall_mem_cons

@[simp] theorem in_append (as bs : List α) : In t (as ++ bs) ↔ In t as ∧ In t bs :=
  List.forall_mem_append

@[simp] theorem in_flatten (as : List (List α)) : In t as.flatten ↔ In t as := by
  induction as with
  | nil => simp
  | cons a as ih => rw [List.flatten_cons, in_append, in_cons, ih]

@[simp] theorem in_none : In t (none : Option α) := by
  intro a ha
  simp at ha

@[simp] theorem in_some (a : α) : In t (some a) ↔ In t a := by
  simp [In]

@[simp] theorem in_word (o : Option Text) : In t o := fun w _ => in_text w

@[simp] theorem in_prod (p : α × β) : In t p ↔ In t p.1 ∧ In t p.2 := Iff.rfl

/-- All constructs below some nodes are those below each. -/
theorem Node.mem_allOf {node : Node} {nodes : List Node} :
    node ∈ Node.allOf nodes ↔ ∃ n ∈ nodes, node ∈ n.all := by
  induction nodes with
  | nil => simp [Node.allOf]
  | cons n nodes ih => rw [Node.allOf, List.mem_append, ih, List.exists_mem_cons_iff]

/-- A construct is placed if it is found and its parts are placed. -/
theorem in_node (construct : Construct) (span : Span) (wording : Text) (parts : List Node) :
    In t (Node.mk construct span wording parts)
      ↔ (Node.mk construct span wording parts).Found t.text ∧ In t parts := by
  constructor
  · intro h
    have hself : ∀ inner, inner ∈ Node.mk construct span wording parts :: Node.allOf parts →
        inner.Found t.text := by
      intro inner hinner
      exact h inner (by rwa [Node.all])
    refine ⟨hself _ List.mem_cons_self, fun part hpart inner hinner => ?_⟩
    exact hself inner (List.mem_cons_of_mem _ (Node.mem_allOf.mpr ⟨part, hpart, hinner⟩))
  · rintro ⟨hself, hparts⟩ inner hinner
    rw [Node.all, List.mem_cons] at hinner
    rcases hinner with rfl | hinner
    · exact hself
    · obtain ⟨part, hpart, hbelow⟩ := Node.mem_allOf.mp hinner
      exact hparts part hpart inner hbelow

/-- Moving on keeps a cursor in the text. -/
theorem in_skip {c : Cursor} (h : In t c) (n : Nat) : In t (c.skip n) := by
  obtain ⟨before, htext, hposition⟩ := h
  refine ⟨before ++ c.rest.take n, ?_, ?_⟩
  · show t.text = before ++ c.rest.take n ++ c.rest.drop n
    rw [List.append_assoc, List.take_append_drop, htext]
  · show Text.byteLength (before ++ c.rest.take n) = c.position + Text.byteLength (c.rest.take n)
    rw [← hposition, Text.byteLength_append]

/-- The next token is in the text. -/
theorem in_next {c : Cursor} (h : In t c) : In t c.next :=
  in_skip h _

end Placed

/-! ## Faithful readers -/

namespace Reader

variable {t : Source} {α β : Type} [Placed α] [Placed β]

/-- From a place in the text, a reader moves to a place in the text and gives something placed. -/
abbrev Faithful (t : Source) (r : Reader α) : Prop :=
  ⦃fun c => ⌜In t c⌝⦄ r ⦃⇓? a c => ⌜In t a ∧ In t c⌝⦄

/-- A reader is faithful if all its results are. -/
theorem faithful_iff {r : Reader α} :
    Faithful t r ↔ ∀ c a c', In t c → r c = .ok (a, c') → In t a ∧ In t c' := by
  have hwp : ∀ c, (wp r).apply (⇓? a c => ⌜In t a ∧ In t c⌝) c
      = (wp (r c : Except Nat (α × Cursor))).apply (⇓? p => ⌜In t p.1 ∧ In t p.2⌝) := fun _ => rfl
  constructor
  · intro h c a c' hc hr
    have hresult := h c hc
    rw [hwp, hr] at hresult
    exact hresult
  · intro h c hc
    rw [hwp]
    cases hr : (r c : Except Nat (α × Cursor)) with
    | error place => trivial
    | ok p => exact h c p.1 p.2 hc hr

/-- Readers one behind the other are faithful, where the second counts on what the first gives. -/
theorem bind_faithful {r : Reader α} {f : α → Reader β} {Q : α → Prop} (h : Faithful t r)
    (hgives : Gives Q r) (hf : ∀ a, In t a → Q a → Faithful t (f a)) : Faithful t (r >>= f) := by
  rw [faithful_iff] at h ⊢
  intro c b c' hc hr
  obtain ⟨a, d, ha, hb⟩ := eq_ok_of_bind hr
  obtain ⟨hina, hd⟩ := h c a d hc ha
  exact faithful_iff.mp (hf a hina (hgives c a d ha)) d b c' hd hb

/-! ### Elementary readers -/

@[spec]
theorem refuse_faithful : Faithful t (refuse : Reader α) :=
  faithful_iff.mpr fun _ _ _ _ hr => by simp [refuse] at hr

@[spec]
theorem ahead_faithful : Faithful t ahead := by
  refine faithful_iff.mpr fun c a c' hc hr => ?_
  obtain ⟨rfl, rfl⟩ := Prod.mk.inj (Except.ok.inj hr)
  exact ⟨in_next hc, hc⟩

@[spec]
theorem moveTo_faithful (c : Cursor) (h : In t c) : Faithful t (moveTo c) := by
  refine faithful_iff.mpr fun _ a c' _ hr => ?_
  obtain ⟨_, rfl⟩ := Prod.mk.inj (Except.ok.inj hr)
  exact ⟨in_unit a, h⟩

@[spec]
theorem get_faithful : Faithful t (get : Reader Cursor) := by
  mvcgen

@[spec]
theorem orTry_faithful (first second : Reader α) (hfirst : Faithful t first)
    (hsecond : Faithful t second) : Faithful t (orTry first second) := by
  rw [faithful_iff] at hfirst hsecond ⊢
  intro c a c' hc hr
  unfold orTry at hr
  split at hr
  · rename_i r hr'
    obtain rfl := Except.ok.inj hr
    exact hfirst c a c' hc hr'
  · split at hr
    · rename_i r hr'
      obtain rfl := Except.ok.inj hr
      exact hsecond c a c' hc hr'
    · simp at hr

@[spec]
theorem whole_faithful (r : Reader α) (h : Faithful t r) : Faithful t (whole r) := by
  rw [faithful_iff] at h ⊢
  intro c a c' hc hr
  unfold whole at hr
  split at hr
  · rename_i p hp
    obtain rfl := Except.ok.inj hr
    exact h c a c' hc hp
  · simp at hr

@[spec]
theorem withBrackets_faithful (bracketed : Bool) (r : Reader α) (h : Faithful t r) :
    Faithful t (withBrackets bracketed r) := by
  mvcgen [withBrackets, h]

/-- A repeated step is faithful, by induction on the number of repetitions. -/
theorem manyUpTo_faithful (fuel : Nat) (step : Reader (Option α)) (h : Faithful t step) :
    Faithful t (manyUpTo fuel step) := by
  induction fuel with
  | zero => mvcgen [manyUpTo]; simp_all
  | succ fuel ih => mvcgen [manyUpTo, h, ih] <;> simp_all

@[spec]
theorem many_faithful (step : Reader (Option α)) (h : Faithful t step) :
    Faithful t (many step) := by
  mvcgen [many, manyUpTo_faithful]

/-- A value that is extended stays placed, by induction on the number of steps. -/
theorem extendUpTo_faithful (fuel : Nat) (step : α → Reader (Option α))
    (h : ∀ a, In t a → Faithful t (step a)) (a : α) (ha : In t a) :
    Faithful t (extendUpTo fuel step a) := by
  induction fuel generalizing a with
  | zero => mvcgen [extendUpTo]
  | succ fuel ih => mvcgen [extendUpTo, h, ih] <;> simp_all

@[spec]
theorem extend_faithful (step : α → Reader (Option α)) (h : ∀ a, In t a → Faithful t (step a))
    (a : α) (ha : In t a) : Faithful t (extend step a) := by
  mvcgen [extend, extendUpTo_faithful, h]
  exact fun _ _ => by assumption

/-! ### Tokens -/

@[spec]
theorem startsWith_faithful (lead : String) : Faithful t (startsWith lead) := by
  mvcgen [startsWith]
  simp_all

@[spec]
theorem take?_faithful (lead : String) : Faithful t (take? lead) := by
  mvcgen [take?] <;> simp_all [in_skip]

@[spec]
theorem expect_faithful (lead : String) : Faithful t (expect lead) := by
  mvcgen [expect]
  simp_all

@[spec]
theorem peekWord?_faithful : Faithful t peekWord? := by
  mvcgen [peekWord?]
  simp_all

@[spec]
theorem atWord_faithful (word : String) : Faithful t (atWord word) := by
  mvcgen [atWord]
  simp_all

@[spec]
theorem takeWord?_faithful (word : String) : Faithful t (takeWord? word) := by
  mvcgen [takeWord?] <;> simp_all [in_skip]

@[spec]
theorem expectWord_faithful (word : String) : Faithful t (expectWord word) := by
  mvcgen [expectWord]
  simp_all

/-- A token is no object literal and no call. -/
@[spec]
theorem leaf_faithful (construct : Construct) (length : Nat) (h : construct.isPlain = true) :
    Faithful t (leaf construct length) := by
  rw [faithful_iff]
  intro c a c' hc hr
  obtain ⟨rfl, rfl⟩ := eq_of_leaf hr
  exact ⟨(in_node ..).mpr ⟨Node.found_of_isPlain h, in_nil⟩, in_skip (in_next hc) length⟩

@[spec]
theorem spanFrom_faithful (start : Nat) : Faithful t (spanFrom start) := by
  mvcgen [spanFrom]

/-- A node that is no object literal and no call is placed if its parts are. -/
@[spec]
theorem nodeFrom_faithful (construct : Construct) (start : Nat) (parts : List Node)
    (h : construct.isPlain = true) (hparts : In t parts) :
    Faithful t (nodeFrom construct start parts) := by
  rw [faithful_iff]
  intro c a c' hc hr
  obtain ⟨rfl, rfl⟩ := eq_of_nodeFrom hr
  exact ⟨(in_node construct _ [] parts).mpr ⟨Node.found_of_isPlain h, hparts⟩, hc⟩

@[spec]
theorem remarks_faithful : Faithful t remarks := by
  mvcgen [remarks] <;> simp_all +zetaDelta [in_skip]

@[spec]
theorem takeAssign?_faithful : Faithful t takeAssign? := by
  mvcgen [takeAssign?] <;> simp_all [in_skip]

@[spec]
theorem identifier_faithful : Faithful t identifier := by
  unfold identifier
  apply Triple.bind _ _ peekWord?_faithful
  intro found
  cases found with
  | none => mvcgen; simp_all
  | some word =>
    dsimp only
    split
    · mvcgen; simp_all
    · mvcgen
      · simp_all
      · intro _ _ _
        split <;> decide

@[spec]
theorem quotation_faithful : Faithful t quotation := by
  mvcgen [quotation] <;> simp_all

@[spec]
theorem anyWord_faithful (construct : Construct) (h : construct.isPlain = true) :
    Faithful t (anyWord construct) := by
  mvcgen [anyWord] <;> simp_all

@[spec]
theorem privateName_faithful : Faithful t privateName := by
  mvcgen [privateName] <;> simp_all

@[spec]
theorem items_faithful (closer : String) (item : Reader Node) (h : Faithful t item) :
    Faithful t (items closer item) := by
  mvcgen [items, h] <;> simp_all

@[spec]
theorem separated_faithful (item : Reader Node) (h : Faithful t item) :
    Faithful t (separated item) := by
  mvcgen [separated, h] <;> simp_all

@[spec]
theorem optionalPart_faithful (mark : Reader Bool) (part : Reader Node) (hmark : Faithful t mark)
    (hpart : Faithful t part) : Faithful t (optionalPart mark part) := by
  mvcgen [optionalPart, hmark, hpart] <;> simp_all

end Reader
end Script
end DataBinding
