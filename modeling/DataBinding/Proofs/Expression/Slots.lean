/-
# References among the tokens

The tokens of an expression fall into those that belong to a chosen reference and those that stay.
With one word in the place of each chosen reference the tokens are still those of an expression: the
one that substitution gives.

* `Writes`            : the tokens that a reference is written with.
* `Slot`              : a token that stays, or the tokens of a reference that is replaced.
* `Renamed`           : the tokens of slots with one word in the place of each reference.
* `Twin`              : an operand that has the expression of another one after substitution.
* `Covered`           : the tokens of a phrase fall into slots, and the renamed ones stand for twins.
-/
import Mathlib.Data.List.Forall2
import DataBinding.Proofs.Expression.Derivation
import DataBinding.Proofs.Expression.Substitution

namespace DataBinding.Expression

/-! ## Slots -/

/-- A reference is written with the given tokens: one word, or an object with a path and the name of
its member. -/
inductive Writes : List Token → Reference → Prop
  | name {x : Text} {s : Span} (free : Lexeme.isReserved x = false) :
      Writes [⟨.word x, s⟩] ⟨x, s⟩
  | dotted {object : Operand} {w remarks : List Token} {head x : Text} {s e : Span}
      (front : Reads (.primary object) w) (path : object.expr.path? = some head)
      (set : Remarks remarks) :
      Writes (w ++ (⟨.mark .dot, s⟩ :: (remarks ++ [⟨.word x, e⟩])))
        ⟨head ++ '.' :: x, ⟨object.span.start, e.stop⟩⟩

/-- A token that stays, or the tokens of a reference that is replaced. -/
inductive Slot where
  | keep (token : Token)
  | swap (written : List Token) (r : Reference)

namespace Slot

/-- The tokens in a slot. -/
def tokens : Slot → List Token
  | keep token => [token]
  | swap written _ => written

/-- The reference that is replaced. -/
def reference? : Slot → Option Reference
  | keep _ => none
  | swap _ r => some r

@[simp] theorem tokens_keep (token : Token) : (keep token).tokens = [token] :=
  rfl

@[simp] theorem filterMap_reference?_keep (token : Token) (slots : List Slot) :
    (keep token :: slots).filterMap reference? = slots.filterMap reference? :=
  rfl

/-- Slots of tokens that all stay. -/
def keepAll (w : List Token) : List Slot :=
  w.map keep

@[simp] theorem keepAll_append (w v : List Token) :
    keepAll (w ++ v) = keepAll w ++ keepAll v :=
  List.map_append

@[simp] theorem tokens_keepAll (w : List Token) : (keepAll w).flatMap tokens = w := by
  induction w with
  | nil => rfl
  | cons token w ih =>
    show token :: (keepAll w).flatMap tokens = token :: w
    rw [ih]

@[simp] theorem reference?_keepAll (w : List Token) : (keepAll w).filterMap reference? = [] := by
  induction w with
  | nil => rfl
  | cons token w ih => exact ih

/-- A token that may stand where the given is expected: an operand does not start with an operator
that is no sign, and only a mark stands behind an operand. -/
def admits : Expecting → Shape → Bool
  | .operand, .mark (.binary op) => (signOperator? op).isSome
  | .operator, .mark _ => true
  | .operator, _ => false
  | _, _ => true

/-- A slot that may stand where the given is expected. -/
def Fits (now : Expecting) : Slot → Prop
  | keep token => admits now token.shape = true
  | swap written r => now = .operand ∧ Writes written r

/-- What is expected behind a slot. -/
def next (now : Expecting) : Slot → Expecting
  | keep token => now.next token.shape
  | swap _ _ => .operator

end Slot

open Slot

/-- Slots that may follow each other lead from one expectation to another. -/
inductive Leads : Expecting → List Slot → Expecting → Prop
  | nil {now : Expecting} : Leads now [] now
  | cons {now final : Expecting} {slot : Slot} {slots : List Slot} (fits : slot.Fits now)
      (rest : Leads (slot.next now) slots final) : Leads now (slot :: slots) final

theorem Leads.append {a b c : Expecting} {slots more : List Slot} (h : Leads a slots b)
    (h' : Leads b more c) : Leads a (slots ++ more) c := by
  induction h with
  | nil => exact h'
  | cons fits _ ih => exact .cons fits (ih h')

/-- A token that stays in front. -/
theorem Leads.keep {now final : Expecting} {token : Token} {slots : List Slot}
    (fits : admits now token.shape = true) (rest : Leads (now.next token.shape) slots final) :
    Leads now (.keep token :: slots) final :=
  .cons fits rest

/-- Lines set aside change no expectation of an operand or a name. -/
theorem Remarks.leads {w : List Token} (h : Remarks w) {now : Expecting} (hnow : now ≠ .operator) :
    Leads now (keepAll w) now := by
  induction w with
  | nil => exact .nil
  | cons token w ih =>
    have htoken := h token (List.mem_cons_self ..)
    refine .keep ?_ ?_
    · rw [htoken]
      cases now <;> first | rfl | exact absurd rfl hnow
    · rw [htoken]
      exact ih fun t ht => h t (List.mem_cons_of_mem _ ht)

/-- A link leads from behind an object to an operand. -/
theorem Link.leads {object : Operand} {optional : Bool} {link : List Token}
    (h : Link object optional link) : Leads .operator (keepAll link) .operand := by
  cases h with
  | plain await => exact .keep rfl .nil
  | optional set =>
    refine .keep rfl ?_
    show Leads .name (keepAll (_ ++ _)) .operand
    rw [keepAll_append]
    exact (set.leads (by decide)).append (.keep rfl .nil)

/-! ## Renamed tokens -/

/-- The word that is a name only where no operand can follow it. -/
def awaitName : Text :=
  "await".toList

/-- Tokens of the same shapes as the slots, with one word for each reference that is replaced.  The
word is no reserved one, and `await` only where it was. -/
inductive Renamed (name : Text → Text) : List Slot → List Token → Prop
  | nil : Renamed name [] []
  | keep {token : Token} {s : Span} {slots : List Slot} {w : List Token}
      (rest : Renamed name slots w) : Renamed name (.keep token :: slots) (⟨token.shape, s⟩ :: w)
  | swap {written : List Token} {r : Reference} {s : Span} {slots : List Slot} {w : List Token}
      (free : Lexeme.isReserved (name r.path) = false)
      (await : name r.path = awaitName → r.path = awaitName) (rest : Renamed name slots w) :
      Renamed name (.swap written r :: slots) (⟨.word (name r.path), s⟩ :: w)

namespace Renamed

variable {name : Text → Text} {slots more : List Slot} {w v : List Token}

/-- Renamed tokens fall apart where their slots do. -/
theorem split (h : Renamed name (slots ++ more) w) :
    ∃ u v, w = u ++ v ∧ Renamed name slots u ∧ Renamed name more v := by
  induction slots generalizing w with
  | nil => exact ⟨[], w, rfl, .nil, h⟩
  | cons slot slots ih =>
    cases h with
    | keep rest =>
      obtain ⟨u, v, rfl, hu, hv⟩ := ih rest
      exact ⟨_, v, rfl, hu.keep, hv⟩
    | swap free await rest =>
      obtain ⟨u, v, rfl, hu, hv⟩ := ih rest
      exact ⟨_, v, rfl, hu.swap free await, hv⟩

/-- Lines set aside are kept as such. -/
theorem remarks (h : Renamed name (keepAll v) w) (hv : Remarks v) : Remarks w := by
  induction v generalizing w with
  | nil =>
    cases h
    exact .nil
  | cons token v ih =>
    cases h with
    | keep rest =>
      intro t ht
      rcases List.mem_cons.mp ht with rfl | ht
      · exact hv token (List.mem_cons_self ..)
      · exact ih rest (fun t ht => hv t (List.mem_cons_of_mem _ ht)) t ht

/-- One token that stays alone. -/
theorem single {token : Token} (h : Renamed name [.keep token] w) :
    ∃ s, w = [⟨token.shape, s⟩] := by
  cases h with
  | keep rest =>
    cases rest
    exact ⟨_, rfl⟩

/-- A link is kept as such. -/
theorem link {object object' : Operand} {optional : Bool} (h : Renamed name (keepAll v) w)
    (hv : Link object optional v) (hawait : object'.isAwait = true → object.isAwait = true) :
    Link object' optional w := by
  cases hv with
  | plain await =>
    obtain ⟨s, rfl⟩ := h.single
    refine .plain ?_
    rw [Bool.eq_false_iff]
    intro h'
    rw [hawait h'] at await
    cases await
  | optional set =>
    cases h with
    | keep rest =>
      change Renamed name (keepAll (_ ++ _)) _ at rest
      rw [keepAll_append] at rest
      obtain ⟨u, v, rfl, hu, hv⟩ := rest.split
      obtain ⟨s, rfl⟩ := hv.single
      exact .optional (hu.remarks set)

end Renamed

/-! ## Twins -/

section Twins

variable (chosen : Reference → Bool) (name : Text → Text)

/-- An operand that has the expression of another after substitution, and is nested no deeper. -/
structure Twin (view : Expr.View) (o o' : Operand) : Prop where
  bare : o'.expr.bare = (o.expr.substituteIn chosen name view).bare
  levels : o'.levels ≤ o.levels
  await : o'.isAwait = true → o.isAwait = true

/-- Constructs of one kind that wait behind twins. -/
inductive FrameTwin : Frame → Frame → Prop
  | unary {op : UnaryOperator} {start start' : Nat} :
      FrameTwin (.unary op start) (.unary op start')
  | binary {op : BinaryOperator} {left left' : Operand} (h : Twin chosen name .value left left') :
      FrameTwin (.binary op left) (.binary op left')
  | alternate {test test' consequent consequent' : Operand}
      (h : Twin chosen name .value test test') (hc : Twin chosen name .value consequent consequent') :
      FrameTwin (.alternate test consequent) (.alternate test' consequent')

end Twins

variable {chosen : Reference → Bool} {name : Text → Text}

/-- Constructs of parts that are nested no deeper are nested no deeper. -/
theorem above_le {parts parts' : List Operand}
    (h : List.Forall₂ (fun o o' : Operand => o'.levels ≤ o.levels) parts parts') :
    Operand.above parts' ≤ Operand.above parts := by
  have hfold : ∀ n n' : Nat, n' ≤ n →
      parts'.foldl (fun n part => max n part.levels) n' ≤
        parts.foldl (fun n part => max n part.levels) n := by
    induction h with
    | nil => exact fun n n' h => h
    | @cons o o' parts parts' ho _ ih =>
      intro n n' hn
      refine ih _ _ ?_
      show max n' o'.levels ≤ max n o.levels
      omega
  exact Nat.succ_le_succ (hfold 0 0 (Nat.le_refl 0))

namespace Twin

variable {o o' left left' right right' test test' consequent consequent' : Operand}
  {elements elements' : List Operand}

theorem isAwait_eq_false {view : Expr.View} (h : Twin chosen name view o o')
    (hawait : o.isAwait = false) : o'.isAwait = false :=
  Bool.eq_false_iff.mpr fun h' => Bool.eq_false_iff.mp hawait (h.await h')

theorem of_not_member (h : Twin chosen name .value o o') (hmember : o.expr.isMember = false)
    (view : Expr.View) : Twin chosen name view o o' := by
  refine ⟨?_, h.levels, h.await⟩
  rw [Expr.substituteIn_of_not_member hmember]
  exact h.bare

theorem unary (h : Twin chosen name .value o o') (op : UnaryOperator) (start start' : Nat) :
    Twin chosen name .value (.unary op start o) (.unary op start' o') where
  bare := by
    show Expr.unary Expr.nowhere op o'.expr.bare =
      Expr.bare (Expr.substitute chosen name (.unary _ op o.expr))
    rw [Expr.substitute_unary, Expr.bare, h.bare]
    rfl
  levels := above_le (.cons h.levels .nil)
  await := fun h => by cases h

theorem binary (hl : Twin chosen name .value left left') (hr : Twin chosen name .value right right')
    (op : BinaryOperator) : Twin chosen name .value (.binary op left right) (.binary op left' right')
    where
  bare := by
    show Expr.binary Expr.nowhere op left'.expr.bare right'.expr.bare =
      Expr.bare (Expr.substitute chosen name (.binary _ op left.expr right.expr))
    rw [Expr.substitute_binary, Expr.bare, hl.bare, hr.bare]
    rfl
  levels := above_le (.cons hl.levels (.cons hr.levels .nil))
  await := fun h => by cases h

theorem conditional (ht : Twin chosen name .value test test')
    (hc : Twin chosen name .value consequent consequent') (ho : Twin chosen name .value o o') :
    Twin chosen name .value (.conditional test consequent o) (.conditional test' consequent' o')
    where
  bare := by
    show Expr.conditional Expr.nowhere test'.expr.bare consequent'.expr.bare o'.expr.bare =
      Expr.bare (Expr.substitute chosen name (.conditional _ test.expr consequent.expr o.expr))
    rw [Expr.substitute_conditional, Expr.bare, ht.bare, hc.bare, ho.bare]
    rfl
  levels := above_le (.cons ht.levels (.cons hc.levels (.cons ho.levels .nil)))
  await := fun h => by cases h

theorem index (h : Twin chosen name .value left left') (hp : Twin chosen name .value o o')
    (stop stop' : Nat) (optional : Bool) :
    Twin chosen name .value (.index left o stop optional) (.index left' o' stop' optional) where
  bare := by
    show Expr.index Expr.nowhere left'.expr.bare o'.expr.bare optional =
      Expr.bare (Expr.substitute chosen name (.index _ left.expr o.expr optional))
    rw [Expr.substitute_index, Expr.bare, h.bare, hp.bare]
    rfl
  levels := above_le (.cons h.levels (.cons hp.levels .nil))
  await := fun h => by cases h

/-- Twins one by one have one list of expressions after substitution. -/
theorem bareAll (h : List.Forall₂ (Twin chosen name .value) elements elements') :
    Expr.bareAll (elements'.map (·.expr)) =
      Expr.bareAll (Expr.substituteAll chosen name (elements.map (·.expr))) := by
  induction h with
  | nil => rfl
  | cons h _ ih =>
    rw [List.map_cons, List.map_cons, Expr.substituteAll, Expr.bareAll, Expr.bareAll, ih, h.bare]
    rfl

theorem forall_levels (h : List.Forall₂ (Twin chosen name .value) elements elements') :
    List.Forall₂ (fun o o' : Operand => o'.levels ≤ o.levels) elements elements' := by
  induction h with
  | nil => exact .nil
  | cons h _ ih => exact .cons h.levels ih

theorem array (h : List.Forall₂ (Twin chosen name .value) elements elements') (s s' : Span) :
    Twin chosen name .value (.array elements s) (.array elements' s') where
  bare := by
    show Expr.array Expr.nowhere (Expr.bareAll (elements'.map (·.expr))) =
      Expr.bare (Expr.substitute chosen name (.array s (elements.map (·.expr))))
    rw [Expr.substitute_array, Expr.bare, bareAll h]
  levels := above_le (forall_levels h)
  await := fun h => by cases h

theorem call (h : Twin chosen name .callee o o')
    (ha : List.Forall₂ (Twin chosen name .value) elements elements') (stop stop' : Nat) :
    Twin chosen name .value (.call o elements stop) (.call o' elements' stop') where
  bare := by
    show Expr.call Expr.nowhere o'.expr.bare (Expr.bareAll (elements'.map (·.expr))) =
      Expr.bare (Expr.substitute chosen name (.call _ o.expr (elements.map (·.expr))))
    rw [Expr.substitute_call, Expr.bare, h.bare, bareAll ha]
  levels := above_le (.cons h.levels (forall_levels ha))
  await := fun h => by cases h

end Twin

/-! ## Completing twins -/

section Completing

variable {frames frames' : List Frame} {last last' : Operand}

/-- Operations completed by twins give twins. -/
theorem settle_twin (h : List.Forall₂ (FrameTwin chosen name) frames frames')
    (hlast : Twin chosen name .value last last') (next : Nat) :
    List.Forall₂ (FrameTwin chosen name) (settle next frames last).1 (settle next frames' last').1 ∧
      Twin chosen name .value (settle next frames last).2 (settle next frames' last').2 := by
  induction h generalizing last last' with
  | nil => exact ⟨.nil, hlast⟩
  | @cons frame frame' frames frames' hframe hframes ih =>
    cases hframe with
    | unary => exact ih (hlast.unary ..)
    | @binary op left left' hleft =>
      cases hholds : op.holdsAgainst next with
      | true =>
        simp only [settle, hholds, if_true]
        exact ih (hleft.binary hlast op)
      | false =>
        simp only [settle, hholds]
        exact ⟨.cons (.binary hleft) hframes, hlast⟩
    | alternate ht hc => exact ⟨.cons (.alternate ht hc) hframes, hlast⟩

/-- Operations all completed by twins give twins. -/
theorem close_twin (h : List.Forall₂ (FrameTwin chosen name) frames frames')
    (hlast : Twin chosen name .value last last') :
    Twin chosen name .value (close frames last).2 (close frames' last').2 := by
  induction h generalizing last last' with
  | nil => exact hlast
  | @cons frame frame' frames frames' hframe hframes ih =>
    cases hframe with
    | unary => exact ih (hlast.unary ..)
    | binary hleft => exact ih (hleft.binary hlast _)
    | alternate ht hc => exact ih (ht.conditional hc hlast)

/-- The references of a construct that waits. -/
def frameReferences : Frame → List Reference
  | .binary _ left => left.expr.references
  | .alternate test consequent => test.expr.references ++ consequent.expr.references
  | _ => []

/-- The references of constructs that wait, from the outermost to the innermost. -/
def framesReferences : List Frame → List Reference
  | [] => []
  | frame :: frames => framesReferences frames ++ frameReferences frame

/-- Completing operations keeps the references in their order. -/
theorem references_settle (next : Nat) :
    framesReferences (settle next frames last).1 ++ (settle next frames last).2.expr.references =
      framesReferences frames ++ last.expr.references := by
  induction frames generalizing last with
  | nil => rfl
  | cons frame frames ih =>
    cases frame with
    | unary op start =>
      rw [settle, ih]
      show _ ++ Expr.references (.unary _ op last.expr) = _
      rw [Expr.references_unary]
      simp [framesReferences, frameReferences]
    | binary op left =>
      rw [settle]
      split
      · rw [ih]
        show _ ++ Expr.references (.binary _ op left.expr last.expr) = _
        rw [Expr.references_binary]
        simp [framesReferences, frameReferences]
      · rfl
    | _ => rfl

/-- Completing all operations keeps the references in their order. -/
theorem references_close (h : ∀ frame ∈ frames, frame.isPending = true) :
    (close frames last).2.expr.references = framesReferences frames ++ last.expr.references := by
  induction frames generalizing last with
  | nil => rfl
  | cons frame frames ih =>
    have hrest := fun f hf => h f (List.mem_cons_of_mem _ hf)
    cases frame with
    | unary op start =>
      rw [close, ih hrest]
      show _ ++ Expr.references (.unary _ op last.expr) = _
      rw [Expr.references_unary]
      simp [framesReferences, frameReferences]
    | binary op left =>
      rw [close, ih hrest]
      show _ ++ Expr.references (.binary _ op left.expr last.expr) = _
      rw [Expr.references_binary]
      simp [framesReferences, frameReferences]
    | alternate test consequent =>
      rw [close, ih hrest]
      show _ ++ Expr.references (.conditional _ test.expr consequent.expr last.expr) = _
      rw [Expr.references_conditional]
      simp [framesReferences, frameReferences]
    | _ => cases h _ (List.mem_cons_self ..)

/-- A completed operation is an operation. -/
theorem isOperation_close {frame : Frame} (h : ∀ f ∈ frame :: frames, f.isPending = true)
    (last : Operand) :
    (close (frame :: frames) last).2.expr.isOperation = true := by
  induction frames generalizing frame last with
  | nil =>
    cases frame <;> first | rfl | cases h _ (List.mem_cons_self ..)
  | cons next frames ih =>
    have hrest := fun f hf => h f (List.mem_cons_of_mem _ hf)
    cases frame <;> first | exact ih hrest _ | cases h _ (List.mem_cons_self ..)

end Completing

/-! ## Slots of a derivation -/

/-- Tokens whose spans start one after the other. -/
def Ordered (w : List Token) : Prop :=
  w.Pairwise fun token token' => token.span.start < token'.span.start

/-- Slots that hold given tokens and replace the chosen ones of given references.  They start where an
operand is expected, and renamed tokens have the given property. -/
structure Covers (chosen : Reference → Bool) (name : Text → Text) (references : List Reference)
    (ends : Expecting → Prop) (result : List Token → Prop) (w : List Token) (slots : List Slot) :
    Prop where
  tokens : slots.flatMap Slot.tokens = w
  swapped : slots.filterMap Slot.reference? = references.filter chosen
  leads : ∃ now, ends now ∧ Leads .operand slots now
  renamed : ∀ w', Ordered w' → Renamed name slots w' → result w'

/-- The tokens of a phrase can be put into slots such that the renamed tokens stand for a twin. -/
def Covered (chosen : Reference → Bool) (name : Text → Text) : Phrase → List Token → Prop
  | .primary o, w =>
    ∀ view, ∃ slots, Covers chosen name (o.expr.referencesIn view) (· = .operator)
      (fun w' => ∃ o', Twin chosen name view o o' ∧ Reads (.primary o') w') w slots
  | .whole o, w =>
    ∀ view, ∃ slots, Covers chosen name (o.expr.referencesIn view) (· = .operator)
      (fun w' => ∃ o', Twin chosen name view o o' ∧ Reads (.whole o') w') w slots
  | .pending frames, w =>
    ∃ slots, Covers chosen name (framesReferences frames) (· = .operand)
      (fun w' => ∃ frames', List.Forall₂ (FrameTwin chosen name) frames frames' ∧
        Reads (.pending frames') w') w slots
  | .items elements, w =>
    ∃ slots, Covers chosen name (Expr.referencesAll (elements.reverse.map (·.expr))) (· = .operand)
      (fun w' => ∃ elements', List.Forall₂ (Twin chosen name .value) elements elements' ∧
        Reads (.items elements') w') w slots
  | .bracket elements, w =>
    ∃ slots, Covers chosen name (Expr.referencesAll (elements.reverse.map (·.expr)))
      (fun _ => True)
      (fun w' => ∃ elements', List.Forall₂ (Twin chosen name .value) elements elements' ∧
        Reads (.bracket elements') w') w slots

/-- Where a word is read as an operand, it is `this`, a constant, or an identifier. -/
theorem wordOperand?_eq_some {x : Text} {s : Span} {o : Operand} (h : wordOperand? x s = some o) :
    (x = Expr.thisName ∧ o = .leaf (.this s)) ∨
      ((∀ s', wordOperand? x s' = some (.leaf (.literal s' x))) ∧ o = .leaf (.literal s x)) ∨
      (Lexeme.isReserved x = false ∧ o = .leaf (.identifier s x)) := by
  unfold wordOperand? at *
  split_ifs at h with hthis hconstant hreserved
  · exact .inl ⟨eq_of_beq hthis, (Option.some.inj h).symm⟩
  · refine .inr (.inl ⟨fun s' => ?_, (Option.some.inj h).symm⟩)
    rw [if_neg hthis, if_pos hconstant]
  · exact .inr (.inr ⟨Bool.eq_false_iff.mpr hreserved, (Option.some.inj h).symm⟩)

/-- A word that is not reserved is read as an identifier. -/
theorem wordOperand?_of_free {x : Text} (h : Lexeme.isReserved x = false) (s : Span) :
    wordOperand? x s = some (.leaf (.identifier s x)) := by
  have hthis : ¬ (x == "this".toList) = true := by
    intro hx
    rw [eq_of_beq hx] at h
    revert h
    decide
  have hconstant : ¬ ["true", "false", "null"].contains (String.ofList x) = true := by
    intro hx
    rw [List.contains_iff_mem] at hx
    have hmem : x ∈ ["true", "false", "null"].map String.toList := by
      rw [← String.toList_ofList (l := x)]
      exact List.mem_map_of_mem hx
    have : Lexeme.isReserved x = true := by
      simp only [List.map_cons, List.map_nil, List.mem_cons, List.not_mem_nil, or_false] at hmem
      rcases hmem with rfl | rfl | rfl <;> decide
    rw [h] at this
    cases this
  rw [wordOperand?, if_neg hthis, if_neg hconstant, if_neg (by rw [h]; decide)]

end DataBinding.Expression
