/-
# Renaming the references of a derivation

The tokens of a derivation fall into slots, so that tokens with a word in the place of each chosen
reference have a derivation too.  There is one lemma for each construct, and the derivation puts them
together.

* `Reads.covered`       : the tokens of a derivation in slots, and the derivation of the renamed ones.
* `Reads.wordOperators` : the operators spelled as words, counted in tokens and in the expression.
-/
import DataBinding.Proofs.Expression.Slots

namespace DataBinding.Expression

open Slot

variable {chosen : Reference → Bool} {name : Text → Text}

/-! ## Order of tokens -/

namespace Ordered

variable {token : Token} {w v : List Token}

theorem tail (h : Ordered (token :: w)) : Ordered w :=
  (List.pairwise_cons.mp h).2

theorem left (h : Ordered (w ++ v)) : Ordered w :=
  (List.pairwise_append.mp h).1

theorem right (h : Ordered (w ++ v)) : Ordered v :=
  (List.pairwise_append.mp h).2.1

end Ordered

/-! ## Identifiers in parentheses -/

/-- The identifier that a phrase stands for has the span of one of the tokens. -/
def Named : Phrase → List Token → Prop
  | .primary o, w | .whole o, w =>
    ∀ s x, o.expr = .identifier s x → ∃ token ∈ w, token.span = s
  | _, _ => True

/-- An identifier is read from a token. -/
theorem Reads.named {phrase : Phrase} {w : List Token} (h : Reads phrase w) : Named phrase w := by
  induction h with
  | word admitted =>
    intro s x hx
    obtain ⟨-, rfl⟩ | ⟨-, rfl⟩ | ⟨-, rfl⟩ := wordOperand?_eq_some admitted
    · cases hx
    · cases hx
    · cases hx
      exact ⟨_, List.mem_singleton_self _, rfl⟩
  | parenthesized _ ih =>
    intro s x hx
    obtain ⟨token, htoken, hs⟩ := ih s x hx
    exact ⟨token, List.mem_cons_of_mem _ (List.mem_append_left _ htoken), hs⟩
  | @whole frames last w v front _ _ ih =>
    intro s x hx
    cases frames with
    | nil =>
      obtain ⟨token, htoken, hs⟩ := ih s x hx
      exact ⟨token, List.mem_append_right _ htoken, hs⟩
    | cons frame frames =>
      have hoperation := isOperation_close front.isPending last
      rw [hx] at hoperation
      cases hoperation
  | literal | member | index | call | array =>
    intro s x hx
    cases hx
  | _ => trivial

/-- In parentheses nothing is the bare word `await`. -/
theorem isAwait_parenthesized {o : Operand} {w : List Token} {s e : Span} (h : Reads (.whole o) w)
    (hordered : Ordered (⟨.mark .openParen, s⟩ :: (w ++ [⟨.mark .closeParen, e⟩]))) :
    (Operand.parenthesized ⟨s.start, e.stop⟩ o).isAwait = false := by
  obtain ⟨expr, span, levels⟩ := o
  cases expr with
  | identifier s' x =>
    obtain ⟨token, htoken, rfl⟩ := h.named s' x rfl
    have hstart := (List.pairwise_cons.mp hordered).1 token (List.mem_append_left _ htoken)
    have hne : ¬ (⟨s.start, e.stop⟩ : Span) = token.span := by
      intro heq
      rw [← heq] at hstart
      exact Nat.lt_irrefl _ hstart
    simp [Operand.isAwait, Operand.parenthesized, hne]
  | _ => rfl

/-! ## Operands -/

/-- A token that stays is an operand by itself. -/
theorem covers_token {view : Expr.View} {o : Operand} {token : Token}
    (leads : Leads .operand [.keep token] .operator)
    (references : (o.expr.referencesIn view).filter chosen = [])
    (reads : ∀ s, ∃ o', Twin chosen name view o o' ∧ Reads (.primary o') [⟨token.shape, s⟩]) :
    Covers chosen name (o.expr.referencesIn view) (· = .operator)
      (fun w' => ∃ o', Twin chosen name view o o' ∧ Reads (.primary o') w') [token] [.keep token] := by
  refine ⟨rfl, references.symm, ⟨_, rfl, leads⟩, fun w' _ hrenamed => ?_⟩
  obtain ⟨s', rfl⟩ := hrenamed.single
  exact reads s'

/-- A chosen reference is replaced by its name. -/
theorem covers_reference {view : Expr.View} {o : Operand} {r : Reference} {w : List Token}
    (writes : Writes w r) (references : (o.expr.referencesIn view).filter chosen = [r])
    (substitute : (o.expr.substituteIn chosen name view).bare
      = .identifier Expr.nowhere (name r.path))
    (await : r.path = awaitName → o.isAwait = true) :
    Covers chosen name (o.expr.referencesIn view) (· = .operator)
      (fun w' => ∃ o', Twin chosen name view o o' ∧ Reads (.primary o') w') w [.swap w r] := by
  refine ⟨List.append_nil w, references.symm, ⟨_, rfl, .cons ⟨rfl, writes⟩ .nil⟩,
    fun w' _ hrenamed => ?_⟩
  cases hrenamed with
  | @swap _ _ s' _ _ free await' rest =>
    cases rest
    refine ⟨.leaf (.identifier s' (name r.path)), ⟨substitute.symm, Nat.zero_le _, fun h => ?_⟩,
      .word (wordOperand?_of_free free s')⟩
    simp only [Operand.leaf, Operand.isAwait, Bool.and_eq_true] at h
    exact await (await' (eq_of_beq h.1))

/-- A word. -/
theorem covered_word {x : Text} {s : Span} {o : Operand}
    (admitted : wordOperand? x s = some o) : Covered chosen name (.primary o) [⟨.word x, s⟩] := by
  intro view
  obtain ⟨rfl, rfl⟩ | ⟨hsame, rfl⟩ | ⟨hfree, rfl⟩ := wordOperand?_eq_some admitted
  · refine ⟨_, covers_token (.keep rfl .nil) (by cases view <;> rfl) fun s' => ?_⟩
    refine ⟨.leaf (.this s'), ⟨?_, Nat.le_refl _, fun h => by cases h⟩, .word rfl⟩
    cases view <;> rfl
  · refine ⟨_, covers_token (.keep rfl .nil) (by cases view <;> rfl) fun s' => ?_⟩
    refine ⟨.leaf (.literal s' x), ⟨?_, Nat.le_refl _, fun h => by cases h⟩, .word (hsame s')⟩
    cases view <;> rfl
  · -- only a free name is a reference, and only a chosen one is replaced
    have hthis : (x == Expr.thisName) = false := by
      rw [beq_eq_false_iff_ne]
      rintro rfl
      revert hfree
      decide
    have hreferences : (Operand.leaf (.identifier s x)).expr.referencesIn view = [⟨x, s⟩] := by
      show (Expr.identifier s x).referencesIn view = _
      rw [Expr.referencesIn_of_not_member rfl, Expr.references_of_path rfl, hthis]
      rfl
    have hsubstitute : (Operand.leaf (.identifier s x)).expr.substituteIn chosen name view =
        if chosen ⟨x, s⟩ then .identifier s (name x) else .identifier s x := by
      show (Expr.identifier s x).substituteIn chosen name view = _
      rw [Expr.substituteIn_of_not_member rfl, Expr.substitute_of_path rfl]
      simp only [bne, hthis, Bool.not_false, Bool.true_and]
      rfl
    cases hchosen : chosen ⟨x, s⟩ with
    | true =>
      refine ⟨_, covers_reference (.name hfree) ?_ ?_ ?_⟩
      · rw [hreferences, List.filter_cons_of_pos hchosen]
        rfl
      · rw [hsubstitute, hchosen, if_pos rfl]
        rfl
      · rintro hx
        obtain rfl : x = awaitName := hx
        simp [Operand.leaf, Operand.isAwait, awaitName, Expr.span]
    | false =>
      refine ⟨_, covers_token (.keep rfl .nil) ?_ fun s' => ?_⟩
      · rw [hreferences, List.filter_cons_of_neg (by rw [hchosen]; exact Bool.false_ne_true)]
        rfl
      · refine ⟨.leaf (.identifier s' x), ⟨?_, Nat.le_refl _, fun h => ?_⟩,
          .word (wordOperand?_of_free hfree s')⟩
        · rw [hsubstitute, hchosen, if_neg Bool.false_ne_true]
          rfl
        · simpa [Operand.leaf, Operand.isAwait, Expr.span] using h

/-- A number or a quotation. -/
theorem covered_literal {raw : Text} {s : Span} :
    Covered chosen name (.primary (.leaf (.literal s raw))) [⟨.literal raw, s⟩] := by
  intro view
  refine ⟨_, covers_token (.keep rfl .nil) (by cases view <;> rfl) fun s' => ?_⟩
  refine ⟨.leaf (.literal s' raw), ⟨?_, Nat.le_refl _, fun h => by cases h⟩, .literal⟩
  cases view <;> rfl

/-- An operand in parentheses. -/
theorem covered_parenthesized {o : Operand} {w : List Token} {s e : Span}
    (h : Covered chosen name (.whole o) w) :
    Covered chosen name (.primary (.parenthesized ⟨s.start, e.stop⟩ o))
      (⟨.mark .openParen, s⟩ :: (w ++ [⟨.mark .closeParen, e⟩])) := by
  intro view
  obtain ⟨slots, hcovers⟩ := h view
  obtain ⟨_, rfl, hleads⟩ := hcovers.leads
  refine ⟨.keep ⟨.mark .openParen, s⟩ :: (slots ++ [.keep ⟨.mark .closeParen, e⟩]), ?_, ?_,
    ⟨_, rfl, .keep rfl (hleads.append (.keep rfl .nil))⟩, ?_⟩
  · simp [Slot.tokens, hcovers.tokens]
  · show _ = (o.expr.referencesIn view).filter chosen
    simp [hcovers.swapped]
  · intro w' hordered hrenamed
    cases hrenamed with
    | keep rest =>
      obtain ⟨u, v, rfl, hu, hv⟩ := rest.split
      obtain ⟨e', rfl⟩ := hv.single
      obtain ⟨o', htwin, hreads⟩ := hcovers.renamed u hordered.tail.left hu
      refine ⟨.parenthesized _ o', ⟨htwin.bare, Nat.succ_le_succ htwin.levels, fun hawait => ?_⟩,
        hreads.parenthesized⟩
      rw [isAwait_parenthesized hreads hordered] at hawait
      cases hawait

/-- The tokens of an access to a named member lead from an operand to an operator. -/
theorem leads_access {remarks : List Token} {x : Text} {optional : Bool} {s e : Span}
    (set : Remarks remarks) :
    Leads .operator
      (keepAll (⟨.mark (accessMark optional), s⟩ :: (remarks ++ [⟨.word x, e⟩]))) .operator := by
  refine .keep rfl ?_
  have hname : Expecting.operator.next (.mark (accessMark optional)) = .name := by
    cases optional <;> rfl
  rw [hname]
  show Leads .name (keepAll (remarks ++ [⟨.word x, e⟩])) .operator
  rw [keepAll_append]
  exact (set.leads (by decide)).append (.keep rfl .nil)

/-- Unless the member itself is replaced, its object is covered and the rest stays. -/
theorem covers_object {view : Expr.View} {object : Operand} {w remarks : List Token} {x : Text}
    {optional : Bool} {s e : Span} (h : Covered chosen name (.primary object) w)
    (set : Remarks remarks)
    (references : ((Operand.member object x e.stop optional).expr.referencesIn view).filter chosen
      = object.expr.references.filter chosen)
    (substitute : (Operand.member object x e.stop optional).expr.substituteIn chosen name view
      = .member ⟨object.span.start, e.stop⟩ (object.expr.substitute chosen name) x optional) :
    ∃ slots, Covers chosen name
      ((Operand.member object x e.stop optional).expr.referencesIn view) (· = .operator)
      (fun w' => ∃ o', Twin chosen name view (.member object x e.stop optional) o' ∧
        Reads (.primary o') w')
      (w ++ (⟨.mark (accessMark optional), s⟩ :: (remarks ++ [⟨.word x, e⟩]))) slots := by
  obtain ⟨slots, hcovers⟩ := h .value
  obtain ⟨_, rfl, hleads⟩ := hcovers.leads
  refine ⟨slots ++ keepAll (⟨.mark (accessMark optional), s⟩ :: (remarks ++ [⟨.word x, e⟩])), ?_,
    ?_, ⟨_, rfl, hleads.append (leads_access set)⟩, ?_⟩
  · rw [List.flatMap_append, hcovers.tokens, tokens_keepAll]
  · rw [List.filterMap_append, hcovers.swapped, reference?_keepAll, List.append_nil]
    exact references.symm
  · intro w' hordered hrenamed
    obtain ⟨u, v, rfl, hu, hv⟩ := hrenamed.split
    obtain ⟨object', htwin, hreads⟩ := hcovers.renamed u hordered.left hu
    cases hv with
    | @keep _ s' _ _ rest =>
      change Renamed name (keepAll (remarks ++ [⟨.word x, e⟩])) _ at rest
      rw [keepAll_append] at rest
      obtain ⟨remarks', v', rfl, hset, hv'⟩ := rest.split
      obtain ⟨e', rfl⟩ := hv'.single
      refine ⟨.member object' x e'.stop optional, ⟨?_, ?_, fun h => by cases h⟩,
        hreads.member (hset.remarks set)⟩
      · show Expr.member Expr.nowhere object'.expr.bare x optional = _
        rw [substitute, Expr.bare, htwin.bare]
        rfl
      · exact above_le (.cons htwin.levels .nil)

/-- Access to a named member. -/
theorem covered_member (hroot : Expr.DependsOnRoot chosen) {object : Operand}
    {w remarks : List Token} {x : Text} {optional : Bool} {s e : Span}
    (head : Reads (.primary object) w) (h : Covered chosen name (.primary object) w)
    (set : Remarks remarks) :
    Covered chosen name (.primary (.member object x e.stop optional))
      (w ++ (⟨.mark (accessMark optional), s⟩ :: (remarks ++ [⟨.word x, e⟩]))) := by
  intro view
  cases view with
  | callee => exact covers_object h set rfl rfl
  | value =>
    by_cases hpath : ∃ path,
        (Expr.member ⟨object.span.start, e.stop⟩ object.expr x optional).path? = some path ∧
          chosen ⟨path, ⟨object.span.start, e.stop⟩⟩ = true
    · obtain ⟨path, hpath, hchosen⟩ := hpath
      obtain ⟨front, hfront, rfl, rfl⟩ := Expr.path?_member hpath
      refine ⟨_, covers_reference (.dotted head hfront set) ?_ ?_ ?_⟩
      · show ((Expr.member ⟨object.span.start, e.stop⟩ object.expr x false).references).filter
          chosen = _
        rw [Expr.references_of_path hpath, Expr.extend_ne_thisName]
        show List.filter chosen [⟨_, ⟨object.span.start, e.stop⟩⟩] = _
        rw [List.filter_cons_of_pos hchosen]
        rfl
      · show Expr.bare (Expr.substitute chosen name
          (.member ⟨object.span.start, e.stop⟩ object.expr x false)) = _
        rw [Expr.substitute_of_path hpath, bne, Expr.extend_ne_thisName]
        show Expr.bare (if chosen ⟨_, ⟨object.span.start, e.stop⟩⟩ = true then _ else _) = _
        rw [if_pos hchosen]
        rfl
      · -- a path with a dot is not `await`
        intro hawait
        have hdot : '.' ∈ awaitName := by
          rw [← hawait]
          exact List.mem_append_right _ (List.mem_cons_self ..)
        exact absurd hdot (by decide)
    · have hnot : ∀ path,
          (Expr.member ⟨object.span.start, e.stop⟩ object.expr x optional).path? = some path →
            chosen ⟨path, ⟨object.span.start, e.stop⟩⟩ = false := by
        intro path hmember
        exact Bool.eq_false_iff.mpr fun hchosen => hpath ⟨path, hmember, hchosen⟩
      exact covers_object h set (Expr.filter_references_member hroot hnot)
        (Expr.substitute_member_of_not_chosen hroot hnot)

/-- Access by a computed position. -/
theorem covered_index {object position : Operand} {w link remarks v : List Token} {optional : Bool}
    {s : Span} (h : Covered chosen name (.primary object) w) (linked : Link object optional link)
    (set : Remarks remarks) (inner : Covered chosen name (.whole position) v) :
    Covered chosen name (.primary (.index object position s.stop optional))
      (w ++ (link ++ (remarks ++ (v ++ [⟨.mark .closeBracket, s⟩])))) := by
  intro view
  obtain ⟨slots, hcovers⟩ := h .value
  obtain ⟨_, rfl, hleads⟩ := hcovers.leads
  obtain ⟨slots', hcovers'⟩ := inner .value
  obtain ⟨_, rfl, hleads'⟩ := hcovers'.leads
  refine ⟨slots ++ (keepAll link ++ (keepAll remarks ++
    (slots' ++ [.keep ⟨.mark .closeBracket, s⟩]))), ?_, ?_, ⟨_, rfl, ?_⟩, ?_⟩
  · simp [hcovers.tokens, hcovers'.tokens]
  · have hreferences : (Operand.index object position s.stop optional).expr.referencesIn view =
        object.expr.referencesIn .value ++ position.expr.referencesIn .value := by
      cases view <;> rfl
    rw [hreferences, List.filter_append, ← hcovers.swapped, ← hcovers'.swapped]
    simp
  · exact hleads.append (linked.leads.append ((set.leads (by decide)).append
      (hleads'.append (.keep rfl .nil))))
  · intro w' hordered hrenamed
    obtain ⟨u, u₁, rfl, hu, hrest⟩ := hrenamed.split
    obtain ⟨link', u₂, rfl, hlink, hrest⟩ := hrest.split
    obtain ⟨remarks', u₃, rfl, hset, hrest⟩ := hrest.split
    obtain ⟨v', u₄, rfl, hv, hlast⟩ := hrest.split
    obtain ⟨s', rfl⟩ := hlast.single
    obtain ⟨object', htwin, hreads⟩ := hcovers.renamed u hordered.left hu
    obtain ⟨position', htwin', hreads'⟩ :=
      hcovers'.renamed v' hordered.right.right.right.left hv
    refine ⟨_, (htwin.index htwin' s.stop s'.stop optional).of_not_member rfl view,
      hreads.index (hlink.link linked htwin.await) (hset.remarks set) hreads'⟩

/-- A call. -/
theorem covered_call {callee : Operand} {w v : List Token} {arguments : List Operand} {s e : Span}
    (h : Covered chosen name (.primary callee) w) (await : callee.isAwait = false)
    (inner : Covered chosen name (.bracket arguments) v) :
    Covered chosen name (.primary (.call callee arguments.reverse e.stop))
      (w ++ (⟨.mark .openParen, s⟩ :: (v ++ [⟨.mark .closeParen, e⟩]))) := by
  intro view
  obtain ⟨slots, hcovers⟩ := h .callee
  obtain ⟨_, rfl, hleads⟩ := hcovers.leads
  obtain ⟨slots', hcovers'⟩ := inner
  obtain ⟨now, -, hleads'⟩ := hcovers'.leads
  refine ⟨slots ++ (.keep ⟨.mark .openParen, s⟩ :: (slots' ++ [.keep ⟨.mark .closeParen, e⟩])), ?_,
    ?_, ⟨_, rfl, ?_⟩, ?_⟩
  · simp [hcovers.tokens, hcovers'.tokens]
  · have hreferences : (Operand.call callee arguments.reverse e.stop).expr.referencesIn view =
        callee.expr.referencesIn .callee
          ++ Expr.referencesAll (arguments.reverse.map (·.expr)) := by
      rw [Expr.referencesIn_of_not_member rfl]
      exact Expr.references_call ..
    rw [hreferences, List.filter_append, ← hcovers.swapped, ← hcovers'.swapped]
    simp
  · refine hleads.append (.keep rfl (hleads'.append (.keep ?_ .nil)))
    cases now <;> rfl
  · intro w' hordered hrenamed
    obtain ⟨u, u₁, rfl, hu, hrest⟩ := hrenamed.split
    cases hrest with
    | keep rest =>
      obtain ⟨v', u₂, rfl, hv, hlast⟩ := rest.split
      obtain ⟨e', rfl⟩ := hlast.single
      obtain ⟨callee', htwin, hreads⟩ := hcovers.renamed u hordered.left hu
      obtain ⟨arguments', htwins, hreads'⟩ :=
        hcovers'.renamed v' hordered.right.tail.left hv
      exact ⟨_, (htwin.call (List.rel_reverse htwins) e.stop e'.stop).of_not_member rfl view,
        hreads.call (htwin.isAwait_eq_false await) hreads'⟩

/-- An array. -/
theorem covered_array {v : List Token} {elements : List Operand} {s e : Span}
    (inner : Covered chosen name (.bracket elements) v) :
    Covered chosen name (.primary (.array elements.reverse ⟨s.start, e.stop⟩))
      (⟨.mark .openBracket, s⟩ :: (v ++ [⟨.mark .closeBracket, e⟩])) := by
  intro view
  obtain ⟨slots, hcovers⟩ := inner
  obtain ⟨now, -, hleads⟩ := hcovers.leads
  refine ⟨.keep ⟨.mark .openBracket, s⟩ :: (slots ++ [.keep ⟨.mark .closeBracket, e⟩]), ?_, ?_,
    ⟨_, rfl, ?_⟩, ?_⟩
  · simp [hcovers.tokens]
  · have hreferences : (Operand.array elements.reverse ⟨s.start, e.stop⟩).expr.referencesIn view =
        Expr.referencesAll (elements.reverse.map (·.expr)) := by
      rw [Expr.referencesIn_of_not_member rfl]
      exact Expr.references_array ..
    rw [hreferences, ← hcovers.swapped]
    simp
  · refine .keep rfl (hleads.append (.keep ?_ .nil))
    cases now <;> rfl
  · intro w' hordered hrenamed
    cases hrenamed with
    | keep rest =>
      obtain ⟨v', u, rfl, hv, hlast⟩ := rest.split
      obtain ⟨e', rfl⟩ := hlast.single
      obtain ⟨elements', htwins, hreads⟩ := hcovers.renamed v' hordered.tail.left hv
      exact ⟨_, (Twin.array (List.rel_reverse htwins) _ _).of_not_member rfl view, hreads.array⟩

/-! ## Items of brackets -/

/-- The references of items, last first, with one more. -/
theorem filter_referencesAll_cons (o : Operand) (elements : List Operand) :
    (Expr.referencesAll ((o :: elements).reverse.map (·.expr))).filter chosen =
      (Expr.referencesAll (elements.reverse.map (·.expr))).filter chosen
        ++ (o.expr.referencesIn .value).filter chosen := by
  rw [List.reverse_cons, List.map_append, Expr.referencesAll_eq, List.flatMap_append,
    ← Expr.referencesAll_eq, List.filter_append]
  simp [Expr.referencesIn]

/-- An empty place. -/
theorem covered_elision {elements : List Operand} {w : List Token} {s : Span}
    (h : Covered chosen name (.items elements) w) :
    Covered chosen name (.items elements) (w ++ [⟨.mark .comma, s⟩]) := by
  obtain ⟨slots, hcovers⟩ := h
  obtain ⟨_, rfl, hleads⟩ := hcovers.leads
  refine ⟨slots ++ [.keep ⟨.mark .comma, s⟩], ?_, ?_, ⟨_, rfl, hleads.append (.keep rfl .nil)⟩, ?_⟩
  · simp [hcovers.tokens]
  · simp [hcovers.swapped]
  · intro w' hordered hrenamed
    obtain ⟨u, v, rfl, hu, hv⟩ := hrenamed.split
    obtain ⟨s', rfl⟩ := hv.single
    obtain ⟨elements', htwins, hreads⟩ := hcovers.renamed u hordered.left hu
    exact ⟨elements', htwins, hreads.elision⟩

/-- One more item. -/
theorem covered_item {elements : List Operand} {o : Operand} {w v : List Token} {s : Span}
    (h : Covered chosen name (.items elements) w) (last : Covered chosen name (.whole o) v) :
    Covered chosen name (.items (o :: elements)) (w ++ (v ++ [⟨.mark .comma, s⟩])) := by
  obtain ⟨slots, hcovers⟩ := h
  obtain ⟨_, rfl, hleads⟩ := hcovers.leads
  obtain ⟨slots', hcovers'⟩ := last .value
  obtain ⟨_, rfl, hleads'⟩ := hcovers'.leads
  refine ⟨slots ++ (slots' ++ [.keep ⟨.mark .comma, s⟩]), ?_, ?_,
    ⟨_, rfl, hleads.append (hleads'.append (.keep rfl .nil))⟩, ?_⟩
  · simp [hcovers.tokens, hcovers'.tokens]
  · rw [filter_referencesAll_cons, ← hcovers.swapped, ← hcovers'.swapped]
    simp
  · intro w' hordered hrenamed
    obtain ⟨u, x, rfl, hu, hrest⟩ := hrenamed.split
    obtain ⟨v', y, rfl, hv, hlast⟩ := hrest.split
    obtain ⟨s', rfl⟩ := hlast.single
    obtain ⟨elements', htwins, hreads⟩ := hcovers.renamed u hordered.left hu
    obtain ⟨o', htwin, hreads'⟩ := hcovers'.renamed v' hordered.right.left hv
    exact ⟨o' :: elements', .cons htwin htwins, hreads.item hreads'⟩

/-- Items up to a place where one may follow. -/
theorem covered_closed {elements : List Operand} {w : List Token}
    (h : Covered chosen name (.items elements) w) : Covered chosen name (.bracket elements) w := by
  obtain ⟨slots, hcovers⟩ := h
  obtain ⟨now, -, hleads⟩ := hcovers.leads
  refine ⟨slots, hcovers.tokens, hcovers.swapped, ⟨now, trivial, hleads⟩, ?_⟩
  intro w' hordered hrenamed
  obtain ⟨elements', htwins, hreads⟩ := hcovers.renamed w' hordered hrenamed
  exact ⟨elements', htwins, hreads.closed⟩

/-- Items with a last one. -/
theorem covered_closedBehind {elements : List Operand} {o : Operand} {w v : List Token}
    (h : Covered chosen name (.items elements) w) (last : Covered chosen name (.whole o) v) :
    Covered chosen name (.bracket (o :: elements)) (w ++ v) := by
  obtain ⟨slots, hcovers⟩ := h
  obtain ⟨_, rfl, hleads⟩ := hcovers.leads
  obtain ⟨slots', hcovers'⟩ := last .value
  obtain ⟨_, rfl, hleads'⟩ := hcovers'.leads
  refine ⟨slots ++ slots', ?_, ?_, ⟨_, trivial, hleads.append hleads'⟩, ?_⟩
  · simp [hcovers.tokens, hcovers'.tokens]
  · rw [filter_referencesAll_cons, ← hcovers.swapped, ← hcovers'.swapped]
    simp
  · intro w' hordered hrenamed
    obtain ⟨u, v', rfl, hu, hv⟩ := hrenamed.split
    obtain ⟨elements', htwins, hreads⟩ := hcovers.renamed u hordered.left hu
    obtain ⟨o', htwin, hreads'⟩ := hcovers'.renamed v' hordered.right hv
    exact ⟨o' :: elements', .cons htwin htwins, hreads.closedBehind hreads'⟩

/-! ## Waiting operations -/

section Pending

variable {frames : List Frame} {last consequent : Operand} {w v u remarks : List Token} {s e : Span}

/-- One more prefix. -/
theorem covered_unary {m : Mark} {op : UnaryOperator} (h : Covered chosen name (.pending frames) w)
    (operator : prefixOperator? m = some op) :
    Covered chosen name (.pending (.unary op s.start :: frames)) (w ++ [⟨.mark m, s⟩]) := by
  obtain ⟨slots, hcovers⟩ := h
  obtain ⟨_, rfl, hleads⟩ := hcovers.leads
  have hlink : Leads .operand [.keep ⟨.mark m, s⟩] .operand := by
    refine .keep ?_ ?_
    · cases m with
      | binary op => exact Option.isSome_iff_exists.mpr ⟨_, operator⟩
      | _ => rfl
    · cases m <;> first | exact .nil | cases operator
  refine ⟨slots ++ [.keep ⟨.mark m, s⟩], ?_, ?_, ⟨_, rfl, hleads.append hlink⟩, ?_⟩
  · simp [hcovers.tokens]
  · simp [hcovers.swapped, framesReferences, frameReferences]
  · intro w' hordered hrenamed
    obtain ⟨u, v, rfl, hu, hv⟩ := hrenamed.split
    obtain ⟨s', rfl⟩ := hv.single
    obtain ⟨frames', htwins, hreads⟩ := hcovers.renamed u hordered.left hu
    exact ⟨.unary op s'.start :: frames', .cons .unary htwins, hreads.unary operator⟩

/-- One more operator behind an operand. -/
theorem covered_binary {op : BinaryOperator} (h : Covered chosen name (.pending frames) w)
    (operand : Covered chosen name (.primary last) v)
    (await : (last.isAwait && startsOperand (.binary op)) = false) :
    Covered chosen name
      (.pending (.binary op (settle op.rank frames last).2 :: (settle op.rank frames last).1))
      (w ++ (v ++ [⟨.mark (.binary op), s⟩])) := by
  obtain ⟨slots, hcovers⟩ := h
  obtain ⟨_, rfl, hleads⟩ := hcovers.leads
  obtain ⟨slots', hcovers'⟩ := operand .value
  obtain ⟨_, rfl, hleads'⟩ := hcovers'.leads
  refine ⟨slots ++ (slots' ++ [.keep ⟨.mark (.binary op), s⟩]), ?_, ?_,
    ⟨_, rfl, hleads.append (hleads'.append (.keep rfl .nil))⟩, ?_⟩
  · simp [hcovers.tokens, hcovers'.tokens]
  · show _ = (framesReferences _ ++ Expr.references _).filter chosen
    rw [references_settle, List.filter_append, ← hcovers.swapped]
    show _ = _ ++ (last.expr.referencesIn .value).filter chosen
    rw [← hcovers'.swapped]
    simp
  · intro w' hordered hrenamed
    obtain ⟨u, x, rfl, hu, hrest⟩ := hrenamed.split
    obtain ⟨v', y, rfl, hv, hlast⟩ := hrest.split
    obtain ⟨s', rfl⟩ := hlast.single
    obtain ⟨frames', htwins, hreads⟩ := hcovers.renamed u hordered.left hu
    obtain ⟨last', htwin, hreads'⟩ := hcovers'.renamed v' hordered.right.left hv
    obtain ⟨habove, hleft⟩ := settle_twin htwins htwin op.rank
    have hawait : (last'.isAwait && startsOperand (.binary op)) = false := by
      rw [Bool.and_eq_false_iff] at await ⊢
      exact await.imp htwin.isAwait_eq_false id
    exact ⟨_, .cons (.binary hleft) habove, hreads.binary hreads' hawait⟩

/-- One more conditional up to its last part. -/
theorem covered_conditional (h : Covered chosen name (.pending frames) w)
    (operand : Covered chosen name (.primary last) v) (set : Remarks remarks)
    (inner : Covered chosen name (.whole consequent) u) :
    Covered chosen name
      (.pending (.alternate (settle 0 frames last).2 consequent :: (settle 0 frames last).1))
      (w ++ (v ++ (⟨.mark .question, s⟩ :: (remarks ++ (u ++ [⟨.mark .colon, e⟩]))))) := by
  obtain ⟨slots, hcovers⟩ := h
  obtain ⟨_, rfl, hleads⟩ := hcovers.leads
  obtain ⟨slots', hcovers'⟩ := operand .value
  obtain ⟨_, rfl, hleads'⟩ := hcovers'.leads
  obtain ⟨inside, hinside⟩ := inner .value
  obtain ⟨_, rfl, hleads''⟩ := hinside.leads
  refine ⟨slots ++ (slots' ++ (.keep ⟨.mark .question, s⟩ :: (keepAll remarks ++
    (inside ++ [.keep ⟨.mark .colon, e⟩])))), ?_, ?_, ⟨_, rfl, ?_⟩, ?_⟩
  · simp [hcovers.tokens, hcovers'.tokens, hinside.tokens]
  · have hreferences : framesReferences
        (.alternate (settle 0 frames last).2 consequent :: (settle 0 frames last).1) =
          framesReferences frames ++ last.expr.references ++ consequent.expr.references := by
      rw [← references_settle 0, List.append_assoc]
      rfl
    rw [hreferences, List.filter_append, List.filter_append, ← hcovers.swapped]
    show _ = _ ++ (last.expr.referencesIn .value).filter chosen
      ++ (consequent.expr.referencesIn .value).filter chosen
    rw [← hcovers'.swapped, ← hinside.swapped]
    simp
  · have hset : Leads .operand (keepAll remarks) .operand := set.leads (by decide)
    exact hleads.append (hleads'.append (.keep rfl (hset.append (hleads''.append (.keep rfl .nil)))))
  · intro w' hordered hrenamed
    obtain ⟨w₁, x₁, rfl, h₁, hrest⟩ := hrenamed.split
    obtain ⟨w₂, x₂, rfl, h₂, hrest⟩ := hrest.split
    cases hrest with
    | keep rest =>
      obtain ⟨w₃, x₃, rfl, h₃, hrest⟩ := rest.split
      obtain ⟨w₄, x₄, rfl, h₄, hlast⟩ := hrest.split
      obtain ⟨e', rfl⟩ := hlast.single
      obtain ⟨frames', htwins, hreads⟩ := hcovers.renamed w₁ hordered.left h₁
      obtain ⟨last', htwin, hreads'⟩ := hcovers'.renamed w₂ hordered.right.left h₂
      obtain ⟨consequent', htwin', hreads''⟩ :=
        hinside.renamed w₄ hordered.right.right.tail.right.left h₄
      obtain ⟨habove, htest⟩ := settle_twin htwins htwin 0
      exact ⟨_, .cons (.alternate htest htwin') habove,
        hreads.conditional hreads' (h₃.remarks set) hreads''⟩

/-- One more line set aside. -/
theorem covered_remark {frame : Frame} (h : Covered chosen name (.pending (frame :: frames)) w) :
    Covered chosen name (.pending (frame :: frames)) (w ++ [⟨.remark, s⟩]) := by
  obtain ⟨slots, hcovers⟩ := h
  obtain ⟨_, rfl, hleads⟩ := hcovers.leads
  refine ⟨slots ++ [.keep ⟨.remark, s⟩], ?_, ?_, ⟨_, rfl, hleads.append (.keep rfl .nil)⟩, ?_⟩
  · simp [hcovers.tokens]
  · simp [hcovers.swapped]
  · intro w' hordered hrenamed
    obtain ⟨u, v, rfl, hu, hv⟩ := hrenamed.split
    obtain ⟨s', rfl⟩ := hv.single
    obtain ⟨frames', htwins, hreads⟩ := hcovers.renamed u hordered.left hu
    cases htwins with
    | cons hframe hframes => exact ⟨_, .cons hframe hframes, hreads.remark⟩

/-- A whole expression. -/
theorem covered_whole (front : Reads (.pending frames) w)
    (h : Covered chosen name (.pending frames) w) (operand : Covered chosen name (.primary last) v) :
    Covered chosen name (.whole (close frames last).2) (w ++ v) := by
  intro view
  -- what is called as a method is an operand alone, not an operation
  have hparts : ∃ view',
      (close frames last).2.expr.referencesIn view =
        framesReferences frames ++ last.expr.referencesIn view' ∧
      ∀ frames' last', List.Forall₂ (FrameTwin chosen name) frames frames' →
        Twin chosen name view' last last' →
        Twin chosen name view (close frames last).2 (close frames' last').2 := by
    cases hframes : frames with
    | nil =>
      refine ⟨view, rfl, fun frames' last' htwins htwin => ?_⟩
      cases htwins
      exact htwin
    | cons frame rest =>
      have hpending := front.isPending
      rw [hframes] at hpending
      have hmember := Expr.isMember_of_isOperation (isOperation_close hpending last)
      refine ⟨.value, ?_, fun frames' last' htwins htwin => ?_⟩
      · rw [Expr.referencesIn_of_not_member hmember, references_close hpending]
        rfl
      · exact (close_twin htwins htwin).of_not_member hmember view
  obtain ⟨view', hreferences, htwins⟩ := hparts
  obtain ⟨slots, hcovers⟩ := h
  obtain ⟨_, rfl, hleads⟩ := hcovers.leads
  obtain ⟨slots', hcovers'⟩ := operand view'
  obtain ⟨_, rfl, hleads'⟩ := hcovers'.leads
  refine ⟨slots ++ slots', ?_, ?_, ⟨_, rfl, hleads.append hleads'⟩, ?_⟩
  · simp [hcovers.tokens, hcovers'.tokens]
  · rw [hreferences, List.filter_append, ← hcovers.swapped, ← hcovers'.swapped]
    simp
  · intro w' hordered hrenamed
    obtain ⟨u, v', rfl, hu, hv⟩ := hrenamed.split
    obtain ⟨frames', hframes, hreads⟩ := hcovers.renamed u hordered.left hu
    obtain ⟨last', htwin, hreads'⟩ := hcovers'.renamed v' hordered.right hv
    exact ⟨_, htwins frames' last' hframes htwin, hreads.whole hreads'⟩

end Pending

/-! ## Derivations -/

/-- **The tokens of a derivation fall into slots**, and renamed tokens have a derivation of the
expression with names for its chosen references. -/
theorem Reads.covered (hroot : Expr.DependsOnRoot chosen) {phrase : Phrase} {w : List Token}
    (h : Reads phrase w) : Covered chosen name phrase w := by
  induction h with
  | word admitted => exact covered_word admitted
  | literal => exact covered_literal
  | parenthesized _ ih => exact covered_parenthesized ih
  | member head set ih => exact covered_member hroot head ih set
  | index _ linked set _ ih ihinner => exact covered_index ih linked set ihinner
  | call _ await _ ih ihinner => exact covered_call ih await ihinner
  | array _ ih => exact covered_array ih
  | noItems =>
    refine ⟨[], rfl, rfl, ⟨_, rfl, .nil⟩, fun w' _ hrenamed => ?_⟩
    cases hrenamed
    exact ⟨[], .nil, .noItems⟩
  | elision _ ih => exact covered_elision ih
  | item _ _ ih ihlast => exact covered_item ih ihlast
  | closed _ ih => exact covered_closed ih
  | closedBehind _ _ ih ihlast => exact covered_closedBehind ih ihlast
  | nothing =>
    refine ⟨[], rfl, rfl, ⟨_, rfl, .nil⟩, fun w' _ hrenamed => ?_⟩
    cases hrenamed
    exact ⟨[], .nil, .nothing⟩
  | unary _ operator ih => exact covered_unary ih operator
  | binary _ _ await ih ihoperand => exact covered_binary ih ihoperand await
  | conditional _ _ set _ ih ihoperand ihinner => exact covered_conditional ih ihoperand set ihinner
  | remark _ ih => exact covered_remark ih
  | whole front _ ih ihoperand => exact covered_whole front ih ihoperand

/-! ## Operators spelled as words -/

/-- The token is an operator that is spelled as a word. -/
def Shape.isWordOperator : Shape → Bool
  | .mark (.unary op) => op.isWord
  | .mark (.binary op) => op.isWord
  | _ => false

/-- The number of operators spelled as words among tokens. -/
def wordOperatorsIn (w : List Token) : Nat :=
  w.countP (·.shape.isWordOperator)

theorem wordOperatorsIn_append (w v : List Token) :
    wordOperatorsIn (w ++ v) = wordOperatorsIn w + wordOperatorsIn v :=
  List.countP_append

theorem wordOperatorsIn_cons (token : Token) (w : List Token) :
    wordOperatorsIn (token :: w) = token.shape.isWordOperator.toNat + wordOperatorsIn w := by
  rw [wordOperatorsIn, List.countP_cons, Nat.add_comm]
  cases token.shape.isWordOperator <;> rfl

@[simp] theorem wordOperatorsIn_nil : wordOperatorsIn [] = 0 :=
  rfl

theorem Remarks.wordOperatorsIn {w : List Token} (h : Remarks w) : wordOperatorsIn w = 0 := by
  rw [Expression.wordOperatorsIn, List.countP_eq_zero]
  intro token htoken
  rw [h token htoken]
  exact Bool.false_ne_true

theorem Link.wordOperatorsIn {object : Operand} {optional : Bool} {link : List Token}
    (h : Link object optional link) : wordOperatorsIn link = 0 := by
  cases h with
  | plain => rfl
  | optional set =>
    rw [wordOperatorsIn_cons, wordOperatorsIn_append, set.wordOperatorsIn]
    rfl

/-- The operators spelled as words in constructs that wait. -/
def framesWordOperators : List Frame → Nat
  | [] => 0
  | .unary op _ :: frames => framesWordOperators frames + op.isWord.toNat
  | .binary op left :: frames =>
    framesWordOperators frames + left.expr.wordOperators + op.isWord.toNat
  | .alternate test consequent :: frames =>
    framesWordOperators frames + test.expr.wordOperators + consequent.expr.wordOperators
  | _ :: frames => framesWordOperators frames

/-- Completing operations keeps the operators. -/
theorem wordOperators_settle (next : Nat) (frames : List Frame) (last : Operand) :
    framesWordOperators (settle next frames last).1
        + (settle next frames last).2.expr.wordOperators
      = framesWordOperators frames + last.expr.wordOperators := by
  induction frames generalizing last with
  | nil => rfl
  | cons frame frames ih =>
    cases frame with
    | unary op start =>
      rw [settle, ih]
      simp only [Operand.unary, Operand.compound, Expr.wordOperators, framesWordOperators]
      omega
    | binary op left =>
      rw [settle]
      split
      · rw [ih]
        simp only [Operand.binary, Operand.compound, Expr.wordOperators, framesWordOperators]
        omega
      · rfl
    | _ => rfl

/-- Completing all operations keeps the operators. -/
theorem wordOperators_close {frames : List Frame} (h : ∀ frame ∈ frames, frame.isPending = true)
    (last : Operand) :
    (close frames last).2.expr.wordOperators
      = framesWordOperators frames + last.expr.wordOperators := by
  induction frames generalizing last with
  | nil => exact (Nat.zero_add _).symm
  | cons frame frames ih =>
    have hrest := fun f hf => h f (List.mem_cons_of_mem _ hf)
    cases frame with
    | unary op start =>
      rw [close, ih hrest]
      simp only [Operand.unary, Operand.compound, Expr.wordOperators, framesWordOperators]
      omega
    | binary op left =>
      rw [close, ih hrest]
      simp only [Operand.binary, Operand.compound, Expr.wordOperators, framesWordOperators]
      omega
    | alternate test consequent =>
      rw [close, ih hrest]
      simp only [Operand.conditional, Operand.compound, Expr.wordOperators, framesWordOperators]
      omega
    | _ => cases h _ (List.mem_cons_self ..)

/-- Several expressions one after the other. -/
theorem wordOperatorsAll_append (es fs : List Expr) :
    Expr.wordOperatorsAll (es ++ fs) = Expr.wordOperatorsAll es + Expr.wordOperatorsAll fs := by
  induction es with
  | nil => exact (Nat.zero_add _).symm
  | cons e es ih => rw [List.cons_append, Expr.wordOperatorsAll, ih, Expr.wordOperatorsAll, Nat.add_assoc]

/-- The tokens of a phrase have the operators of what they stand for. -/
def Counted : Phrase → List Token → Prop
  | .primary o, w | .whole o, w => o.expr.wordOperators = wordOperatorsIn w
  | .pending frames, w => framesWordOperators frames = wordOperatorsIn w
  | .items elements, w | .bracket elements, w =>
    Expr.wordOperatorsAll (elements.reverse.map (·.expr)) = wordOperatorsIn w

/-- **Each operator spelled as a word is one token.** -/
theorem Reads.wordOperators {phrase : Phrase} {w : List Token} (h : Reads phrase w) :
    Counted phrase w := by
  -- completing operations moves operators from the frames into operands, where they count the same
  induction h with
  | word admitted =>
    obtain ⟨-, rfl⟩ | ⟨-, rfl⟩ | ⟨-, rfl⟩ := wordOperand?_eq_some admitted <;> rfl
  | literal | noItems | nothing => rfl
  | parenthesized _ ih =>
    simp only [Counted, wordOperatorsIn_cons, wordOperatorsIn_append] at ih ⊢
    simpa [Operand.parenthesized, Shape.isWordOperator] using ih
  | @member _ _ _ _ optional _ _ _ set ih =>
    simp only [Counted, wordOperatorsIn_cons, wordOperatorsIn_append, set.wordOperatorsIn] at ih ⊢
    cases optional <;>
      simpa [Operand.member, Operand.compound, Expr.wordOperators, Shape.isWordOperator,
        accessMark] using ih
  | index _ linked set _ ih ihinner =>
    simp only [Counted, wordOperatorsIn_append, wordOperatorsIn_cons, linked.wordOperatorsIn,
      set.wordOperatorsIn, Operand.index, Operand.compound, Expr.wordOperators] at ih ihinner ⊢
    rw [ih, ihinner]
    simp [Shape.isWordOperator]
  | call _ _ _ ih ihinner =>
    simp only [Counted, wordOperatorsIn_append, wordOperatorsIn_cons, Operand.call,
      Operand.compound, Expr.wordOperators] at ih ihinner ⊢
    rw [ih, ihinner]
    simp [Shape.isWordOperator]
  | array _ ih =>
    simp only [Counted, wordOperatorsIn_append, wordOperatorsIn_cons, Operand.array,
      Operand.compound, Expr.wordOperators] at ih ⊢
    rw [ih]
    simp [Shape.isWordOperator]
  | elision _ ih =>
    simp only [Counted, wordOperatorsIn_append, wordOperatorsIn_cons] at ih ⊢
    rw [ih]
    simp [Shape.isWordOperator]
  | item _ _ ih ihlast =>
    simp only [Counted, wordOperatorsIn_append, wordOperatorsIn_cons, List.reverse_cons,
      List.map_append, wordOperatorsAll_append] at ih ihlast ⊢
    rw [ih, ← ihlast]
    simp [Shape.isWordOperator, Expr.wordOperatorsAll]
  | closed _ ih => exact ih
  | closedBehind _ _ ih ihlast =>
    simp only [Counted, wordOperatorsIn_append, List.reverse_cons, List.map_append,
      wordOperatorsAll_append] at ih ihlast ⊢
    rw [ih, ← ihlast]
    simp [Expr.wordOperatorsAll]
  | @unary _ _ m op _ _ operator ih =>
    simp only [Counted, wordOperatorsIn_append, wordOperatorsIn_cons, framesWordOperators] at ih ⊢
    rw [ih]
    cases m with
    | unary op => cases operator; rfl
    | binary op =>
      cases op <;> simp only [prefixOperator?, signOperator?] at operator <;> cases operator <;> rfl
    | _ => cases operator
  | @binary frames last _ _ op _ _ _ _ ih ihoperand =>
    simp only [Counted, wordOperatorsIn_append, wordOperatorsIn_cons, framesWordOperators]
      at ih ihoperand ⊢
    rw [wordOperators_settle, ih, ihoperand]
    simp only [Shape.isWordOperator, wordOperatorsIn_nil]
    omega
  | conditional _ _ set _ ih ihoperand ihinner =>
    simp only [Counted, wordOperatorsIn_append, wordOperatorsIn_cons, framesWordOperators,
      set.wordOperatorsIn] at ih ihoperand ihinner ⊢
    rw [wordOperators_settle, ih, ihoperand, ihinner]
    simp only [Shape.isWordOperator, wordOperatorsIn_nil, Bool.toNat_false]
    omega
  | remark _ ih =>
    simp only [Counted, wordOperatorsIn_append, wordOperatorsIn_cons] at ih ⊢
    rw [ih]
    simp [Shape.isWordOperator]
  | whole front _ ih ihoperand =>
    simp only [Counted, wordOperatorsIn_append] at ih ihoperand ⊢
    rw [wordOperators_close front.isPending, ih, ihoperand]

end DataBinding.Expression
