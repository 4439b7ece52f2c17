/-
# Two-way bindings and calls

A two-way binding writes to its target, and the result of a call is no target.  Of the expressions
that hold a call, a two-way binding nevertheless admits one form: the negated call of a named
function, which counts as a negated path.  The other ones show no component state and are reported.

* `isAdmissible_twoWay_iff` : which expressions with a call a two-way binding admits.
* `Shows.isNegatedCall`     : which of them show component state.
* `mem_diagnostics`         : a binding that is reported at a place is reported by the whole walk.
* `twoWay_calls`            : the account for both walks over a document.
-/
import DataBinding.Proofs.Template.Learning

namespace DataBinding

/-! ## Expressions with calls -/

namespace Expr

mutual

/-- A call stands somewhere in the expression. -/
def holdsCall : Expr → Bool
  | identifier _ _ | this _ | literal _ _ => false
  | member _ object _ _ => holdsCall object
  | index _ object position _ => holdsCall object || holdsCall position
  | call _ _ _ => true
  | unary _ _ argument => holdsCall argument
  | binary _ _ left right => holdsCall left || holdsCall right
  | conditional _ test consequent alternate =>
    holdsCall test || holdsCall consequent || holdsCall alternate
  | array _ elements => holdsCallAny elements

/-- A call stands somewhere in one of the expressions. -/
def holdsCallAny : List Expr → Bool
  | [] => false
  | e :: es => holdsCall e || holdsCallAny es

end

/-- The negation of a call of a named function. -/
inductive IsNegatedCall : Expr → Prop
  | intro {s s' s'' : Span} {name : Text} {arguments : List Expr} :
      IsNegatedCall (unary s .not (call s' (identifier s'' name) arguments))

/-- A path holds no call, by induction along its members. -/
theorem holdsCall_of_isPropertyPath : ∀ e : Expr, e.isPropertyPath = true → e.holdsCall = false
  | identifier _ _, _ => rfl
  | member _ object _ false, h => holdsCall_of_isPropertyPath object h
  | member _ _ _ true, h | this _, h | literal _ _, h | index _ _ _ _, h | call _ _ _, h
  | unary _ _ _, h | binary _ _ _ _, h | conditional _ _ _ _, h | array _ _, h => by
    simp [isPropertyPath] at h

/-- A computed call is the call of a named function. -/
theorem exists_of_isComputedCall {e : Expr} (h : e.isComputedCall = true) :
    ∃ s s' name arguments, e = call s (identifier s' name) arguments := by
  unfold isComputedCall at h
  split at h
  · exact ⟨_, _, _, _, rfl⟩
  · cases h

/-- A negated expression that holds a call is a negated call. -/
theorem isNegatedCall_of_isNegated {e : Expr} (h : e.isNegated = true) (hcall : e.holdsCall = true) :
    e.IsNegatedCall := by
  unfold isNegated at h
  split at h
  · rename_i s argument
    rw [Bool.or_eq_true] at h
    rcases h with hpath | hcomputed
    · have hnone := holdsCall_of_isPropertyPath argument hpath
      rw [holdsCall, hnone] at hcall
      cases hcall
    · obtain ⟨s', s'', name, arguments, rfl⟩ := exists_of_isComputedCall hcomputed
      exact .intro
  · cases h

/-- **Of the expressions with a call, a two-way binding admits the negated calls** of named functions,
and no other. -/
theorem isAdmissible_twoWay_iff {e : Expr} (hcall : e.holdsCall = true) :
    e.kind.isAdmissible true = true ↔ e.IsNegatedCall := by
  constructor
  · intro h
    unfold kind at h
    split_ifs at h with hpath hcomputed hnegated
    · rw [holdsCall_of_isPropertyPath e hpath] at hcall
      cases hcall
    · cases h
    · exact isNegatedCall_of_isNegated hnegated hcall
    · cases h
  · rintro ⟨⟩
    rfl

end Expr

/-! ## What is learned -/

/-- A two-way binding with a call shows component state only if it is a negated call. -/
theorem Occurrence.Shows.isNegatedCall {o : Occurrence} {x : Text} (h : o.Shows x) :
    ∀ e, o.read = .ok e → e.holdsCall = true → e.IsNegatedCall := by
  intro e hread hcall
  cases h with
  | path hread' hadmissible =>
    cases hread.symm.trans hread'
    exact (Expr.isAdmissible_twoWay_iff hcall).mp hadmissible
  | accessor hread' => cases hread.symm.trans hread'

namespace ComponentState

open Markup (Document)

/-- A document shows an identifier by a two-way binding that holds no call or is a negated call. -/
def ShownWithoutResult (document : Document) (scope : Scope) (x : Text) : Prop :=
  ∃ p ∈ document.hosted, ∃ site ∈ p.sites, ∃ o ∈ Occurrence.found site.raw site.text,
    o.direction = .twoWay ∧ (∀ e, o.read = .ok e → e.holdsCall = true → e.IsNegatedCall) ∧
      o.Shows x ∧ x ≠ Expr.thisName ∧ ¬ scope.isGlobal x = true ∧
        x ∉ document.repeatNamesAt p.address

/-- Nothing that a document shows is shown by another call. -/
theorem shownIn_iff_withoutResult (document : Document) (scope : Scope) (x : Text) :
    ShownIn document scope x ↔ ShownWithoutResult document scope x := by
  constructor
  · rintro ⟨p, hp, site, hsite, o, ho, htwo, hshows, hrest⟩
    exact ⟨p, hp, site, hsite, o, ho, htwo, hshows.isNegatedCall, hshows, hrest⟩
  · rintro ⟨p, hp, site, hsite, o, ho, htwo, -, hshows, hrest⟩
    exact ⟨p, hp, site, hsite, o, ho, htwo, hshows, hrest⟩

end ComponentState

/-! ## What is reported -/

namespace Rewrite

open Markup (Document visitAll)

variable {repeats : List Text} {scope : Scope} {whole answer : Text} {position n : Nat}
  {o : Occurrence} {os : List Occurrence} {ds : List Diagnostic} {fs : List FunctionDefinition}

/-- The report on a two-way binding that would have to be computed. -/
def inadmissibleReport (o : Occurrence) : Diagnostic :=
  ⟨.twoWayNotAdmissible, inadmissibleMessage o, o.expression⟩

/-- The outcome of a two-way binding with a call: a negated call is kept as it is, and everything else
is kept with a report. -/
theorem outcome_twoWay_call {e : Expr} (htwo : o.direction = .twoWay) (hread : o.read = .ok e)
    (hcall : e.holdsCall = true) :
    (e.IsNegatedCall → Outcome repeats scope n o o.written [] []) ∧
      (¬ e.IsNegatedCall → Outcome repeats scope n o o.written [inadmissibleReport o] []) := by
  have hiff := Expr.isAdmissible_twoWay_iff hcall
  constructor
  · intro hnegated
    refine .native hread ?_
    rw [Occurrence.isTwoWay, htwo]
    exact hiff.mpr hnegated
  · intro hother
    exact .inadmissible hread htwo (Bool.eq_false_iff.mpr (mt hiff.mp hother))

/-- A two-way binding with a call that is not negated is reported, since it has no other outcome. -/
theorem Outcome.reports_call {e : Expr} {t : Text} (h : Outcome repeats scope n o t ds fs)
    (htwo : o.direction = .twoWay) (hread : o.read = .ok e) (hcall : e.holdsCall = true)
    (hother : ¬ e.IsNegatedCall) : inadmissibleReport o ∈ ds := by
  have hadmissible : ¬ e.kind.isAdmissible true = true := mt (Expr.isAdmissible_twoWay_iff hcall).mp hother
  cases h with
  | native read admissible =>
    cases hread.symm.trans read
    rw [Occurrence.isTwoWay, htwo] at admissible
    exact absurd admissible hadmissible
  | literal read | invalid read => cases hread.symm.trans read
  | inadmissible => exact List.mem_singleton_self _
  | computed _ oneWay => cases htwo.symm.trans oneWay

/-- What is reported of a binding is in the account of all bindings. -/
theorem Accounted.mem_diagnostics (h : Accounted repeats scope whole position n os answer ds fs)
    (ho : o ∈ os) {d : Diagnostic}
    (hd : ∀ n t ds fs, Outcome repeats scope n o t ds fs → d ∈ ds) : d ∈ ds := by
  induction h with
  | rest => cases ho
  | next _ _ _ outcome _ ih =>
    rcases List.mem_cons.mp ho with rfl | ho
    · exact List.mem_append_left _ (hd _ _ _ _ outcome)
    · exact List.mem_append_right _ (ih ho)

section Visits

variable {site : Site} {after : Scope} {reply : Option Text} {d : Diagnostic}

/-- A visit keeps the diagnostics before it. -/
theorem subset_diagnostics_visit (h : visit site scope = .ok (reply, after)) :
    scope.diagnostics ⊆ after.diagnostics := by
  cases reply with
  | none =>
    rw [visit_idle h]
    exact List.Subset.refl _
  | some answer =>
    obtain ⟨-, ds, fs, -, hgains⟩ := visit_account h
    rw [hgains.diagnostics]
    exact List.subset_append_left _ _

/-- A visit reports what there is to report of a selected binding. -/
theorem mem_diagnostics_visit (h : visit site scope = .ok (reply, after)) (ho : o ∈ selected site)
    (hd : ∀ n t ds fs, Outcome site.repeats scope n o t ds fs → d ∈ ds) : d ∈ after.diagnostics := by
  unfold selected at ho
  split at ho
  · rename_i hmay
    cases reply with
    | none => exact absurd hmay ((visit_eq_none_iff h).mp rfl)
    | some answer =>
      obtain ⟨-, ds, fs, haccounted, hgains⟩ := visit_account h
      rw [hgains.diagnostics]
      exact List.mem_append_right _ (haccounted.mem_diagnostics ho hd)
  · cases ho

/-- **A walk reports what there is to report of a selected binding**, whatever was found before. -/
theorem mem_diagnostics {document document' : Document} {last : Scope}
    (h : Rewrite.document document scope = .ok (document', last)) (hsite : site ∈ document.sites)
    (ho : o ∈ selected site)
    (hd : ∀ scope n t ds fs, Outcome site.repeats scope n o t ds fs → d ∈ ds) :
    d ∈ last.diagnostics := by
  obtain ⟨before, answer, after, behind, hvisit, hbehind⟩ :=
    Markup.exists_visit_of_mem hsite (Markup.Document.visitAll_of_attempt visit_keepsMarkers h)
  -- the visit reports it, and no later one drops the report
  exact Markup.visitAll_attempt_keeps (P := fun reached => d ∈ reached.diagnostics)
    (fun _ _ _ _ hlater hreached => subset_diagnostics_visit hlater hreached) hbehind
    (mem_diagnostics_visit hvisit ho (hd before))

end Visits

end Rewrite

/-! ## Documents -/

/-- **Two-way bindings and calls.**  Of the expressions with a call a two-way binding admits the negated
calls of named functions and no other.  A walk that learns therefore takes no component state from a
two-way binding that holds another call, and a walk that rewrites reports each such binding that it
comes to; a negated call it keeps. -/
theorem twoWay_calls (document : Markup.Document) (declared : List Text) (scope : Scope) :
    (∀ e : Expr, e.holdsCall = true → (e.kind.isAdmissible true = true ↔ e.IsNegatedCall)) ∧
    (∀ last, ComponentState.collect document declared scope = .ok last → ∀ x,
      x ∈ last.bindings ↔
        x ∈ scope.bindings ∨ x ∈ declared ∨ ComponentState.ShownWithoutResult document scope x) ∧
    ∀ document' last, Rewrite.document document scope = .ok (document', last) →
      ∀ site ∈ document.sites, ∀ o ∈ Rewrite.selected site, ∀ e, o.direction = .twoWay →
        o.read = .ok e → e.holdsCall = true →
        (e.IsNegatedCall → ∀ n, Rewrite.Outcome site.repeats scope n o o.written [] []) ∧
        (¬ e.IsNegatedCall → Rewrite.inadmissibleReport o ∈ last.diagnostics) := by
  refine ⟨fun e => Expr.isAdmissible_twoWay_iff, fun last h x => ?_,
    fun document' last h site hsite o ho e htwo hread hcall =>
      ⟨fun hnegated n => ?_, fun hother => ?_⟩⟩
  · rw [(ComponentState.learns_collect h).bindings, ComponentState.shownIn_iff_withoutResult]
  · exact (Rewrite.outcome_twoWay_call htwo hread hcall).1 hnegated
  · exact Rewrite.mem_diagnostics h hsite ho
      (fun _ _ _ _ _ houtcome => houtcome.reports_call htwo hread hcall hother)

/-- A text with a two-way binding of a sum with a call. -/
def callText : Text :=
  "\x7b\x7bf(a) + b\x7d\x7d".toList

/-- A text with a two-way binding of a negated call. -/
def negatedText : Text :=
  "\x7b\x7b!f(a)\x7d\x7d".toList

/-- A document with a text in a template. -/
def templatePage (t : Text) : Markup.Document :=
  ⟨[.element ⟨"template".toList, [], none, false, true, []⟩ [.text t]]⟩

/-- The binding that is the whole text. -/
def wholeText (t inner : Text) : Occurrence :=
  ⟨.twoWay, t, inner, none, 0, t.length⟩

/-- What the sum is read as. -/
def callSum : Expr :=
  .binary ⟨0, 8⟩ .add (.call ⟨0, 4⟩ (.identifier ⟨0, 1⟩ ['f']) [.identifier ⟨2, 3⟩ ['a']])
    (.identifier ⟨7, 8⟩ ['b'])

/-- The sum shows no component state and is reported. -/
theorem twoWay_calls_callText :
    (wholeText callText "f(a) + b".toList).read = .ok callSum ∧ callSum.holdsCall = true ∧
      (∃ known, ComponentState.collect (templatePage callText) [] { moduleId := [] } = .ok known ∧
        known.bindings = []) ∧
      ∃ document' last,
        Rewrite.document (templatePage callText) { moduleId := [] } = .ok (document', last) ∧
        Rewrite.inadmissibleReport (wholeText callText "f(a) + b".toList) ∈ last.diagnostics := by
  have hread : (wholeText callText "f(a) + b".toList).read = .ok callSum := by rfl
  have hsites : (templatePage callText).sites = [⟨callText, true, none, []⟩] := by rfl
  have hselected : Rewrite.selected ⟨callText, true, none, []⟩ =
      [wholeText callText "f(a) + b".toList] := by rfl
  have hother : ¬ callSum.IsNegatedCall := nofun
  have hlearned : (ComponentState.collect (templatePage callText) [] { moduleId := [] }).toOption.map
      (·.bindings) = some [] := by decide +kernel
  have hrewritten : ∃ r,
      (Rewrite.document (templatePage callText) { moduleId := [] }).toOption = some r :=
    Option.isSome_iff_exists.mp (by decide +kernel)
  obtain ⟨known, hknown, hbindings⟩ := Option.map_eq_some_iff.mp hlearned
  obtain ⟨⟨document', last⟩, hlast⟩ := hrewritten
  have hwalk := eq_ok_of_toOption hlast
  obtain ⟨-, -, hreports⟩ := twoWay_calls (templatePage callText) [] { moduleId := [] }
  refine ⟨hread, rfl, ⟨known, eq_ok_of_toOption hknown, hbindings⟩, document', last, hwalk, ?_⟩
  refine (hreports document' last hwalk ⟨callText, true, none, []⟩ ?_ _ ?_ _ rfl hread rfl).2 hother
  · rw [hsites]
    exact List.mem_singleton_self _
  · rw [hselected]
    exact List.mem_singleton_self _

/-- What the negated call is read as. -/
def negatedCallOfName : Expr :=
  .unary ⟨0, 5⟩ .not (.call ⟨1, 5⟩ (.identifier ⟨1, 2⟩ ['f']) [.identifier ⟨3, 4⟩ ['a']])

/-- The negated call is admitted: the function's name becomes component state, and nothing is
reported. -/
theorem twoWay_admits_negatedText :
    wholeText negatedText "!f(a)".toList ∈ Occurrence.found true negatedText ∧
      (wholeText negatedText "!f(a)".toList).read = .ok negatedCallOfName ∧
      negatedCallOfName.holdsCall = true ∧ negatedCallOfName.kind.isAdmissible true = true ∧
      (∃ known, ComponentState.collect (templatePage negatedText) [] { moduleId := [] } = .ok known ∧
        known.bindings = [['f'], ['a']]) ∧
      ∃ document' last,
        Rewrite.document (templatePage negatedText) { moduleId := [] } = .ok (document', last) ∧
        last.diagnostics = [] := by
  have hfind : Occurrence.found true negatedText = [wholeText negatedText "!f(a)".toList] := by rfl
  have hlearned : (ComponentState.collect (templatePage negatedText) []
      { moduleId := [] }).toOption.map (·.bindings) = some [['f'], ['a']] := by decide +kernel
  have hrewritten : (Rewrite.document (templatePage negatedText)
      { moduleId := [] }).toOption.map (·.2.diagnostics) = some [] := by decide +kernel
  obtain ⟨known, hknown, hbindings⟩ := Option.map_eq_some_iff.mp hlearned
  obtain ⟨⟨document', last⟩, hlast, hnone⟩ := Option.map_eq_some_iff.mp hrewritten
  refine ⟨?_, by rfl, by decide, by decide, ⟨known, eq_ok_of_toOption hknown, hbindings⟩, document',
    last, eq_ok_of_toOption hlast, hnone⟩
  rw [hfind]
  exact List.mem_singleton_self _

end DataBinding
