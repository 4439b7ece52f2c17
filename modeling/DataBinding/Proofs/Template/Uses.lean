/-
# Functions and calls in step

A scope may be used again and again, over any documents: walks learn component state, walks rewrite
bindings, and single texts are synthesized.  If nothing was generated in the scope before, its
functions and the calls that are written stay in step.

* `Rewrite.Writes`       : the calls that a walk writes, in the order of its visits.
* `Scope.Told`           : the calls of a sequence of uses.
* `Scope.InStep`         : functions that are numbered from zero on, and one call for each of them.
* `Scope.uses_inStep`    : what holds behind every sequence of uses.
-/
import DataBinding.Proofs.Synthesis.Soundness
import DataBinding.Proofs.Template.Learning

namespace DataBinding

open Markup

/-! ## Calls -/

namespace Synthesis

/-- Words with dots between them hold no marks but these and those of character codes. -/
theorem Dotted.notMem {path : Text} (h : Dotted path) {x : Char} (hdot : x ≠ '.')
    (hpart : Lexeme.isWordPart x = false) (hhex : Lexeme.isHexDigit x = false)
    (hother : x ∉ ['u', '\x7b', '\x7d', '\\']) : x ∉ path := by
  induction h with
  | name word => exact word.wordTail.notMem hpart hhex hother
  | member _ word ih =>
    rw [List.mem_append, List.mem_cons, not_or, not_or]
    exact ⟨ih, hdot, word.wordTail.notMem hpart hhex hother⟩

theorem Dotted.ne_nil {path : Text} (h : Dotted path) : path ≠ [] := by
  cases h with
  | name word => exact word.ne_nil
  | member => simp

end Synthesis

namespace FunctionDefinition

/-- A text is a call of a function, with as many arguments as the function has parameters.  The
arguments can be told apart, since none of them is empty or holds a comma or a bracket. -/
def IsCalledBy (f : FunctionDefinition) (call : Text) : Prop :=
  ∃ arguments : List Text, call = f.name ++ ['('] ++ Text.join [','] arguments ++ [')'] ∧
    arguments.length = f.parameters.length ∧
    ∀ argument ∈ arguments, argument ≠ [] ∧ ',' ∉ argument ∧ '(' ∉ argument ∧ ')' ∉ argument

end FunctionDefinition

namespace Computation

/-- **A computation is replaced by a call of its function.** -/
theorem Accepted.isCalledBy {c : Computation} (h : c.Accepted) (scope : Scope) (name : Text) :
    (c.definition scope name).IsCalledBy (c.call scope name) := by
  refine ⟨(c.parameters scope).map (·.1), rfl, by simp [definition], fun argument hargument => ?_⟩
  have hdotted : Synthesis.Dotted argument := by
    rw [parameters, Synthesis.parameters, ParameterNames.keys_assign, List.mem_eraseDups] at hargument
    obtain ⟨r, hr, rfl⟩ := List.mem_map.mp hargument
    exact Synthesis.dotted_of_parse h (List.mem_filter.mp hr).1
  exact ⟨hdotted.ne_nil, hdotted.notMem (by decide) (by decide) (by decide) (by decide),
    hdotted.notMem (by decide) (by decide) (by decide) (by decide),
    hdotted.notMem (by decide) (by decide) (by decide) (by decide)⟩

end Computation

/-! ## Rewritten places -/

namespace Rewrite

/-- A binding that is rewritten: where it stands, and the call that is written in its place. -/
structure Rewriting where
  start : Nat
  stop : Nat
  call : Text

/-- The text from a place on with calls, between the brackets of one-way bindings, in place of what
is rewritten. -/
def Rewriting.apply (position : Nat) (t : Text) : List Rewriting → Text
  | [] => t
  | r :: rs =>
    t.take (r.start - position) ++
      (Direction.oneWay.opening ++ r.call ++ Direction.oneWay.closing) ++
        apply r.stop (t.drop (r.stop - position)) rs

/-- The bindings that are rewritten among some, the next function having the number `n`. -/
def rewritings (repeats : List Text) (scope : Scope) : Nat → List Occurrence → List Rewriting
  | _, [] => []
  | n, o :: os =>
    match computation? repeats o with
    | some c =>
      ⟨o.start, o.stop, c.call scope (scope.functionName n)⟩ :: rewritings repeats scope (n + 1) os
    | none => rewritings repeats scope n os

/-- The selected bindings of a place that are computations. -/
def computed (site : Site) : List Occurrence :=
  (selected site).filter fun o => (computation? site.repeats o).isSome

/-- What is rewritten at a place. -/
def rewritingsAt (site : Site) (scope : Scope) : List Rewriting :=
  rewritings site.repeats scope scope.counter (selected site)

/-- The calls of rewritten bindings are those of the computations, numbered from the next one on. -/
theorem map_call_rewritings (repeats : List Text) (scope : Scope) (n : Nat) (os : List Occurrence) :
    (rewritings repeats scope n os).map Rewriting.call
      = (os.filterMap (computation? repeats)).mapIdx fun i c =>
          c.call scope (scope.functionName (n + i)) := by
  induction os generalizing n with
  | nil => rfl
  | cons o os ih =>
    rw [rewritings, List.filterMap_cons]
    cases computation? repeats o with
    | none => exact ih n
    | some c =>
      dsimp only
      rw [List.map_cons, ih, List.mapIdx_cons, Nat.add_zero]
      congr 2
      funext i c
      rw [Nat.add_assoc, Nat.add_comm 1 i]

/-- What is rewritten are the computations. -/
theorem places_rewritings (repeats : List Text) (scope : Scope) (n : Nat) (os : List Occurrence) :
    (rewritings repeats scope n os).map (fun r => (r.start, r.stop))
      = (os.filter fun o => (computation? repeats o).isSome).map fun o => (o.start, o.stop) := by
  induction os generalizing n with
  | nil => rfl
  | cons o os ih =>
    rw [rewritings]
    cases hc : computation? repeats o with
    | none => rw [List.filter_cons_of_neg (by simp [hc]), ih]
    | some c => rw [List.filter_cons_of_pos (by simp [hc]), List.map_cons, List.map_cons, ih]

/-- What is rewritten among bindings in order lies behind the place they start from. -/
theorem start_le_of_mem_rewritings {repeats : List Text} {scope : Scope} {whole : Text}
    {os : List Occurrence} (hlies : ∀ o ∈ os, o.LiesIn whole) {position n : Nat}
    (hdisjoint : Disjoint position os) :
    ∀ r ∈ rewritings repeats scope n os, position ≤ r.start ∧ r.start ≤ r.stop := by
  induction os generalizing position n with
  | nil => exact fun r hr => by cases hr
  | cons o os ih =>
    rw [List.forall_mem_cons] at hlies
    obtain ⟨_, _, _, _, hstop⟩ := hlies.1
    have hfirst := hdisjoint.1
    have hrest : ∀ m, ∀ r ∈ rewritings repeats scope m os, position ≤ r.start ∧ r.start ≤ r.stop := by
      intro m r hr
      have := ih (n := m) hlies.2 hdisjoint.2 r hr
      omega
    rw [rewritings]
    cases computation? repeats o with
    | none => exact hrest n
    | some c =>
      rw [List.forall_mem_cons]
      refine ⟨⟨hfirst, ?_⟩, hrest (n + 1)⟩
      show o.start ≤ o.stop
      omega

/-- What stands in front of everything that is rewritten is kept. -/
theorem Rewriting.apply_skip {whole : Text} {position place : Nat} (hplace : position ≤ place)
    {rs : List Rewriting} (hrs : ∀ r ∈ rs, place ≤ r.start ∧ r.start ≤ r.stop) :
    apply position (whole.drop position) rs
      = (whole.drop position).take (place - position) ++ apply place (whole.drop place) rs := by
  have hdrop : ∀ n, place ≤ n → (whole.drop position).drop (n - position)
      = (whole.drop place).drop (n - place) := by
    intro n hn
    rw [List.drop_drop, List.drop_drop]
    congr 1
    omega
  cases rs with
  | nil =>
    have hself := hdrop place (Nat.le_refl place)
    rw [Nat.sub_self, List.drop_zero] at hself
    rw [apply, apply, ← hself, List.take_append_drop]
  | cons r rs =>
    obtain ⟨hstart, hstop⟩ := hrs r List.mem_cons_self
    have hsplit : r.start - position = (place - position) + (r.start - place) := by omega
    have hself := hdrop place (Nat.le_refl place)
    rw [Nat.sub_self, List.drop_zero] at hself
    rw [apply, apply, hdrop r.stop (by omega), hsplit, List.take_add, hself]
    simp only [List.append_assoc]

/-- From a place in front of a binding up to its end, the binding stands at the end. -/
theorem take_stop_of_liesIn {o : Occurrence} {whole : Text} (hlies : o.LiesIn whole)
    {position : Nat} (hfirst : position ≤ o.start) :
    (whole.drop position).take (o.stop - position)
      = (whole.drop position).take (o.start - position) ++ o.written := by
  have hsplit := hlies.split hfirst
  obtain ⟨before, after, rfl, hat, hstop⟩ := hlies
  have hlength : (((before ++ o.written ++ after).drop position).take (o.start - position)
      ++ o.written).length = o.stop - position := by
    simp only [List.length_append, List.length_take, List.length_drop]
    omega
  exact (congrArg (List.take (o.stop - position)) hsplit).trans (List.take_left' hlength)

/-- **Replacing computations is rewriting these bindings** and keeping all else. -/
theorem replaced_eq_apply {repeats : List Text} {scope : Scope} (whole : Text)
    {os : List Occurrence} (hlies : ∀ o ∈ os, o.LiesIn whole)
    (hevent : ∀ o ∈ os, o.direction = .oneWay → o.event = none) {position : Nat} (n : Nat)
    (hdisjoint : Disjoint position os) :
    replaced repeats scope n position (whole.drop position) os
      = Rewriting.apply position (whole.drop position) (rewritings repeats scope n os) := by
  induction os generalizing position n with
  | nil => rfl
  | cons o os ih =>
    rw [List.forall_mem_cons] at hlies hevent
    obtain ⟨_, _, _, _, hstop⟩ := hlies.1
    have hfirst := hdisjoint.1
    have hrest : (whole.drop position).drop (o.stop - position) = whole.drop o.stop := by
      rw [List.drop_drop]
      congr 1
      omega
    rw [replaced, hrest, ih hlies.2 hevent.2 _ hdisjoint.2, rewritings, replacement]
    cases hc : computation? repeats o with
    | none =>
      dsimp only
      -- a binding that is kept is copied with the text in front of it
      rw [Rewriting.apply_skip (by omega : position ≤ o.stop)
        (start_le_of_mem_rewritings hlies.2 hdisjoint.2), take_stop_of_liesIn hlies.1 hfirst]
      rfl
    | some c =>
      obtain ⟨-, hone⟩ := computation?_eq_some hc
      have hrender : o.render (c.call scope (scope.functionName n))
          = Direction.oneWay.opening ++ c.call scope (scope.functionName n)
            ++ Direction.oneWay.closing := by
        simp only [Occurrence.render, hevent.1 hone, hone, List.append_nil]
      dsimp only
      rw [Rewriting.apply, hrest, hrender]
      rfl

/-- **The answer at a place** is its text with the rewritten bindings replaced. -/
theorem visit_eq_apply {scope after : Scope} {site : Site} {reply : Option Text} (h : scope.Numbered)
    (hvisit : visit site scope = .ok (reply, after)) :
    reply.getD site.text = Rewriting.apply 0 site.text (rewritingsAt site scope) := by
  obtain ⟨hmay, rfl, -⟩ | ⟨-, -, t, rfl, hrewrite⟩ := visit_cases hvisit
  · rw [rewritingsAt, selected_eq_nil hmay]
    rfl
  · rw [Option.getD_some, rewriteFrom_text (.refl scope) h hrewrite]
    refine replaced_eq_apply site.text (fun o ho => liesIn_of_mem_selected ho) (fun o ho => ?_)
      scope.counter (disjoint_selected site)
    unfold selected at ho
    split at ho
    · exact Occurrence.event_of_mem_found (mem_of_mem_selectFrom ho)
    · cases ho

/-! ## Rewritten documents -/

/-- What the visitor was asked and answered at a place, and what it rewrote there: calls stand in
place of the computations, and nothing else changed. -/
structure Answers (asked : Call) (rs : List Rewriting) : Prop where
  places : rs.map (fun r => (r.start, r.stop)) = (computed asked.1).map fun o => (o.start, o.stop)
  text : asked.2.getD asked.1.text = Rewriting.apply 0 asked.1.text rs

/-- **The calls that a walk writes into a document** on its way from one scope to another, in the order
of its visits: each string that is visited becomes the one in which its bindings are rewritten. -/
def Writes (before after : Markup.Document) (s s' : Scope) (calls : List Text) : Prop :=
  ∃ (visits : List Visit) (rewritten : List (List Rewriting)),
    Visited (Attempt.visitor visit) before.placed after.nodes (.ok s) (.ok s') visits ∧
    List.Forall₂ Answers (visits.flatMap Visit.calls) rewritten ∧
    calls = rewritten.flatten.map Rewriting.call

end Rewrite

/-! ## Scopes that gain functions with their calls -/

namespace Scope

/-- A scope with further functions, named by the next numbers, and a call of each of them. -/
structure Adds (s : Scope) (fs : List FunctionDefinition) (calls : List Text) (s' : Scope) :
    Prop where
  functionPrefix : s'.functionPrefix = s.functionPrefix
  counter : s'.counter = s.counter + fs.length
  functions : s'.functions = s.functions ++ fs
  names : fs.map (·.name) = (List.range' s.counter fs.length).map s.functionName
  calls : List.Forall₂ FunctionDefinition.IsCalledBy fs calls

section Adds

variable {s s' s'' : Scope} {fs gs : List FunctionDefinition} {calls more : List Text}

theorem Adds.refl (s : Scope) : s.Adds [] [] s :=
  ⟨rfl, rfl, (List.append_nil _).symm, rfl, .nil⟩

/-- Further functions behind other ones. -/
theorem Adds.trans (h : s.Adds fs calls s') (h' : s'.Adds gs more s'') :
    s.Adds (fs ++ gs) (calls ++ more) s'' where
  functionPrefix := h'.functionPrefix.trans h.functionPrefix
  counter := by rw [h'.counter, h.counter, List.length_append, Nat.add_assoc]
  functions := by rw [h'.functions, h.functions, List.append_assoc]
  names := by
    have hname : s'.functionName = s.functionName := by
      funext n
      rw [functionName, h.functionPrefix, functionName]
    rw [List.map_append, h.names, h'.names, hname, h.counter, List.length_append,
      ← List.range'_append_1, List.map_append]
  calls := List.rel_append h.calls h'.calls

/-- Functions with the next names keep a scope numbered. -/
theorem Adds.numbered (h : s.Adds fs calls s') (hs : s.Numbered) : s'.Numbered := by
  unfold Numbered at hs ⊢
  have hname : s'.functionName = s.functionName := by
    funext n
    rw [functionName, h.functionPrefix, functionName]
  rw [h.functions, List.map_append, hs, h.names, h.counter, hname, List.range_add,
    List.map_append, List.range'_eq_map_range]

/-- The functions of computations, with their calls. -/
theorem Extends.adds {cs : List Computation} (h : s.Extends cs s') (haccepted : ∀ c ∈ cs, c.Accepted) :
    s.Adds (cs.mapIdx fun i c => c.definition s (s.functionName (s.counter + i)))
      (cs.mapIdx fun i c => c.call s (s.functionName (s.counter + i))) s' where
  functionPrefix := h.settings.functionPrefix
  counter := by rw [h.counter, List.length_mapIdx]
  functions := h.functions
  names := by
    apply List.ext_getElem
    · simp
    · intro i hi hi'
      simp [Computation.definition]
  calls := by
    rw [List.forall₂_iff_get]
    refine ⟨by simp, fun i hi hi' => ?_⟩
    have hlt : i < cs.length := by simpa using hi
    have hc : cs[i] ∈ cs := List.getElem_mem hlt
    simpa using (haccepted _ hc).isCalledBy s (s.functionName (s.counter + i))

end Adds

end Scope

namespace Rewrite

/-- A visit adds the functions of the calls that it writes. -/
theorem visit_adds {scope after : Scope} {site : Site} {reply : Option Text} (h : scope.Numbered)
    (hvisit : visit site scope = .ok (reply, after)) :
    ∃ fs, scope.Adds fs ((rewritingsAt site scope).map Rewriting.call) after := by
  have hadds := (visit_extends h hvisit).adds fun c hc => accepted_of_mem_computations hc
  rw [computations, ← map_call_rewritings] at hadds
  exact ⟨_, hadds⟩

/-- Calls that come to the end started where nothing had stopped. -/
theorem exists_ok_of_made {reached : Except Stop Scope} {last : Scope} {made : List Call}
    (h : Made (Attempt.visitor visit) reached made (.ok last)) : ∃ s, reached = .ok s := by
  generalize hend : Except.ok last = behind at h
  induction h with
  | nil => exact ⟨last, hend.symm⟩
  | @cons s m s' site answer calls first _ ih =>
    obtain ⟨after, rfl⟩ := ih hend
    obtain ⟨before, _, rfl, -⟩ := Attempt.exists_of_visitor (congrArg Prod.snd first)
    exact ⟨before, rfl⟩

/-- Visits one after the other add the functions of the calls that they write. -/
theorem made_adds {s last : Scope} {made : List Call}
    (h : Made (Attempt.visitor visit) (.ok s) made (.ok last)) (hs : s.Numbered) :
    ∃ fs rewritten, List.Forall₂ Answers made rewritten ∧
      s.Adds fs (rewritten.flatten.map Rewriting.call) last := by
  induction made generalizing s with
  | nil =>
    cases h
    exact ⟨[], [], .nil, .refl _⟩
  | cons call made ih =>
    cases h with
    | @cons _ m _ site answer _ first rest =>
      obtain ⟨after, rfl⟩ := exists_ok_of_made rest
      obtain ⟨before, reply, hbefore, hvisit, hanswer⟩ :=
        Attempt.exists_of_visitor (congrArg Prod.snd first)
      obtain rfl := Except.ok.inj hbefore
      obtain rfl : reply = answer := hanswer.symm.trans (congrArg Prod.fst first)
      obtain ⟨fs, hfirst⟩ := visit_adds hs hvisit
      obtain ⟨gs, rewritten, hanswers, hrest⟩ := ih rest (hfirst.numbered hs)
      have hplaces := places_rewritings site.repeats s s.counter (selected site)
      refine ⟨fs ++ gs, rewritingsAt site s :: rewritten,
        .cons ⟨hplaces, visit_eq_apply hs hvisit⟩ hanswers, ?_⟩
      rw [List.flatten_cons, List.map_append]
      exact hfirst.trans hrest

/-- **A walk adds one function for each call that it writes.** -/
theorem document_adds {scope last : Scope} (h : scope.Numbered) {document document' : Markup.Document}
    (hwalk : Rewrite.document document scope = .ok (document', last)) :
    ∃ fs calls, Writes document document' scope last calls ∧ scope.Adds fs calls last := by
  obtain ⟨visits, hvisited⟩ := document.walk_visited (Attempt.visitor visit) (.ok scope)
  rw [Markup.Document.attempt_eq_ok_iff.mp hwalk] at hvisited
  obtain ⟨fs, rewritten, hanswers, hadds⟩ := made_adds hvisited.made h
  exact ⟨fs, _, ⟨visits, rewritten, hvisited, hanswers, rfl⟩, hadds⟩

end Rewrite

/-- Learning adds nothing. -/
theorem ComponentState.collect_adds {document : Markup.Document} {declared : List Text}
    {scope last : Scope} (h : collect document declared scope = .ok last) : scope.Adds [] [] last := by
  rw [(learns_collect h).frame]
  exact ⟨rfl, rfl, (List.append_nil _).symm, rfl, .nil⟩

/-- A synthesis adds one function, which is called by what stands for the binding. -/
theorem Synthesis.synthesize_adds {scope : Scope} (h : scope.Numbered) {text : Text} {e : Expr}
    (haccepted : Expression.parse text.trim = .ok e) (repeats : List Text) :
    ∃ f, scope.Adds [f] [(synthesize text e repeats scope).1] (synthesize text e repeats scope).2 := by
  obtain ⟨hcall, hextends⟩ := synthesize_extends h text e repeats
  have hadds := hextends.adds fun c hc => by
    obtain rfl := List.mem_singleton.mp hc
    exact haccepted
  rw [hcall]
  exact ⟨_, hadds⟩

/-! ## Uses of a scope -/

namespace Scope

/-- One use of a scope: a walk that learns, a walk that rewrites, or the synthesis of a text that is
accepted, at a place with the given names of repeats. -/
inductive Use where
  | learn (document : Markup.Document) (declared : List Text)
  | rewrite (document : Markup.Document)
  | synthesize (text : Text) (expression : Expr) (repeats : List Text)
      (accepted : Expression.parse text.trim = .ok expression)

/-- The scope behind a use, unless something stops. -/
def Use.behind : Use → Scope → Except Stop Scope
  | learn document declared, scope => ComponentState.collect document declared scope
  | rewrite document, scope => (Rewrite.document document scope).map (·.2)
  | synthesize text e repeats _, scope => .ok (Synthesis.synthesize text e repeats scope).2

/-- The scope behind several uses, unless something stops. -/
def behindAll (uses : List Use) (start : Scope) : Except Stop Scope :=
  uses.foldlM (fun scope use => use.behind scope) start

/-- **The calls of a sequence of uses**: those that its walks write, in the order of their visits,
and those that its syntheses give. -/
inductive Told : Scope → List Use → List Text → Prop
  | nil {s : Scope} : Told s [] []
  | learn {s m : Scope} {document : Markup.Document} {declared : List Text} {uses : List Use}
      {calls : List Text} (returns : ComponentState.collect document declared s = .ok m)
      (rest : Told m uses calls) : Told s (.learn document declared :: uses) calls
  | rewrite {s m : Scope} {document document' : Markup.Document} {uses : List Use}
      {calls more : List Text} (returns : Rewrite.document document s = .ok (document', m))
      (writes : Rewrite.Writes document document' s m calls) (rest : Told m uses more) :
      Told s (.rewrite document :: uses) (calls ++ more)
  | synthesize {s : Scope} {text : Text} {e : Expr} {repeats : List Text}
      {accepted : Expression.parse text.trim = .ok e} {uses : List Use} {calls : List Text}
      (rest : Told (Synthesis.synthesize text e repeats s).2 uses calls) :
      Told s (.synthesize text e repeats accepted :: uses)
        ((Synthesis.synthesize text e repeats s).1 :: calls)

/-- Several uses come to the end if the first part does, and then the others. -/
theorem exists_of_behindAll_append {uses more : List Use} {s last : Scope}
    (h : behindAll (uses ++ more) s = .ok last) :
    ∃ m, behindAll uses s = .ok m ∧ behindAll more m = .ok last := by
  rw [behindAll, List.foldlM_append] at h
  exact exists_of_bind_eq_ok h

/-- Uses one after the other add one function for each of their calls. -/
theorem behindAll_adds {s last : Scope} (h : s.Numbered) {uses : List Use}
    (huses : behindAll uses s = .ok last) :
    ∃ fs calls, Told s uses calls ∧ s.Adds fs calls last := by
  induction uses generalizing s with
  | nil =>
    obtain rfl := Except.ok.inj huses
    exact ⟨[], [], .nil, .refl s⟩
  | cons use uses ih =>
    rw [behindAll, List.foldlM_cons] at huses
    obtain ⟨m, hfirst, hrest⟩ := exists_of_bind_eq_ok huses
    cases use with
    | learn document declared =>
      have hadds := ComponentState.collect_adds hfirst
      obtain ⟨fs, calls, htold, hmore⟩ := ih (hadds.numbered h) hrest
      exact ⟨_, _, .learn hfirst htold, hadds.trans hmore⟩
    | rewrite document =>
      obtain ⟨⟨document', m⟩, hwalk, rfl⟩ := exists_of_map_eq_ok hfirst
      obtain ⟨fs, calls, hwrites, hadds⟩ := Rewrite.document_adds h hwalk
      obtain ⟨gs, more, htold, hmore⟩ := ih (hadds.numbered h) hrest
      exact ⟨_, _, .rewrite hwalk hwrites htold, hadds.trans hmore⟩
    | synthesize text e repeats accepted =>
      obtain rfl := Except.ok.inj hfirst
      obtain ⟨f, hadds⟩ := Synthesis.synthesize_adds h accepted repeats
      obtain ⟨fs, calls, htold, hmore⟩ := ih (hadds.numbered h) hrest
      exact ⟨_, _, .synthesize htold, hadds.trans hmore⟩

/-- The functions of a scope are named by the prefix and the numbers from zero on, each is found
under its own name, and the calls are calls of the functions, one for each. -/
structure InStep (start scope : Scope) (calls : List Text) : Prop where
  counter : scope.counter = scope.functions.length
  names : scope.functions.map (·.name)
    = (List.range scope.counter).map fun n => start.functionPrefix ++ numeral n
  keyed : ∀ f ∈ scope.functions, scope.functions.find? (·.name == f.name) = some f
  calls : List.Forall₂ FunctionDefinition.IsCalledBy scope.functions calls

/-- In a numbered scope each function is found under its own name. -/
theorem Numbered.find?_eq {scope : Scope} (h : scope.Numbered) {f : FunctionDefinition}
    (hf : f ∈ scope.functions) : scope.functions.find? (·.name == f.name) = some f := by
  have hnodup : (scope.functions.map (·.name)).Nodup := by
    rw [h]
    exact List.nodup_range.map scope.functionName_injective
  generalize scope.functions = fs at hf hnodup
  induction fs with
  | nil => cases hf
  | cons g fs ih =>
    rw [List.map_cons, List.nodup_cons] at hnodup
    rcases List.mem_cons.mp hf with rfl | hf
    · exact List.find?_cons_of_pos (beq_self_eq_true _)
    · rw [List.find?_cons_of_neg]
      · exact ih hf hnodup.2
      · intro hname
        exact hnodup.1 (eq_of_beq hname ▸ List.mem_map_of_mem hf)

/-- **Functions and calls stay in step.**  Behind every sequence of uses that come to the end, of a
scope in which nothing was generated, the counter is the number of functions, these are named by the
numbers from zero on, the k-th call of the uses is a call of the k-th function, and no later use touches
a function. -/
theorem uses_inStep {start last : Scope} (hcounter : start.counter = 0)
    (hfunctions : start.functions = []) {uses : List Use} (huses : behindAll uses start = .ok last) :
    (∃ calls, Told start uses calls ∧ InStep start last calls) ∧
      ∀ earlier, earlier <+: uses →
        ∃ m, behindAll earlier start = .ok m ∧ m.functions <+: last.functions := by
  have hstart : start.Numbered := by
    rw [Numbered, hfunctions, hcounter]
    rfl
  constructor
  · obtain ⟨fs, calls, htold, hadds⟩ := behindAll_adds hstart huses
    have hnumbered := hadds.numbered hstart
    have hall : last.functions = fs := by
      rw [hadds.functions, hfunctions, List.nil_append]
    refine ⟨calls, htold, ?_, ?_, fun f hf => hnumbered.find?_eq hf, ?_⟩
    · rw [hadds.counter, hcounter, hall, Nat.zero_add]
    · rw [hnumbered]
      refine List.map_congr_left fun n _ => ?_
      rw [functionName, hadds.functionPrefix]
    · rw [hall]
      exact hadds.calls
  · rintro earlier ⟨later, rfl⟩
    obtain ⟨m, hearlier, hlater⟩ := exists_of_behindAll_append huses
    obtain ⟨fs, calls, -, hadds⟩ := behindAll_adds hstart hearlier
    obtain ⟨gs, more, -, hmore⟩ := behindAll_adds (hadds.numbered hstart) hlater
    exact ⟨m, hearlier, gs, hmore.functions.symm⟩

/-- A template with two bindings that are computed. -/
def twoSums : Markup.Document :=
  ⟨[.element ⟨"template".toList, [], none, false, true, []⟩
    [.text "[[a + 1]] and [[a.b - c]]".toList]]⟩

/-- A scope in which nothing was generated. -/
def unused : Scope :=
  { moduleId := "x-a".toList }

/-- A walk that learns, and two that rewrite with a synthesis between them. -/
def fourUses : List Use :=
  [.learn twoSums [['a']], .rewrite twoSums,
    .synthesize Synthesis.collidingText Synthesis.collidingExpr [] Synthesis.parse_collidingText,
    .rewrite twoSums]

/-- Five functions are in step with five calls then. -/
theorem uses_inStep_fourUses :
    ∃ last, unused.counter = 0 ∧ unused.functions = [] ∧ behindAll fourUses unused = .ok last ∧
      last.functions.map (fun f => (f.name, f.parameters))
        = [("__c_0".toList, [['a']]), ("__c_1".toList, ["a__b".toList]),
          ("__c_2".toList, ["a__b_1".toList]), ("__c_3".toList, [['a']]),
          ("__c_4".toList, ["a__b".toList])] ∧
      (∃ calls, Told unused fourUses calls ∧ InStep unused last calls) ∧
      ∃ m, behindAll (fourUses.take 2) unused = .ok m ∧ m.functions <+: last.functions := by
  have hlast : (behindAll fourUses unused).toOption.map (fun scope =>
      scope.functions.map fun f => (f.name, f.parameters))
        = some [("__c_0".toList, [['a']]), ("__c_1".toList, ["a__b".toList]),
          ("__c_2".toList, ["a__b_1".toList]), ("__c_3".toList, [['a']]),
          ("__c_4".toList, ["a__b".toList])] := by decide +kernel
  obtain ⟨last, hbehind, hnames⟩ := Option.map_eq_some_iff.mp hlast
  have huses := eq_ok_of_toOption hbehind
  obtain ⟨hinStep, hkept⟩ := @uses_inStep unused last rfl rfl fourUses huses
  exact ⟨last, rfl, rfl, huses, hnames, hinStep, hkept _ (List.take_prefix 2 fourUses)⟩

end Scope

end DataBinding
