/-
# The functions that a rewriting generates

A binding that is replaced by a call is a *computation*: its text, its expression and the names of
the repeats around it.  Which computations a document holds does not depend on the scope, and a
rewriting generates one function for each of them, in document order, named by the function prefix
and the next number.  The key facts are

* `document_extends` : the scope behind a rewriting is the scope before it, with a function for each
  computation of the document;
* `document_eq_self` : a rewriting that generates no function changes nothing.

A rewriting may stop.  What is said of one is said of those that come to the end.
-/
import DataBinding.Proofs.Binding.Scanning
import DataBinding.Proofs.Template.Attempts
import DataBinding.Template.Rewrite

namespace DataBinding

open Markup

/-! ## Names of functions -/

namespace Scope

/-- Numbers are written differently. -/
theorem numeral_injective : Function.Injective numeral := by
  intro m n h
  have hm := Nat.ofDigitChars_toDigits (b := 10) (n := m) (by decide) (by decide)
  have hn := Nat.ofDigitChars_toDigits (b := 10) (n := n) (by decide) (by decide)
  unfold numeral at h
  rw [← hm, h, hn]

/-- The name of the function with a number. -/
def functionName (scope : Scope) (n : Nat) : Text :=
  scope.functionPrefix ++ numeral n

/-- Functions with different numbers have different names. -/
theorem functionName_injective (scope : Scope) : Function.Injective scope.functionName :=
  fun _ _ h => numeral_injective (List.append_cancel_left h)

/-- A function under a new name is put behind the others. -/
theorem putFunction_eq_append {f : FunctionDefinition} {fs : List FunctionDefinition}
    (h : f.name ∉ fs.map (·.name)) : putFunction f fs = fs ++ [f] := by
  induction fs with
  | nil => rfl
  | cons g fs ih =>
    rw [List.map_cons, List.mem_cons, not_or] at h
    have hne : (g.name == f.name) = false := by simpa using Ne.symm h.1
    rw [putFunction, hne, if_neg Bool.false_ne_true, ih h.2]
    rfl

/-! ## Settings -/

/-- Two scopes agree on all that decides how a binding is replaced, apart from its number. -/
structure SameSettings (s s' : Scope) : Prop where
  moduleId : s'.moduleId = s.moduleId
  globals : s'.globals = s.globals
  functionPrefix : s'.functionPrefix = s.functionPrefix
  separator : s'.separator = s.separator
  bindings : s'.bindings = s.bindings
  filePath : s'.filePath = s.filePath
  room : s'.room = s.room

theorem SameSettings.refl (s : Scope) : s.SameSettings s :=
  ⟨rfl, rfl, rfl, rfl, rfl, rfl, rfl⟩

theorem SameSettings.trans {s s' s'' : Scope} (h : s.SameSettings s') (h' : s'.SameSettings s'') :
    s.SameSettings s'' :=
  ⟨h'.moduleId.trans h.moduleId, h'.globals.trans h.globals,
    h'.functionPrefix.trans h.functionPrefix, h'.separator.trans h.separator,
    h'.bindings.trans h.bindings, h'.filePath.trans h.filePath, h'.room.trans h.room⟩

/-- Scopes with the same settings name their functions alike. -/
theorem SameSettings.functionName {s s' : Scope} (h : s.SameSettings s') (n : Nat) :
    s'.functionName n = s.functionName n := by
  rw [Scope.functionName, h.functionPrefix, Scope.functionName]

end Scope

/-! ## Computations -/

/-- A binding that is replaced by a call: its text without blanks around it, its expression, and the
names that repeat templates give at its place. -/
structure Computation where
  text : Text
  expression : Expr
  repeats : List Text

namespace Computation

/-- The text of a computation is accepted as its expression. -/
def Accepted (c : Computation) : Prop :=
  Expression.parse c.text = .ok c.expression

/-- The paths that are passed as arguments, each with the name of its parameter. -/
def parameters (c : Computation) (scope : Scope) : List (Text × Text) :=
  Synthesis.parameters scope c.repeats c.expression.references

/-- The function that is generated for a computation under a name. -/
def definition (c : Computation) (scope : Scope) (name : Text) : FunctionDefinition :=
  ⟨name, (c.parameters scope).map (·.2),
    Synthesis.renamedBody scope c.repeats c.expression.references c.text⟩

/-- The call that replaces a computation. -/
def call (c : Computation) (scope : Scope) (name : Text) : Text :=
  Synthesis.callText name ((c.parameters scope).map (·.1))

/-- The references that stay in the function's body as they are. -/
def freeReferences (c : Computation) (scope : Scope) : List Reference :=
  c.expression.references.filter (!Synthesis.isKept scope c.repeats ·)

/-- Scopes with the same settings keep the same references. -/
theorem isKept_congr {s s' : Scope} (h : s.SameSettings s') (repeats : List Text) :
    Synthesis.isKept s' repeats = Synthesis.isKept s repeats := by
  funext r
  simp only [Synthesis.isKept, Scope.isBound, h.bindings]

/-- Scopes with the same settings name parameters alike. -/
theorem parameters_congr {s s' : Scope} (h : s.SameSettings s') (c : Computation) :
    c.parameters s' = c.parameters s := by
  unfold parameters Synthesis.parameters
  rw [isKept_congr h, h.separator]

/-- Scopes with the same settings generate the same function. -/
theorem definition_congr {s s' : Scope} (h : s.SameSettings s') (c : Computation) (name : Text) :
    c.definition s' name = c.definition s name := by
  have hparameters : Synthesis.parameters s' c.repeats c.expression.references
      = Synthesis.parameters s c.repeats c.expression.references := parameters_congr h c
  unfold definition Synthesis.renamedBody
  rw [parameters_congr h, hparameters, isKept_congr h]

end Computation

/-! ## Scopes behind computations -/

namespace Scope

/-- The functions of a scope are named by the numbers that its counter has used up. -/
def Numbered (s : Scope) : Prop :=
  s.functions.map (·.name) = (List.range s.counter).map s.functionName

/-- A scope with a function for each of some further computations. -/
structure Extends (s : Scope) (cs : List Computation) (s' : Scope) : Prop where
  settings : s.SameSettings s'
  counter : s'.counter = s.counter + cs.length
  functions : s'.functions
    = s.functions ++ cs.mapIdx fun i c => c.definition s (s.functionName (s.counter + i))

theorem Extends.refl (s : Scope) : s.Extends [] s :=
  ⟨.refl s, rfl, by simp⟩

/-- Further computations behind other ones. -/
theorem Extends.trans {s s' s'' : Scope} {cs ds : List Computation} (h : s.Extends cs s')
    (h' : s'.Extends ds s'') : s.Extends (cs ++ ds) s'' := by
  refine ⟨h.settings.trans h'.settings, ?_, ?_⟩
  · rw [h'.counter, h.counter, List.length_append]
    omega
  · rw [h'.functions, h.functions, List.append_assoc, List.mapIdx_append]
    congr 2
    apply List.mapIdx_eq_mapIdx_iff.mpr
    intro i hi
    rw [Computation.definition_congr h.settings, h.settings.functionName, h.counter]
    congr 2
    omega

/-- The names of functions for further computations go on counting. -/
theorem Extends.numbered {s s' : Scope} {cs : List Computation} (h : s.Extends cs s')
    (hs : s.Numbered) : s'.Numbered := by
  unfold Numbered at hs ⊢
  rw [h.functions, h.counter, List.map_append, hs, List.range_add, List.map_append]
  congr 1
  · exact List.map_congr_left fun n _ => (h.settings.functionName n).symm
  · apply List.ext_getElem
    · simp
    · intro i hi hi'
      simp [Computation.definition, h.settings.functionName]

/-- The next name is new. -/
theorem Numbered.functionName_notMem {s : Scope} (h : s.Numbered) :
    s.functionName s.counter ∉ s.functions.map (·.name) := by
  rw [h, List.mem_map]
  rintro ⟨n, hn, heq⟩
  have := s.functionName_injective heq
  rw [List.mem_range] at hn
  omega

end Scope

/-! ## Synthesis -/

namespace Synthesis

/-- Warnings change neither the settings, nor the counter, nor the functions. -/
theorem reportUnresolved_extends (scope : Scope) (roots : List Text) (text : Text) :
    scope.Extends [] (reportUnresolved scope roots text) := by
  suffices h : ∀ s : Scope, scope.Extends [] s → scope.Extends []
      (roots.foldl (fun s root =>
        s.report .unresolvedIdentifier (unresolvedMessage scope root text) text) s) by
    exact h scope (.refl scope)
  induction roots with
  | nil => exact fun s hs => hs
  | cons root roots ih =>
    exact fun s hs => ih _ ⟨⟨hs.settings.moduleId, hs.settings.globals, hs.settings.functionPrefix,
      hs.settings.separator, hs.settings.bindings, hs.settings.filePath, hs.settings.room⟩, hs.counter,
      hs.functions⟩

/-- A synthesis gives the call under the next name and keeps the function under that name. -/
theorem synthesize_extends {scope : Scope} (h : scope.Numbered) (text : Text) (e : Expr)
    (repeats : List Text) :
    (synthesize text e repeats scope).1
        = Computation.call ⟨text.trim, e, repeats⟩ scope (scope.functionName scope.counter) ∧
      scope.Extends [⟨text.trim, e, repeats⟩] (synthesize text e repeats scope).2 := by
  have hreport := reportUnresolved_extends scope
    (unresolvedRoots scope repeats e.references) text.trim
  have hcounter : (reportUnresolved scope (unresolvedRoots scope repeats e.references)
      text.trim).counter = scope.counter := hreport.counter
  have hfunctions : (reportUnresolved scope (unresolvedRoots scope repeats e.references)
      text.trim).functions = scope.functions := by
    rw [hreport.functions]
    exact List.append_nil _
  have hname := hreport.settings.functionName scope.counter
  constructor
  · simp only [synthesize, Scope.nextFunctionName, Computation.call, Computation.parameters]
    rw [hcounter, hreport.settings.functionPrefix]
    rfl
  · refine ⟨?_, ?_, ?_⟩
    · exact hreport.settings.trans ⟨rfl, rfl, rfl, rfl, rfl, rfl, rfl⟩
    · exact congrArg (· + 1) hcounter
    · simp only [synthesize, Scope.nextFunctionName, Scope.addFunction]
      rw [hcounter, hfunctions, hreport.settings.functionPrefix, Scope.putFunction_eq_append]
      · rfl
      · exact h.functionName_notMem

end Synthesis

namespace Rewrite

/-! ## One binding -/

/-- The computation that a binding is, if it is one: a one-way binding of an expression that is not
evaluated natively. -/
def computation? (repeats : List Text) (o : Occurrence) : Option Computation :=
  match o.read with
  | .ok e =>
    if e.kind.isAdmissible o.isTwoWay || o.isTwoWay then none else some ⟨o.expression.trim, e, repeats⟩
  | .error _ => none

/-- The computation that a verdict on a binding asks for. -/
def Verdict.computation? (repeats : List Text) (o : Occurrence) : Verdict → Option Computation
  | .compute e => some ⟨o.expression.trim, e, repeats⟩
  | _ => none

section Judged

variable {room : Nat} {o : Occurrence} {verdict : Verdict}

/-- A binding is computed exactly if it is judged so. -/
theorem computation?_of_judge (h : judge room o = .ok verdict) (repeats : List Text) :
    computation? repeats o = verdict.computation? repeats o := by
  unfold judge at h
  unfold computation?
  cases hread : o.read with
  | error fault =>
    rw [hread] at h
    cases hliteral : o.isLiteral room with
    | error bracket =>
      rw [hliteral] at h
      cases h
    | ok b =>
      rw [hliteral] at h
      cases b <;> cases h <;> rfl
  | ok e =>
    rw [hread] at h
    dsimp only at h ⊢
    cases hadmissible : e.kind.isAdmissible o.isTwoWay with
    | true =>
      rw [hadmissible, if_pos rfl] at h
      cases h
      rfl
    | false =>
      rw [hadmissible, if_neg Bool.false_ne_true] at h
      cases htwo : o.isTwoWay <;> rw [htwo] at h <;> cases h <;> rfl

/-- A computation is a one-way binding whose text is accepted. -/
theorem computation?_eq_some {repeats : List Text} {c : Computation}
    (h : computation? repeats o = some c) : c.Accepted ∧ o.direction = .oneWay := by
  unfold computation? at h
  split at h
  · rename_i e hread
    split at h
    · cases h
    · rename_i hnot
      obtain rfl := Option.some.inj h
      refine ⟨hread, ?_⟩
      cases hdirection : o.direction with
      | oneWay => rfl
      | twoWay => simp [Occurrence.isTwoWay, hdirection] at hnot
  · cases h

/-- What is processed was judged, and the verdict was carried out. -/
theorem exists_verdict_of_process {repeats : List Text} {scope : Scope} {r : Text × Scope}
    (h : process repeats o scope = .ok r) :
    ∃ verdict, judge scope.room o = .ok verdict ∧ carryOut repeats o scope verdict = r := by
  unfold process at h
  cases hjudge : judge scope.room o with
  | error bracket =>
    rw [hjudge] at h
    cases h
  | ok verdict =>
    rw [hjudge] at h
    exact ⟨verdict, rfl, Except.ok.inj h⟩

end Judged

/-- What stands in for a binding that is processed under a number. -/
def replacement (repeats : List Text) (o : Occurrence) (scope : Scope) (n : Nat) : Text :=
  match computation? repeats o with
  | some c => o.render (c.call scope (scope.functionName n))
  | none => o.written

section Process

variable {scope after : Scope} {repeats : List Text} {o : Occurrence} {standIn : Text}

/-- A processed binding is replaced if it is a computation, and then has its function. -/
theorem process_extends (h : scope.Numbered)
    (hprocess : process repeats o scope = .ok (standIn, after)) :
    standIn = replacement repeats o scope scope.counter ∧
      scope.Extends (computation? repeats o).toList after := by
  obtain ⟨verdict, hjudge, hcarry⟩ := exists_verdict_of_process hprocess
  unfold replacement
  rw [computation?_of_judge hjudge]
  cases verdict with
  | keep =>
    cases hcarry
    exact ⟨rfl, .refl _⟩
  | invalid cause =>
    cases hcarry
    exact ⟨rfl, ⟨rfl, rfl, rfl, rfl, rfl, rfl, rfl⟩, rfl, (List.append_nil _).symm⟩
  | inadmissible =>
    cases hcarry
    exact ⟨rfl, ⟨rfl, rfl, rfl, rfl, rfl, rfl, rfl⟩, rfl, (List.append_nil _).symm⟩
  | compute e =>
    obtain ⟨hcall, hextends⟩ := Synthesis.synthesize_extends h o.expression e repeats
    cases hcarry
    exact ⟨congrArg o.render hcall,
      hextends.settings.trans ⟨rfl, rfl, rfl, rfl, rfl, rfl, rfl⟩, hextends.counter,
      hextends.functions⟩

/-- Processing a binding counts it if it is a computation. -/
theorem counter_process (h : process repeats o scope = .ok (standIn, after)) :
    after.counter = scope.counter + (computation? repeats o).toList.length := by
  obtain ⟨verdict, hjudge, hcarry⟩ := exists_verdict_of_process h
  rw [computation?_of_judge hjudge]
  cases verdict with
  | keep | invalid _ | inadmissible =>
    cases hcarry
    rfl
  | compute e =>
    have hreport := (Synthesis.reportUnresolved_extends scope
      (Synthesis.unresolvedRoots scope repeats e.references) o.expression.trim).counter
    cases hcarry
    exact congrArg (· + 1) hreport

/-- A binding that is no computation stays as it is written. -/
theorem process_eq_written (hnone : computation? repeats o = none)
    (h : process repeats o scope = .ok (standIn, after)) : standIn = o.written := by
  obtain ⟨verdict, hjudge, hcarry⟩ := exists_verdict_of_process h
  rw [computation?_of_judge hjudge] at hnone
  cases verdict with
  | keep | invalid _ | inadmissible =>
    cases hcarry
    rfl
  | compute e => cases hnone

/-- What stands in for a binding has its opening bracket. -/
theorem opener_mem_process (hopener : o.direction.opener ∈ o.written)
    (h : process repeats o scope = .ok (standIn, after)) : o.direction.opener ∈ standIn := by
  obtain ⟨verdict, -, hcarry⟩ := exists_verdict_of_process h
  cases verdict with
  | keep | invalid _ | inadmissible =>
    cases hcarry
    exact hopener
  | compute e =>
    cases hcarry
    exact List.mem_append_left _ (List.mem_append_left _
      (List.mem_append_left _ List.mem_cons_self))

end Process

/-! ## The bindings of a place -/

/-- Some bindings are in order and do not overlap, and none starts before a place. -/
def Disjoint (position : Nat) : List Occurrence → Prop
  | [] => True
  | o :: os => position ≤ o.start ∧ Disjoint o.stop os

/-- The selected bindings do not overlap. -/
theorem disjoint_selectFrom (position : Nat) (os : List Occurrence) :
    Disjoint position (selectFrom position os) := by
  induction os generalizing position with
  | nil => trivial
  | cons o os ih =>
    rw [selectFrom]
    split
    · exact ih position
    · rename_i h
      exact ⟨Nat.le_of_not_lt h, ih o.stop⟩

/-- Each selected binding is one of those to select from. -/
theorem mem_of_mem_selectFrom {position : Nat} {os : List Occurrence} {o : Occurrence}
    (h : o ∈ selectFrom position os) : o ∈ os := by
  induction os generalizing position with
  | nil => simp [selectFrom] at h
  | cons first os ih =>
    rw [selectFrom] at h
    split at h
    · exact List.mem_cons_of_mem _ (ih h)
    · rcases List.mem_cons.mp h with rfl | h
      · exact List.mem_cons_self
      · exact List.mem_cons_of_mem _ (ih h)

/-- The bindings that are processed at a place. -/
def selected (site : Site) : List Occurrence :=
  if Occurrence.mayHold site.text then selectFrom 0 (Occurrence.found site.raw site.text) else []

/-- The computations at a place, in order. -/
def computations (site : Site) : List Computation :=
  (selected site).filterMap (computation? site.repeats)

/-- The texts of computations are accepted. -/
theorem accepted_of_mem_computations {site : Site} {c : Computation} (h : c ∈ computations site) :
    c.Accepted := by
  obtain ⟨o, -, ho⟩ := List.mem_filterMap.mp h
  exact (computation?_eq_some ho).1

section Places

variable {scope last : Scope} {repeats : List Text} {position : Nat} {t answer : Text}
  {o : Occurrence} {os : List Occurrence}

/-- Bindings are processed one after the other, each behind the text in front of it. -/
theorem exists_of_rewriteFrom_cons
    (h : rewriteFrom repeats position t (o :: os) scope = .ok (answer, last)) :
    ∃ standIn after rest, process repeats o scope = .ok (standIn, after) ∧
      rewriteFrom repeats o.stop (t.drop (o.stop - position)) os after = .ok (rest, last) ∧
      answer = t.take (o.start - position) ++ standIn ++ rest := by
  rw [rewriteFrom] at h
  cases hprocess : process repeats o scope with
  | error stop =>
    rw [hprocess] at h
    cases h
  | ok first =>
    obtain ⟨standIn, after⟩ := first
    rw [hprocess] at h
    cases hrest : rewriteFrom repeats o.stop (t.drop (o.stop - position)) os after with
    | error stop =>
      simp only [bind, Except.bind, hrest] at h
      cases h
    | ok behind =>
      simp only [bind, Except.bind, hrest] at h
      cases h
      exact ⟨standIn, after, behind.1, rfl, hrest, rfl⟩

/-- Processing bindings generates the functions of the computations among them. -/
theorem rewriteFrom_extends (hscope : scope.Numbered)
    (h : rewriteFrom repeats position t os scope = .ok (answer, last)) :
    scope.Extends (os.filterMap (computation? repeats)) last := by
  induction os generalizing position t scope answer with
  | nil =>
    cases h
    exact .refl _
  | cons o os ih =>
    obtain ⟨standIn, after, rest, hprocess, hrest, -⟩ := exists_of_rewriteFrom_cons h
    have hfirst := (process_extends hscope hprocess).2
    have hall := hfirst.trans (ih (hfirst.numbered hscope) hrest)
    rw [List.filterMap_cons]
    cases hc : computation? repeats o with
    | none =>
      rw [hc] at hall
      exact hall
    | some c =>
      rw [hc] at hall
      exact hall

/-- Processing bindings counts the computations among them. -/
theorem counter_rewriteFrom (h : rewriteFrom repeats position t os scope = .ok (answer, last)) :
    last.counter = scope.counter + (os.filterMap (computation? repeats)).length := by
  induction os generalizing position t scope answer with
  | nil =>
    cases h
    rfl
  | cons o os ih =>
    obtain ⟨standIn, after, rest, hprocess, hrest, -⟩ := exists_of_rewriteFrom_cons h
    rw [ih hrest, counter_process hprocess, List.filterMap_cons]
    cases computation? repeats o with
    | none => rfl
    | some c =>
      rw [Option.toList_some, List.length_singleton, List.length_cons]
      omega

/-- Without a computation among them, processing bindings leaves the text as it is. -/
theorem rewriteFrom_eq_self {whole : Text} (hnone : os.filterMap (computation? repeats) = [])
    (hlies : ∀ o ∈ os, o.LiesIn whole) (hdisjoint : Disjoint position os)
    (h : rewriteFrom repeats position (whole.drop position) os scope = .ok (answer, last)) :
    answer = whole.drop position := by
  induction os generalizing position scope answer with
  | nil =>
    cases h
    rfl
  | cons o os ih =>
    rw [List.filterMap_cons] at hnone
    have ho : computation? repeats o = none := by
      cases hc : computation? repeats o with
      | none => rfl
      | some c => simp [hc] at hnone
    rw [ho] at hnone
    have hlie := hlies o List.mem_cons_self
    have hstop : position + (o.stop - position) = o.stop := by
      obtain ⟨_, _, _, _, hstop⟩ := hlie
      have := hdisjoint.1
      omega
    obtain ⟨standIn, after, rest, hprocess, hrest, rfl⟩ := exists_of_rewriteFrom_cons h
    rw [List.drop_drop, hstop] at hrest
    rw [process_eq_written ho hprocess,
      ih hnone (fun o' ho' => hlies o' (List.mem_cons_of_mem _ ho')) hdisjoint.2 hrest]
    exact (hlie.split hdisjoint.1).symm

end Places

/-! ## Visits -/

section Visits

variable {site : Site} {scope after : Scope} {answer : Option Text}

/-- A visit without an answer changes nothing; one with an answer has found the bindings of the place
and processed the selected ones. -/
theorem visit_cases (h : visit site scope = .ok (answer, after)) :
    (¬ Occurrence.mayHold site.text = true ∧ answer = none ∧ after = scope) ∨
      (Occurrence.mayHold site.text = true ∧
        Occurrence.find site.raw site.text = .ok (Occurrence.found site.raw site.text) ∧
        ∃ t, answer = some t ∧
          rewriteFrom site.repeats 0 site.text (selected site) scope = .ok (t, after)) := by
  unfold visit at h
  by_cases hmay : Occurrence.mayHold site.text = true
  · rw [if_pos hmay] at h
    refine .inr ⟨hmay, ?_⟩
    rw [selected, if_pos hmay]
    cases hfind : Occurrence.find site.raw site.text with
    | error digits =>
      rw [hfind] at h
      cases h
    | ok os =>
      obtain rfl := (Occurrence.find_eq_ok_iff.mp hfind).2
      rw [hfind] at h
      dsimp only at h
      cases hrewrite : rewriteFrom site.repeats 0 site.text
          (selectFrom 0 (Occurrence.found site.raw site.text)) scope with
      | error stop =>
        rw [hrewrite] at h
        cases h
      | ok r =>
        rw [hrewrite] at h
        cases h
        exact ⟨rfl, r.1, rfl, rfl⟩
  · rw [if_neg hmay] at h
    cases h
    exact .inl ⟨hmay, rfl, rfl⟩

theorem selected_eq_nil (h : ¬ Occurrence.mayHold site.text = true) : selected site = [] :=
  if_neg h

/-- The selected bindings lie in the text. -/
theorem liesIn_of_mem_selected {o : Occurrence} (h : o ∈ selected site) : o.LiesIn site.text := by
  unfold selected at h
  split at h
  · exact Occurrence.liesIn_of_mem_found (mem_of_mem_selectFrom h)
  · cases h

/-- A visit generates the functions of the computations at the place. -/
theorem visit_extends (hscope : scope.Numbered) (h : visit site scope = .ok (answer, after)) :
    scope.Extends (computations site) after := by
  obtain ⟨hmay, -, rfl⟩ | ⟨-, -, t, -, hrewrite⟩ := visit_cases h
  · rw [computations, selected_eq_nil hmay]
    exact .refl _
  · exact rewriteFrom_extends hscope hrewrite

/-- A visit counts the computations at the place. -/
theorem counter_visit (h : visit site scope = .ok (answer, after)) :
    after.counter = scope.counter + (computations site).length := by
  obtain ⟨hmay, -, rfl⟩ | ⟨-, -, t, -, hrewrite⟩ := visit_cases h
  · rw [computations, selected_eq_nil hmay]
    rfl
  · exact counter_rewriteFrom hrewrite

/-- The selected bindings do not overlap. -/
theorem disjoint_selected (site : Site) : Disjoint 0 (selected site) := by
  unfold selected
  split
  · exact disjoint_selectFrom 0 _
  · trivial

/-- A visit to a place without computations gives no other text. -/
theorem visit_eq_text (hnone : computations site = [])
    (h : visit site scope = .ok (answer, after)) : ∀ t ∈ answer, t = site.text := by
  rintro t ht
  obtain ⟨-, rfl, -⟩ | ⟨-, -, t', rfl, hrewrite⟩ := visit_cases h
  · cases ht
  · obtain rfl := Option.some.inj ht
    exact rewriteFrom_eq_self hnone (fun o ho => liesIn_of_mem_selected ho) (disjoint_selected site)
      hrewrite

/-- Another answer of a visit has a bracket, which the marker of a repeat template has not. -/
theorem visit_keepsMarkers : Attempt.KeepsMarkers visit := by
  intro site scope answer after h
  obtain ⟨-, hnone, -⟩ | ⟨hmay, -, t, hanswer, hrewrite⟩ := visit_cases h
  · cases hnone
  · obtain rfl := Option.some.inj hanswer
    have hos : ∀ o ∈ selected site, o.direction.opener ∈ o.written := by
      rw [selected, if_pos hmay]
      exact fun o ho => Occurrence.opener_mem_of_mem_found (mem_of_mem_selectFrom ho)
    cases hselected : selected site with
    | nil =>
      rw [hselected] at hrewrite
      cases hrewrite
      exact .inl rfl
    | cons o os =>
      right
      have ho := hos o (by rw [hselected]; exact List.mem_cons_self)
      rw [hselected] at hrewrite
      obtain ⟨standIn, between, rest, hprocess, -, rfl⟩ := exists_of_rewriteFrom_cons hrewrite
      have hmem : o.direction.opener
          ∈ site.text.take (o.start - 0) ++ standIn ++ rest :=
        List.mem_append_left _ (List.mem_append_right _ (opener_mem_process ho hprocess))
      intro heq
      rw [heq] at hmem
      cases hd : o.direction <;> rw [hd] at hmem <;> revert hmem <;> decide

/-- Where nothing is counted behind a visit, the visitor was idle. -/
theorem visit_isIdleUnder :
    IsIdleUnder (Attempt.visitor visit) fun reached =>
      ∃ scope : Scope, reached = .ok scope ∧ scope.counter = 0 := by
  rintro site reached ⟨last, hlast, hcounter⟩
  obtain ⟨scope, answer, rfl, hvisit, hanswer⟩ := Attempt.exists_of_visitor hlast
  rw [counter_visit hvisit] at hcounter
  have hlength : (computations site).length = 0 := by omega
  refine ⟨⟨scope, rfl, by omega⟩, ?_⟩
  rw [hanswer]
  exact visit_eq_text (List.length_eq_zero_iff.mp hlength) hvisit

end Visits

/-! ## Documents -/

/-- The computations of a document, in document order. -/
def computationsOf (document : Markup.Document) : List Computation :=
  document.sites.flatMap computations

theorem accepted_of_mem_computationsOf {document : Markup.Document} {c : Computation}
    (h : c ∈ computationsOf document) : c.Accepted := by
  obtain ⟨site, -, hc⟩ := List.mem_flatMap.mp h
  exact accepted_of_mem_computations hc

section Documents

variable {document document' : Markup.Document} {scope last : Scope}

/-- Visits to places generate the functions of the computations there. -/
theorem visitAll_extends {sites : List Site} (hscope : scope.Numbered)
    (h : visitAll (Attempt.visitor visit) sites (.ok scope) = .ok last) :
    scope.Extends (sites.flatMap computations) last := by
  induction sites generalizing scope with
  | nil =>
    cases h
    exact .refl _
  | cons site sites ih =>
    obtain ⟨answer, after, hvisit, hrest⟩ := exists_of_visitAll_cons h
    have hfirst := visit_extends hscope hvisit
    rw [List.flatMap_cons]
    exact hfirst.trans (ih (hfirst.numbered hscope) hrest)

/-- **A rewriting generates one function for each computation.** -/
theorem document_extends (hscope : scope.Numbered)
    (h : Rewrite.document document scope = .ok (document', last)) :
    scope.Extends (computationsOf document) last :=
  visitAll_extends hscope (Markup.Document.visitAll_of_attempt visit_keepsMarkers h)

/-- **A rewriting that generates no function changes nothing.** -/
theorem document_eq_self (hscope : scope.Numbered)
    (h : Rewrite.document document scope = .ok (document', last)) (hnone : last.functions = []) :
    document' = document := by
  have hnumbered := (document_extends hscope h).numbered hscope
  unfold Scope.Numbered at hnumbered
  rw [hnone, List.map_nil, eq_comm, List.map_eq_nil_iff, List.range_eq_nil] at hnumbered
  have hwalk := Markup.Document.attempt_eq_ok_iff.mp h
  have hsame := document.walk_eq_self visit_isIdleUnder (.ok scope)
    ⟨last, congrArg Prod.snd hwalk, hnumbered⟩
  rw [← hsame, hwalk]

/-! ## The rewritten document -/

/-- A text from `position` on with its bindings replaced, the first computation having the number
`n`. -/
def replaced (repeats : List Text) (scope : Scope) (n position : Nat) (t : Text) :
    List Occurrence → Text
  | [] => t
  | o :: os =>
    t.take (o.start - position) ++ replacement repeats o scope n ++
      replaced repeats scope (n + (computation? repeats o).toList.length) o.stop
        (t.drop (o.stop - position)) os

/-- The visitor that replaces computations by their calls and only counts them. -/
def countingVisit (scope : Scope) : Visitor Nat := fun site n =>
  (if Occurrence.mayHold site.text then
      some (replaced site.repeats scope n 0 site.text (selected site)) else none,
    n + (computations site).length)

/-- Scopes with the same settings replace a binding alike. -/
theorem replacement_congr {s s' : Scope} (h : s.SameSettings s') (repeats : List Text)
    (o : Occurrence) (n : Nat) : replacement repeats o s' n = replacement repeats o s n := by
  unfold replacement
  cases computation? repeats o with
  | none => rfl
  | some c =>
    dsimp only
    rw [h.functionName, Computation.call, Computation.call, Computation.parameters_congr h]

/-- Processing bindings replaces the computations among them by their calls. -/
theorem rewriteFrom_text {start : Scope} (hstart : start.SameSettings scope) (hscope : scope.Numbered)
    {repeats : List Text} {position : Nat} {t answer : Text} {os : List Occurrence}
    (h : rewriteFrom repeats position t os scope = .ok (answer, last)) :
    answer = replaced repeats start scope.counter position t os := by
  induction os generalizing position t scope answer with
  | nil =>
    cases h
    rfl
  | cons o os ih =>
    obtain ⟨standIn, after, rest, hprocess, hrest, rfl⟩ := exists_of_rewriteFrom_cons h
    obtain ⟨htext, hextends⟩ := process_extends hscope hprocess
    have hbehind := ih (hstart.trans hextends.settings) (hextends.numbered hscope) hrest
    rw [counter_process hprocess] at hbehind
    rw [replaced, htext, hbehind, replacement_congr hstart]

/-- **The rewritten document.**  Every computation is replaced by the call of the function that has
its number in document order, and nothing else is replaced. -/
theorem document_eq_countingWalk (hscope : scope.Numbered)
    (h : Rewrite.document document scope = .ok (document', last)) :
    document' = (document.walk (countingVisit scope) scope.counter).1 := by
  have hsim : ∀ site s answer after n, visit site s = .ok (answer, after) →
      (scope.SameSettings s ∧ s.Numbered ∧ s.counter = n) →
      answer = (countingVisit scope site n).1 ∧
        scope.SameSettings after ∧ after.Numbered ∧ after.counter = (countingVisit scope site n).2 := by
    rintro site s answer after n hvisit ⟨hsettings, hnumbered, rfl⟩
    have hextends := visit_extends hnumbered hvisit
    refine ⟨?_, hsettings.trans hextends.settings, hextends.numbered hnumbered,
      counter_visit hvisit⟩
    obtain ⟨hmay, rfl, -⟩ | ⟨hmay, -, t, rfl, hrewrite⟩ := visit_cases hvisit
    · exact (if_neg hmay).symm
    · refine Eq.trans ?_ (if_pos hmay).symm
      exact congrArg some (rewriteFrom_text hsettings hnumbered hrewrite)
  exact (Markup.Document.attempt_simulates hsim h ⟨.refl scope, hscope, rfl⟩).1

end Documents

end Rewrite
end DataBinding
