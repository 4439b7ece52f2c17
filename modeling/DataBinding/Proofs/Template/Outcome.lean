/-
# What becomes of the bindings of a place

The bindings of a place are taken from left to right, and each of them has one of five outcomes: it is
kept as an expression that is evaluated natively, kept as a legitimate literal, reported as no
expression, reported as a two-way binding that would have to be computed, or replaced by the call of
a new function.  The key facts are

* `existsUnique_outcome` : a binding that can be judged has exactly one outcome;
* `visit_accounted`      : the answer at a place is its text with the bindings replaced as their
  outcomes say, and the scope gains their diagnostics and functions in the same order.
-/
import Mathlib.Data.List.Nodup
import DataBinding.Proofs.Template.Computation

namespace DataBinding

/-! ## What a scope gains -/

namespace Scope

variable {s s' s'' : Scope} {ds ds' : List Diagnostic} {fs fs' : List FunctionDefinition}

/-- A scope with some further diagnostics and functions: nothing but these and the number of the next
function is new. -/
structure Gains (s : Scope) (ds : List Diagnostic) (fs : List FunctionDefinition) (s' : Scope) :
    Prop where
  settings : s.SameSettings s'
  counter : s'.counter = s.counter + fs.length
  diagnostics : s'.diagnostics = s.diagnostics ++ ds
  functions : s'.functions = fs.foldl (fun kept f => putFunction f kept) s.functions

theorem Gains.refl (s : Scope) : s.Gains [] [] s :=
  ⟨.refl s, rfl, (List.append_nil _).symm, rfl⟩

/-- Gains follow each other. -/
theorem Gains.trans (h : s.Gains ds fs s') (h' : s'.Gains ds' fs' s'') :
    s.Gains (ds ++ ds') (fs ++ fs') s'' := by
  refine ⟨h.settings.trans h'.settings, ?_, ?_, ?_⟩
  · rw [h'.counter, h.counter, List.length_append, Nat.add_assoc]
  · rw [h'.diagnostics, h.diagnostics, List.append_assoc]
  · rw [h'.functions, h.functions, List.foldl_append]

/-- A report is one diagnostic more. -/
theorem gains_report (s : Scope) (kind : DiagnosticKind) (message : String) (expression : Text) :
    s.Gains [⟨kind, message, expression⟩] [] (s.report kind message expression) :=
  ⟨⟨rfl, rfl, rfl, rfl, rfl, rfl, rfl⟩, rfl, rfl, rfl⟩

/-- Functions with new names of their own are put behind the others. -/
theorem foldl_putFunction_eq_append {kept : List FunctionDefinition}
    (hnew : ∀ f ∈ fs, f.name ∉ kept.map (·.name)) (hnodup : (fs.map (·.name)).Nodup) :
    fs.foldl (fun kept f => putFunction f kept) kept = kept ++ fs := by
  induction fs generalizing kept with
  | nil => exact (List.append_nil kept).symm
  | cons f fs ih =>
    rw [List.map_cons, List.nodup_cons] at hnodup
    have hrest : ∀ g ∈ fs, g.name ∉ (kept ++ [f]).map (·.name) := by
      intro g hg hmem
      rw [List.map_append, List.mem_append] at hmem
      rcases hmem with hmem | hmem
      · exact hnew g (List.mem_cons_of_mem _ hg) hmem
      · have hname : g.name = f.name := by simpa using hmem
        exact hnodup.1 (hname ▸ List.mem_map_of_mem hg)
    rw [List.foldl_cons, putFunction_eq_append (hnew f List.mem_cons_self), ih hrest hnodup.2,
      List.append_assoc]
    rfl

end Scope

/-! ## Computations -/

namespace Computation

/-- The warnings about the roots of a computation that nothing declares. -/
def diagnostics (c : Computation) (scope : Scope) : List Diagnostic :=
  (Synthesis.unresolvedRoots scope c.repeats c.expression.references).map fun root =>
    ⟨.unresolvedIdentifier, Synthesis.unresolvedMessage scope root c.text, c.text⟩

/-- Scopes with the same settings give the same warnings. -/
theorem diagnostics_congr {s s' : Scope} (h : s.SameSettings s') (c : Computation) :
    c.diagnostics s' = c.diagnostics s := by
  unfold diagnostics Synthesis.unresolvedRoots Synthesis.unresolvedMessage Scope.isGlobal
  rw [isKept_congr h, h.globals, h.moduleId]

/-- Scopes with the same settings give the same call. -/
theorem call_congr {s s' : Scope} (h : s.SameSettings s') (c : Computation) (name : Text) :
    c.call s' name = c.call s name := by
  rw [call, call, parameters_congr h]

end Computation

namespace Synthesis

/-- The warnings about roots are further diagnostics. -/
theorem gains_reportUnresolved (scope : Scope) (roots : List Text) (text : Text) :
    scope.Gains (roots.map fun root =>
      ⟨.unresolvedIdentifier, unresolvedMessage scope root text, text⟩) []
      (reportUnresolved scope roots text) := by
  -- the messages speak of the scope at the start, so that the fold is followed from any later one
  suffices h : ∀ s : Scope, s.Gains (roots.map fun root =>
      ⟨.unresolvedIdentifier, unresolvedMessage scope root text, text⟩) []
      (roots.foldl (fun s root =>
        s.report .unresolvedIdentifier (unresolvedMessage scope root text) text) s) by
    exact h scope
  induction roots with
  | nil => exact fun s => .refl s
  | cons root roots ih => exact fun s => (s.gains_report ..).trans (ih _)

/-- A synthesis gives the call under the next name, and the scope gains the function with its
warnings. -/
theorem gains_synthesize (text : Text) (e : Expr) (repeats : List Text) (scope : Scope) :
    (synthesize text e repeats scope).1
        = Computation.call ⟨text.trim, e, repeats⟩ scope (scope.functionName scope.counter) ∧
      scope.Gains (Computation.diagnostics ⟨text.trim, e, repeats⟩ scope)
        [Computation.definition ⟨text.trim, e, repeats⟩ scope (scope.functionName scope.counter)]
        (synthesize text e repeats scope).2 := by
  have hreport := gains_reportUnresolved scope (unresolvedRoots scope repeats e.references) text.trim
  have hname : (reportUnresolved scope (unresolvedRoots scope repeats e.references)
      text.trim).nextFunctionName.1 = scope.functionName scope.counter := by
    rw [Scope.nextFunctionName, Scope.functionName, hreport.settings.functionPrefix, hreport.counter]
    rfl
  constructor
  · exact congrArg (fun name => callText name _) hname
  · have hadd : (reportUnresolved scope (unresolvedRoots scope repeats e.references)
        text.trim).Gains [] [Computation.definition ⟨text.trim, e, repeats⟩ scope
          (scope.functionName scope.counter)] (synthesize text e repeats scope).2 := by
      refine ⟨⟨rfl, rfl, rfl, rfl, rfl, rfl, rfl⟩, rfl, (List.append_nil _).symm, ?_⟩
      rw [← hname]
      rfl
    have hall := hreport.trans hadd
    rwa [List.append_nil] at hall

end Synthesis

namespace Rewrite

/-! ## One binding -/

/-- **The outcomes of a binding** when the next function has the number `n`: what stands in for it,
its diagnostics, and its functions. -/
inductive Outcome (repeats : List Text) (scope : Scope) (n : Nat) (o : Occurrence) :
    Text → List Diagnostic → List FunctionDefinition → Prop
  | native {e : Expr} (read : o.read = .ok e)
      (admissible : e.kind.isAdmissible o.isTwoWay = true) :
      Outcome repeats scope n o o.written [] []
  | literal {fault : Expression.Fault} (read : o.read = .error fault)
      (legitimate : o.isLiteral scope.room = .ok true) : Outcome repeats scope n o o.written [] []
  | invalid {fault : Expression.Fault} (read : o.read = .error fault)
      (illegitimate : o.isLiteral scope.room = .ok false) :
      Outcome repeats scope n o o.written
        [⟨.invalidExpression, invalidMessage o fault.cause, o.expression⟩] []
  | inadmissible {e : Expr} (read : o.read = .ok e) (twoWay : o.direction = .twoWay)
      (inadmissible : e.kind.isAdmissible true = false) :
      Outcome repeats scope n o o.written
        [⟨.twoWayNotAdmissible, inadmissibleMessage o, o.expression⟩] []
  | computed {e : Expr} {c : Computation} (read : o.read = .ok e) (oneWay : o.direction = .oneWay)
      (other : e.kind = .other) (computation : c = ⟨o.expression.trim, e, repeats⟩) :
      Outcome repeats scope n o
        (Direction.oneWay.opening ++ c.call scope (scope.functionName n)
          ++ Direction.oneWay.closing)
        (c.diagnostics scope) [c.definition scope (scope.functionName n)]

section Outcomes

variable {repeats : List Text} {scope start after : Scope} {n : Nat} {o : Occurrence} {t : Text}
  {ds : List Diagnostic} {fs : List FunctionDefinition} {verdict : Verdict}

/-- The outcome of a binding as it is computed from the verdict on it. -/
def outcomeOf (repeats : List Text) (scope : Scope) (n : Nat) (o : Occurrence) :
    Verdict → Text × List Diagnostic × List FunctionDefinition
  | .keep => (o.written, [], [])
  | .invalid cause => (o.written, [⟨.invalidExpression, invalidMessage o cause, o.expression⟩], [])
  | .inadmissible =>
    (o.written, [⟨.twoWayNotAdmissible, inadmissibleMessage o, o.expression⟩], [])
  | .compute e =>
    let c : Computation := ⟨o.expression.trim, e, repeats⟩
    (Direction.oneWay.opening ++ c.call scope (scope.functionName n) ++ Direction.oneWay.closing,
      c.diagnostics scope, [c.definition scope (scope.functionName n)])

/-- One-way bindings are native in every form but the other one. -/
theorem isAdmissible_oneWay (k : BindingKind) : k.isAdmissible false = true ↔ k ≠ .other := by
  cases k <;> decide

/-- The outcomes are what is computed from the verdicts. -/
theorem outcome_iff (hjudge : judge scope.room o = .ok verdict) :
    Outcome repeats scope n o t ds fs ↔ outcomeOf repeats scope n o verdict = (t, ds, fs) := by
  unfold judge at hjudge
  constructor
  · intro h
    cases h with
    | native read admissible =>
      simp only [read, admissible, if_true] at hjudge
      cases hjudge
      rfl
    | literal read legitimate =>
      simp only [read, legitimate] at hjudge
      cases hjudge
      rfl
    | invalid read illegitimate =>
      simp only [read, illegitimate] at hjudge
      cases hjudge
      rfl
    | inadmissible read twoWay inadmissible =>
      have htwo : o.isTwoWay = true := by simp [Occurrence.isTwoWay, twoWay]
      simp only [read, htwo, inadmissible, Bool.false_eq_true, if_false, if_true] at hjudge
      cases hjudge
      rfl
    | computed read oneWay other computation =>
      have hone : o.isTwoWay = false := by simp [Occurrence.isTwoWay, oneWay]
      simp only [read, hone, other, BindingKind.isAdmissible, Bool.false_eq_true, if_false] at hjudge
      cases hjudge
      rw [computation]
      rfl
  · intro h
    cases hread : o.read with
    | error fault =>
      rw [hread] at hjudge
      cases hliteral : o.isLiteral scope.room with
      | error bracket =>
        rw [hliteral] at hjudge
        cases hjudge
      | ok b =>
        rw [hliteral] at hjudge
        cases b <;> cases hjudge <;> cases h
        · exact .invalid hread hliteral
        · exact .literal hread hliteral
    | ok e =>
      rw [hread] at hjudge
      dsimp only at hjudge
      cases hadmissible : e.kind.isAdmissible o.isTwoWay with
      | true =>
        rw [hadmissible, if_pos rfl] at hjudge
        cases hjudge
        cases h
        exact .native hread hadmissible
      | false =>
        rw [hadmissible, if_neg Bool.false_ne_true] at hjudge
        cases hdirection : o.direction with
        | twoWay =>
          have htwo : o.isTwoWay = true := by simp [Occurrence.isTwoWay, hdirection]
          rw [htwo] at hadmissible
          rw [if_pos htwo] at hjudge
          cases hjudge
          cases h
          exact .inadmissible hread hdirection hadmissible
        | oneWay =>
          have hone : o.isTwoWay = false := by simp [Occurrence.isTwoWay, hdirection]
          rw [hone] at hadmissible
          have hother : e.kind = .other := by
            by_contra hother
            exact absurd ((isAdmissible_oneWay _).mpr hother) (by simp [hadmissible])
          rw [hone, if_neg Bool.false_ne_true] at hjudge
          cases hjudge
          cases h
          exact .computed hread hdirection hother rfl

/-- **A binding that can be judged has exactly one outcome.** -/
theorem existsUnique_outcome (hjudge : judge scope.room o = .ok verdict) (repeats : List Text)
    (n : Nat) :
    ∃! r : Text × List Diagnostic × List FunctionDefinition,
      Outcome repeats scope n o r.1 r.2.1 r.2.2 :=
  ⟨outcomeOf repeats scope n o verdict, (outcome_iff hjudge).mpr rfl,
    fun _ h => ((outcome_iff hjudge).mp h).symm⟩

/-- Scopes with the same settings give the same outcome. -/
theorem Outcome.congr (h : start.SameSettings scope) (ho : Outcome repeats scope n o t ds fs) :
    Outcome repeats start n o t ds fs := by
  cases ho with
  | native read admissible => exact .native read admissible
  | literal read legitimate => exact .literal read (h.room ▸ legitimate)
  | invalid read illegitimate => exact .invalid read (h.room ▸ illegitimate)
  | inadmissible read twoWay inadmissible => exact .inadmissible read twoWay inadmissible
  | @computed e c read oneWay other computation =>
    rw [h.functionName, Computation.call_congr h, Computation.diagnostics_congr h,
      Computation.definition_congr h]
    exact .computed read oneWay other computation

/-- A binding without a new function is kept as it is written. -/
theorem Outcome.eq_written (h : Outcome repeats scope n o t ds fs) (hnone : fs = []) :
    t = o.written := by
  cases h with
  | native | literal | invalid | inadmissible => rfl
  | computed => cases hnone

/-- The new functions are named by the numbers from the next one on. -/
theorem Outcome.names_eq (h : Outcome repeats scope n o t ds fs) :
    fs.map (·.name) = (List.range' n fs.length).map scope.functionName := by
  cases h with
  | native | literal | invalid | inadmissible | computed => rfl

/-- A binding that is processed has its outcome, and the scope gains what comes of it. -/
theorem process_outcome (hevent : o.direction = .oneWay → o.event = none)
    (h : process repeats o scope = .ok (t, after)) :
    ∃ ds fs, Outcome repeats scope scope.counter o t ds fs ∧ scope.Gains ds fs after := by
  obtain ⟨verdict, hjudge, hcarry⟩ := exists_verdict_of_process h
  suffices h : t = (outcomeOf repeats scope scope.counter o verdict).1 ∧
      scope.Gains (outcomeOf repeats scope scope.counter o verdict).2.1
        (outcomeOf repeats scope scope.counter o verdict).2.2 after by
    exact ⟨_, _, (outcome_iff hjudge).mpr (by rw [h.1]), h.2⟩
  have hcomputation := computation?_of_judge hjudge repeats
  cases verdict with
  | keep =>
    cases hcarry
    exact ⟨rfl, .refl _⟩
  | invalid cause =>
    cases hcarry
    exact ⟨rfl, scope.gains_report ..⟩
  | inadmissible =>
    cases hcarry
    exact ⟨rfl, scope.gains_report ..⟩
  | compute e =>
    have hone := (computation?_eq_some hcomputation).2
    obtain ⟨hcall, hgains⟩ := Synthesis.gains_synthesize o.expression e repeats scope
    have hstandIn : o.render (Synthesis.synthesize o.expression e repeats scope).1 = t :=
      congrArg Prod.fst hcarry
    have hafter : (Synthesis.synthesize o.expression e repeats scope).2.note .detail .rewriting
        (computedMessage o (Synthesis.synthesize o.expression e repeats scope).1) = after :=
      congrArg Prod.snd hcarry
    rw [← hstandIn, ← hafter]
    refine ⟨?_, ?_⟩
    · simp only [Occurrence.render, hevent hone, hone, List.append_nil]
      rw [hcall]
      rfl
    · exact ⟨hgains.settings.trans ⟨rfl, rfl, rfl, rfl, rfl, rfl, rfl⟩, hgains.counter,
        hgains.diagnostics, hgains.functions⟩

/-- Carrying out a verdict leaves all settings as they are. -/
theorem sameSettings_carryOut (repeats : List Text) (o : Occurrence) (scope : Scope)
    (verdict : Verdict) : scope.SameSettings (carryOut repeats o scope verdict).2 := by
  cases verdict with
  | keep => exact .refl scope
  | invalid cause => exact (scope.gains_report ..).settings
  | inadmissible => exact (scope.gains_report ..).settings
  | compute e =>
    obtain ⟨-, hgains⟩ := Synthesis.gains_synthesize o.expression e repeats scope
    exact hgains.settings.trans ⟨rfl, rfl, rfl, rfl, rfl, rfl, rfl⟩

/-- Processing a binding leaves all settings as they are. -/
theorem sameSettings_process (h : process repeats o scope = .ok (t, after)) :
    scope.SameSettings after := by
  obtain ⟨verdict, -, hcarry⟩ := exists_verdict_of_process h
  have hsettings := sameSettings_carryOut repeats o scope verdict
  rwa [hcarry] at hsettings

end Outcomes

/-! ## The bindings of a place -/

/-- **The account of some bindings** in a text from a position on: what precedes a binding is kept,
the binding is replaced as its outcome says, and its diagnostics and functions come before those of
the bindings behind it. -/
inductive Accounted (repeats : List Text) (scope : Scope) (whole : Text) :
    (position n : Nat) → List Occurrence → Text → List Diagnostic → List FunctionDefinition → Prop
  | rest {position n : Nat} : Accounted repeats scope whole position n [] (whole.drop position) [] []
  | next {position n : Nat} {o : Occurrence} {os : List Occurrence} {before standIn answer : Text}
      {ds ds' : List Diagnostic} {fs fs' : List FunctionDefinition}
      (place : whole.drop position = before ++ o.written ++ whole.drop o.stop)
      (start : o.start = position + before.length) (stop : o.stop = o.start + o.written.length)
      (outcome : Outcome repeats scope n o standIn ds fs)
      (tail : Accounted repeats scope whole o.stop (n + fs.length) os answer ds' fs') :
      Accounted repeats scope whole position n (o :: os) (before ++ standIn ++ answer) (ds ++ ds')
        (fs ++ fs')

section Places

variable {repeats : List Text} {scope start after : Scope} {whole answer : Text} {position n : Nat}
  {os : List Occurrence} {ds : List Diagnostic} {fs : List FunctionDefinition}

/-- The new functions of some bindings are named by the numbers from the next one on. -/
theorem Accounted.names_eq (h : Accounted repeats scope whole position n os answer ds fs) :
    fs.map (·.name) = (List.range' n fs.length).map scope.functionName := by
  induction h with
  | rest => rfl
  | @next _ n _ _ _ _ _ _ _ fs fs' _ _ _ outcome _ ih =>
    rw [List.map_append, outcome.names_eq, ih, List.length_append, ← List.range'_append_1,
      List.map_append]

/-- The new functions of some bindings have names of their own. -/
theorem Accounted.nodup (h : Accounted repeats scope whole position n os answer ds fs) :
    (fs.map (·.name)).Nodup := by
  rw [h.names_eq]
  exact List.Nodup.map scope.functionName_injective List.nodup_range'

/-- Without a new function the text stays as it is. -/
theorem Accounted.eq_self (h : Accounted repeats scope whole position n os answer ds fs)
    (hnone : fs = []) : answer = whole.drop position := by
  induction h with
  | rest => rfl
  | next place _ _ outcome _ ih =>
    obtain ⟨hfirst, hrest⟩ := List.append_eq_nil_iff.mp hnone
    rw [outcome.eq_written hfirst, ih hrest]
    exact place.symm

/-- Processing bindings gives their account. -/
theorem rewriteFrom_accounted (hstart : start.SameSettings scope)
    (hlies : ∀ o ∈ os, o.LiesIn whole) (hevent : ∀ o ∈ os, o.direction = .oneWay → o.event = none)
    (hdisjoint : Disjoint position os)
    (h : rewriteFrom repeats position (whole.drop position) os scope = .ok (answer, after)) :
    ∃ ds fs, Accounted repeats start whole position scope.counter os answer ds fs ∧
      scope.Gains ds fs after := by
  induction os generalizing position scope answer with
  | nil =>
    cases h
    exact ⟨[], [], .rest, .refl _⟩
  | cons o os ih =>
    rw [List.forall_mem_cons] at hlies hevent
    obtain ⟨standIn, between, behind, hprocess, hbehind, rfl⟩ := exists_of_rewriteFrom_cons h
    -- the rewriting goes on behind the binding, which does not start before the place reached
    have hrest : (whole.drop position).drop (o.stop - position) = whole.drop o.stop := by
      obtain ⟨_, _, _, _, hstop⟩ := hlies.1
      rw [List.drop_drop]
      have := hdisjoint.1
      congr 1
      omega
    rw [hrest] at hbehind
    obtain ⟨ds, fs, houtcome, hgains⟩ := process_outcome hevent.1 hprocess
    obtain ⟨ds', fs', htail, hgains'⟩ :=
      ih (hstart.trans hgains.settings) hlies.2 hevent.2 hdisjoint.2 hbehind
    have hstop : o.stop = o.start + o.written.length := by
      obtain ⟨_, _, _, _, hstop⟩ := hlies.1
      exact hstop
    have hlength : o.start ≤ whole.length := by
      obtain ⟨before, after, rfl, hat, _⟩ := hlies.1
      simp only [List.length_append]
      omega
    rw [hgains.counter] at htail
    refine ⟨ds ++ ds', fs ++ fs', ?_, hgains.trans hgains'⟩
    refine .next (hlies.1.split hdisjoint.1) ?_ hstop (houtcome.congr hstart) htail
    have := hdisjoint.1
    rw [List.length_take, List.length_drop]
    omega

/-- Bindings that can be judged are processed. -/
theorem exists_rewriteFrom_of_judge (h : ∀ o ∈ os, ∃ verdict, judge scope.room o = .ok verdict)
    (repeats : List Text) (position : Nat) (t : Text) :
    ∃ answer after, rewriteFrom repeats position t os scope = .ok (answer, after) := by
  induction os generalizing position t scope with
  | nil => exact ⟨t, scope, rfl⟩
  | cons o os ih =>
    rw [List.forall_mem_cons] at h
    obtain ⟨⟨verdict, hjudge⟩, hos⟩ := h
    have hprocess : process repeats o scope = .ok (carryOut repeats o scope verdict) := by
      rw [process, hjudge]
    rw [← (sameSettings_carryOut repeats o scope verdict).room] at hos
    obtain ⟨rest, after, hrest⟩ := ih hos o.stop (t.drop (o.stop - position))
    rw [rewriteFrom, hprocess]
    simp only [bind, Except.bind, hrest]
    exact ⟨_, after, rfl⟩

/-! ## Places -/

/-- There is no answer exactly if no binding may stand at the place. -/
theorem visit_eq_none_iff {site : Site} {reply : Option Text}
    (h : visit site scope = .ok (reply, after)) :
    reply = none ↔ ¬ Occurrence.mayHold site.text = true := by
  obtain ⟨hmay, rfl, -⟩ | ⟨hmay, -, t, rfl, -⟩ := visit_cases h
  · exact ⟨fun _ => hmay, fun _ => rfl⟩
  · exact ⟨nofun, fun hnot => absurd hmay hnot⟩

/-- Without an answer nothing happens. -/
theorem visit_idle {site : Site} (h : visit site scope = .ok (none, after)) : after = scope := by
  obtain ⟨-, -, hafter⟩ | ⟨-, -, t, hnone, -⟩ := visit_cases h
  · exact hafter
  · cases hnone

/-- An answer accounts for the selected bindings, and the scope gains what comes of them. -/
theorem visit_account {site : Site} (h : visit site scope = .ok (some answer, after)) :
    Occurrence.find site.raw site.text = .ok (Occurrence.found site.raw site.text) ∧
      ∃ ds fs, Accounted site.repeats scope site.text 0 scope.counter
          (selectFrom 0 (Occurrence.found site.raw site.text)) answer ds fs ∧
        scope.Gains ds fs after := by
  obtain ⟨-, hnone, -⟩ | ⟨hmay, hfind, t, hanswer, hrewrite⟩ := visit_cases h
  · cases hnone
  · obtain rfl := Option.some.inj hanswer
    rw [selected, if_pos hmay] at hrewrite
    have hdisjoint := disjoint_selectFrom 0 (Occurrence.found site.raw site.text)
    exact ⟨hfind, rewriteFrom_accounted (.refl scope)
      (fun o ho => Occurrence.liesIn_of_mem_found (mem_of_mem_selectFrom ho))
      (fun o ho => Occurrence.event_of_mem_found (mem_of_mem_selectFrom ho)) hdisjoint hrewrite⟩

/-- A visit that comes to the end leaves all settings as they are. -/
theorem sameSettings_visit {site : Site} {reply : Option Text}
    (h : visit site scope = .ok (reply, after)) : scope.SameSettings after := by
  cases reply with
  | none =>
    rw [visit_idle h]
    exact .refl scope
  | some answer =>
    obtain ⟨-, ds, fs, -, hgains⟩ := visit_account h
    exact hgains.settings

/-- A visit comes to the end if the bindings of the place are found and the selected ones can be
judged. -/
theorem exists_visit_of_judge {site : Site}
    (h : Occurrence.mayHold site.text = true → ∃ os, Occurrence.find site.raw site.text = .ok os ∧
      ∀ o ∈ selectFrom 0 os, ∃ verdict, judge scope.room o = .ok verdict) :
    ∃ reply after, visit site scope = .ok (reply, after) := by
  unfold visit
  by_cases hmay : Occurrence.mayHold site.text = true
  · obtain ⟨os, hfind, hjudge⟩ := h hmay
    obtain ⟨answer, after, hrewrite⟩ :=
      exists_rewriteFrom_of_judge hjudge site.repeats 0 site.text
    rw [if_pos hmay, hfind]
    dsimp only
    rw [hrewrite]
    exact ⟨_, _, rfl⟩
  · rw [if_neg hmay]
    exact ⟨none, scope, rfl⟩

/-- The selected bindings of an answer were judged. -/
theorem exists_judge_of_rewriteFrom {t : Text} {o : Occurrence} (ho : o ∈ os)
    (h : rewriteFrom repeats position t os scope = .ok (answer, after)) :
    ∃ verdict, judge scope.room o = .ok verdict := by
  induction os generalizing position t scope answer with
  | nil => cases ho
  | cons first os ih =>
    obtain ⟨standIn, between, behind, hprocess, hbehind, -⟩ := exists_of_rewriteFrom_cons h
    obtain ⟨verdict, hjudge, -⟩ := exists_verdict_of_process hprocess
    rcases List.mem_cons.mp ho with rfl | ho
    · exact ⟨verdict, hjudge⟩
    · rw [← (sameSettings_process hprocess).room]
      exact ih ho hbehind

/-- **What becomes of the bindings of a place.**  A visit comes to the end if the bindings of the place
are found and the selected ones can be judged.  There is no answer then exactly if no opening of a
binding stands in the text, and nothing happens.  Otherwise each selected binding has exactly one
outcome, the answer is the text with the selected bindings replaced as their outcomes say, and the
scope gains their diagnostics and functions in the same order; functions under new names are put
behind the others, and without a new function the answer is the text. -/
theorem visit_accounted (site : Site) (scope : Scope) :
    ((Occurrence.mayHold site.text = true → ∃ os, Occurrence.find site.raw site.text = .ok os ∧
        ∀ o ∈ selectFrom 0 os, ∃ verdict, judge scope.room o = .ok verdict) →
      ∃ reply after, visit site scope = .ok (reply, after)) ∧
    ∀ reply after, visit site scope = .ok (reply, after) →
      (reply = none ↔ ¬ Direction.oneWay.opening <:+: site.text ∧
        ¬ Direction.twoWay.opening <:+: site.text) ∧
      (reply = none → after = scope) ∧
      ∀ answer ∈ reply, ∃ os, Occurrence.find site.raw site.text = .ok os ∧
        (∀ o ∈ selectFrom 0 os, ∀ n, ∃! r : Text × List Diagnostic × List FunctionDefinition,
          Outcome site.repeats scope n o r.1 r.2.1 r.2.2) ∧
        ∃ ds fs,
          Accounted site.repeats scope site.text 0 scope.counter (selectFrom 0 os) answer ds fs ∧
          scope.Gains ds fs after ∧
          ((∀ f ∈ fs, f.name ∉ scope.functions.map (·.name)) →
            after.functions = scope.functions ++ fs) ∧
          (fs = [] → answer = site.text) := by
  refine ⟨exists_visit_of_judge, fun reply after h => ⟨?_, ?_, ?_⟩⟩
  · rw [visit_eq_none_iff h, Occurrence.mayHold_iff, not_or]
  · rintro rfl
    exact visit_idle h
  · rintro answer hanswer
    obtain rfl : reply = some answer := hanswer
    obtain ⟨hfind, ds, fs, haccounted, hgains⟩ := visit_account h
    refine ⟨_, hfind, fun o ho n => ?_, ds, fs, haccounted, hgains, fun hnew => ?_,
      fun hnone => haccounted.eq_self hnone⟩
    · obtain ⟨-, hnone, -⟩ | ⟨hmay, -, t, -, hrewrite⟩ := visit_cases h
      · cases hnone
      · rw [selected, if_pos hmay] at hrewrite
        obtain ⟨verdict, hjudge⟩ := exists_judge_of_rewriteFrom ho hrewrite
        exact existsUnique_outcome hjudge site.repeats n
    · exact hgains.functions.trans (Scope.foldl_putFunction_eq_append hnew haccounted.nodup)

end Places

/-- A scope that holds a function of its own under the next name. -/
def takenName : Scope :=
  { moduleId := "x-test".toList, functions := [⟨"__c_0".toList, [], ['0']⟩] }

/-- A text with one binding that has to be computed. -/
def sumSite : Site :=
  ⟨"[[a + b]]".toList, false, none, []⟩

/-- The new function then takes the place of the other one, and none is added. -/
theorem visit_takenName :
    ∃ after, visit sumSite takenName = .ok (some "[[__c_0()]]".toList, after) ∧
      after.functions = [⟨"__c_0".toList, [], "a + b".toList⟩] ∧
      ∀ f, after.functions ≠ takenName.functions ++ [f] := by
  have hvisit : (visit sumSite takenName).toOption.map (fun r => (r.1, r.2.functions))
      = some (some "[[__c_0()]]".toList, [⟨"__c_0".toList, [], "a + b".toList⟩]) := by
    decide +kernel
  obtain ⟨⟨reply, after⟩, hresult, hfacts⟩ := Option.map_eq_some_iff.mp hvisit
  obtain ⟨rfl, hfunctions⟩ := Prod.mk.inj hfacts
  refine ⟨after, eq_ok_of_toOption hresult, hfunctions, fun f h => ?_⟩
  rw [hfunctions] at h
  exact absurd (congrArg List.length h) (by simp [takenName])

end Rewrite
end DataBinding
