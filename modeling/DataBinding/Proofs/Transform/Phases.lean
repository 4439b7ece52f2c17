/-
# The phases of a transform

A transform of a module locates the declaration, learns the component's state, rewrites the bindings
and brings the generated functions into the declaration.  The key facts are

* `fresh_learned`        : nothing is generated before the rewriting;
* `Rewritten.extends`    : the rewriting generates a function for each computation of the document;
* `eq_ofModule_of_place` : what is written is the rewritten document, with the functions put into the
  declaration if there are both.

Learning and rewriting may stop; a transform that gives a result has come to the end of both.
-/
import DataBinding.Proofs.Template.Obstacles
import DataBinding.Transform

namespace DataBinding

/-! ## Scopes before the rewriting -/

namespace Scope

/-- A scope for some options in which nothing is generated yet. -/
structure Fresh (options : Options) (moduleId : Text) (scope : Scope) : Prop where
  moduleId : scope.moduleId = moduleId
  globals : scope.globals = options.globals
  functionPrefix : scope.functionPrefix = options.functionPrefix
  separator : scope.separator = options.separator
  room : scope.room = options.room
  counter : scope.counter = 0
  functions : scope.functions = []

variable {options : Options} {moduleId : Text} {scope : Scope}

/-- The functions of a fresh scope are named by the numbers used up, of which there are none. -/
theorem Fresh.numbered (h : scope.Fresh options moduleId) : scope.Numbered := by
  unfold Numbered
  rw [h.functions, h.counter]
  rfl

/-- A note leaves a scope fresh. -/
theorem Fresh.note (h : scope.Fresh options moduleId) (level : Journal.Level)
    (activity : Journal.Activity) (message : String) :
    (scope.note level activity message).Fresh options moduleId :=
  ⟨h.moduleId, h.globals, h.functionPrefix, h.separator, h.room, h.counter, h.functions⟩

/-- Making identifiers component state leaves a scope fresh. -/
theorem Fresh.bindAll (h : scope.Fresh options moduleId) (identifiers : List Text) :
    (scope.bindAll identifiers).Fresh options moduleId := by
  unfold Scope.bindAll
  induction identifiers generalizing scope with
  | nil => exact h
  | cons identifier identifiers ih =>
    refine ih ?_
    unfold bind
    split
    · exact h
    · exact ⟨h.moduleId, h.globals, h.functionPrefix, h.separator, h.room, h.counter, h.functions⟩

end Scope

namespace ComponentState

section Visits

variable {site : Site} {scope after : Scope} {reply : Option Text}

/-- The component state that a place shows. -/
def identifiersAt (site : Site) (scope : Scope) : List Text :=
  identifiersOf (Occurrence.found site.raw site.text) site.repeats scope

/-- Without the opening of a two-way binding a place shows nothing. -/
theorem identifiersAt_eq_nil (h : ¬ Text.holds Direction.twoWay.opening site.text = true)
    (scope : Scope) : identifiersAt site scope = [] := by
  have hnone : (Occurrence.found site.raw site.text).filter (·.isTwoWay) = [] := by
    refine List.filter_eq_nil_iff.mpr fun o ho htwo => h (Text.holds_iff.mpr ?_)
    have hdirection : o.direction = .twoWay := by simpa [Occurrence.isTwoWay] using htwo
    exact hdirection ▸ Occurrence.opening_infix_of_mem_found ho
  rw [identifiersAt, identifiersOf, hnone]
  rfl

/-- A visit that learns gives no answer and binds what the place shows. -/
theorem visit_cases (h : visit site scope = .ok (reply, after)) :
    reply = none ∧ after = scope.bindAll (identifiersAt site scope) := by
  unfold visit at h
  by_cases hholds : Text.holds Direction.twoWay.opening site.text = true
  · rw [if_pos hholds] at h
    cases hfind : Occurrence.find site.raw site.text with
    | error digits =>
      rw [hfind] at h
      cases h
    | ok os =>
      obtain rfl := (Occurrence.find_eq_ok_iff.mp hfind).2
      rw [hfind] at h
      cases h
      exact ⟨rfl, rfl⟩
  · rw [if_neg hholds] at h
    cases h
    rw [identifiersAt_eq_nil hholds]
    exact ⟨rfl, rfl⟩

/-- Learning gives no answer. -/
theorem visit_keepsMarkers : Attempt.KeepsMarkers visit := by
  intro site scope answer after h
  cases (visit_cases h).1

end Visits

/-- What is learned from a document is learned from its places, in document order. -/
theorem collect_eq_ok_iff {document : Markup.Document} {declared : List Text} {scope last : Scope} :
    collect document declared scope = .ok last ↔
      Markup.visitAll (Attempt.visitor visit) document.sites (.ok (scope.bindAll declared))
        = .ok last := by
  rw [collect, Markup.Document.attempt_eq, document.walk_state visit_keepsMarkers.visitor]
  cases Markup.visitAll (Attempt.visitor visit) document.sites (.ok (scope.bindAll declared)) <;>
    simp [Except.map]

/-- **Learning stops** at the first place that has an obstacle. -/
theorem collect_stopsAt (document : Markup.Document) (declared : List Text) (scope : Scope) :
    (∀ obstacle, document.sites.findSome? obstacle? = some obstacle →
      ∃ stop, collect document declared scope = .error stop ∧ stop.obstacle = obstacle) ∧
    (document.sites.findSome? obstacle? = none →
      ∃ last, collect document declared scope = .ok last) := by
  obtain ⟨hstops, hpasses⟩ := Markup.Document.attempt_stopsAt visit_stopsAt visit_keepsMarkers document
    (scope.bindAll declared) trivial
  refine ⟨fun obstacle h => ?_, fun h => ?_⟩
  · obtain ⟨stop, hstop, hobstacle⟩ := hstops obstacle h
    exact ⟨stop, by rw [collect, hstop]; rfl, hobstacle⟩
  · obtain ⟨document', last, hlast⟩ := hpasses h
    exact ⟨last, by rw [collect, hlast]; rfl⟩

/-- Learning component state leaves a scope fresh. -/
theorem fresh_collect {options : Options} {moduleId : Text} {scope last : Scope}
    (h : scope.Fresh options moduleId) {document : Markup.Document} {declared : List Text}
    (hcollect : collect document declared scope = .ok last) : last.Fresh options moduleId := by
  refine Markup.visitAll_attempt_keeps (P := Scope.Fresh options moduleId)
    (fun site state answer after hvisit hstate => ?_) (collect_eq_ok_iff.mp hcollect)
    (h.bindAll declared)
  rw [(visit_cases hvisit).2]
  exact hstate.bindAll _

end ComponentState

namespace Transform

/-! ## Before and behind the rewriting -/

/-- The scope before anything is learned from a module. -/
def started (options : Options) (filePath moduleId : Text) (document : Markup.Document) : Scope :=
  noteMissed options.register (Declaration.locate document options.register).2
    (Scope.ofOptions moduleId options filePath)

/-- The properties that the declaration of a module declares. -/
def declaredProperties (options : Options) (document : Markup.Document) : List Text :=
  ((Declaration.locate document options.register).1.map (·.properties)).getD []

/-- The scope before the bindings of a module are rewritten. -/
def learned (options : Options) (filePath moduleId : Text) (document : Markup.Document) :
    Except Stop Scope :=
  ComponentState.collect document (declaredProperties options document)
    (started options filePath moduleId document)

/-- **A module whose bindings are rewritten**: the scope before the rewriting, and the document and the
scope behind it. -/
structure Rewritten (options : Options) (filePath moduleId : Text) (document : Markup.Document)
    (before : Scope) (document' : Markup.Document) (after : Scope) : Prop where
  learned : learned options filePath moduleId document = .ok before
  rewritten : Rewrite.document document before = .ok (document', after)

/-- A module is transformed by placing the functions of its rewriting, unless something stops. -/
theorem transformModule_eq (options : Options) (filePath moduleId : Text)
    (document : Markup.Document) :
    transformModule options filePath moduleId document =
      match (learned options filePath moduleId document).bind (Rewrite.document document) with
      | .error stop => (.error (.stopped stop.obstacle), stop.scope.journal)
      | .ok (document', scope) =>
        place options (Declaration.locate document options.register).1 document' scope :=
  rfl

/-- A module whose bindings are rewritten is transformed by placing the functions. -/
theorem transformModule_of_rewritten {options : Options} {filePath moduleId : Text}
    {document document' : Markup.Document} {before after : Scope}
    (h : Rewritten options filePath moduleId document before document' after) :
    transformModule options filePath moduleId document
      = place options (Declaration.locate document options.register).1 document' after := by
  rw [transformModule_eq, h.learned, Except.bind, h.rewritten]

/-- A transform of a module that comes to the end has rewritten the bindings. -/
theorem exists_rewritten_of_transformModule {options : Options} {filePath moduleId : Text}
    {document : Markup.Document} {result : Result}
    (h : (transformModule options filePath moduleId document).1 = .ok result) :
    ∃ before document' after, Rewritten options filePath moduleId document before document' after ∧
      (place options (Declaration.locate document options.register).1 document' after).1
        = .ok result := by
  rw [transformModule_eq] at h
  cases hlearned : learned options filePath moduleId document with
  | error stop =>
    rw [hlearned] at h
    cases h
  | ok before =>
    rw [hlearned, Except.bind] at h
    cases hrewritten : Rewrite.document document before with
    | error stop =>
      rw [hrewritten] at h
      cases h
    | ok r =>
      rw [hrewritten] at h
      exact ⟨before, r.1, r.2, ⟨hlearned, hrewritten⟩, h⟩

/-- Notes on scripts that were read in vain leave a scope fresh. -/
theorem fresh_noteMissed {options : Options} {moduleId : Text} {scope : Scope}
    (h : scope.Fresh options moduleId) (register : Text) (missed : Nat) :
    (noteMissed register missed scope).Fresh options moduleId := by
  induction missed generalizing scope with
  | zero => exact h
  | succ missed ih => exact ih (h.note _ _ _)

theorem fresh_started (options : Options) (filePath moduleId : Text) (document : Markup.Document) :
    (started options filePath moduleId document).Fresh options moduleId := by
  have hstart : (Scope.ofOptions moduleId options filePath).Fresh options moduleId :=
    ⟨rfl, rfl, rfl, rfl, rfl, rfl, rfl⟩
  exact fresh_noteMissed hstart options.register _

section Rewritten

variable {options : Options} {filePath moduleId : Text} {document document' : Markup.Document}
  {before after : Scope}

/-- **Nothing is generated before the rewriting.** -/
theorem fresh_learned (h : learned options filePath moduleId document = .ok before) :
    before.Fresh options moduleId :=
  ComponentState.fresh_collect (fresh_started options filePath moduleId document) h

/-- **The rewriting generates one function for each computation.** -/
theorem Rewritten.extends (h : Rewritten options filePath moduleId document before document' after) :
    before.Extends (Rewrite.computationsOf document) after :=
  Rewrite.document_extends (fresh_learned h.learned).numbered h.rewritten

/-- The module keeps its identifier. -/
theorem Rewritten.moduleId_eq
    (h : Rewritten options filePath moduleId document before document' after) :
    after.moduleId = moduleId :=
  h.extends.settings.moduleId.trans (fresh_learned h.learned).moduleId

/-- Without a function, nothing is rewritten. -/
theorem Rewritten.eq_self (h : Rewritten options filePath moduleId document before document' after)
    (hnil : after.functions = []) : document' = document :=
  Rewrite.document_eq_self (fresh_learned h.learned).numbered h.rewritten hnil

/-- There are functions exactly if there are computations. -/
theorem Rewritten.functions_eq_nil_iff
    (h : Rewritten options filePath moduleId document before document' after) :
    after.functions = [] ↔ Rewrite.computationsOf document = [] := by
  rw [h.extends.functions, (fresh_learned h.learned).functions, List.nil_append]
  exact List.mapIdx_eq_nil_iff

end Rewritten

/-! ## Stops -/

/-- **What stops the transform of a module**: the first obstacle to learning from it or, without one,
the first obstacle to its rewriting, in document order. -/
def obstacle? (options : Options) (document : Markup.Document) : Option Obstacle :=
  (document.sites.findSome? ComponentState.obstacle?).or
    (document.sites.findSome? (Rewrite.obstacle? options.room))

section Stops

variable {options : Options} {document : Markup.Document}

/-- A module with an obstacle is not transformed. -/
theorem transformModule_stops {obstacle : Obstacle} (h : obstacle? options document = some obstacle)
    (filePath moduleId : Text) :
    (transformModule options filePath moduleId document).1 = .error (.stopped obstacle) := by
  obtain ⟨hstops, hpasses⟩ := ComponentState.collect_stopsAt document
    (declaredProperties options document) (started options filePath moduleId document)
  rw [transformModule_eq, learned]
  unfold obstacle? at h
  cases hfirst : document.sites.findSome? ComponentState.obstacle? with
  | some first =>
    rw [hfirst] at h
    obtain rfl : first = obstacle := Option.some.inj h
    obtain ⟨stop, hstop, rfl⟩ := hstops first hfirst
    rw [hstop]
    rfl
  | none =>
    rw [hfirst, Option.none_or] at h
    obtain ⟨before, hbefore⟩ := hpasses hfirst
    rw [← (fresh_learned hbefore).room] at h
    obtain ⟨stop, hstop, rfl⟩ := (Rewrite.document_stopsAt document before).1 obstacle h
    rw [hbefore, Except.bind, hstop]

/-- **The bindings of a module are rewritten** exactly if the module has no obstacle. -/
theorem exists_rewritten_iff (filePath moduleId : Text) :
    (∃ before document' after, Rewritten options filePath moduleId document before document' after) ↔
      obstacle? options document = none := by
  obtain ⟨hstops, hpasses⟩ := ComponentState.collect_stopsAt document
    (declaredProperties options document) (started options filePath moduleId document)
  rw [obstacle?, Option.or_eq_none_iff]
  constructor
  · rintro ⟨before, document', after, hlearned, hrewritten⟩
    rw [← (fresh_learned hlearned).room]
    constructor
    · by_contra hsome
      obtain ⟨obstacle, hobstacle⟩ := Option.ne_none_iff_exists'.mp hsome
      obtain ⟨stop, hstop, -⟩ := hstops obstacle hobstacle
      cases hlearned.symm.trans hstop
    · by_contra hsome
      obtain ⟨obstacle, hobstacle⟩ := Option.ne_none_iff_exists'.mp hsome
      obtain ⟨stop, hstop, -⟩ := (Rewrite.document_stopsAt document before).1 obstacle hobstacle
      cases hrewritten.symm.trans hstop
  · rintro ⟨hfirst, hsecond⟩
    obtain ⟨before, hbefore⟩ := hpasses hfirst
    rw [← (fresh_learned hbefore).room] at hsecond
    obtain ⟨document', after, hafter⟩ := (Rewrite.document_stopsAt document before).2 hsecond
    exact ⟨before, document', after, hbefore, hafter⟩

end Stops

/-! ## Placing the functions -/

/-- Inspecting a declaration leaves the functions as they are. -/
theorem functions_inspect (d : Declaration) (scope : Scope) :
    (Injection.inspect d scope).functions = scope.functions ∧
      (Injection.inspect d scope).moduleId = scope.moduleId := by
  unfold Injection.inspect
  dsimp only
  split <;> split <;> exact ⟨rfl, rfl⟩

/-- The injected text depends on the functions alone. -/
theorem render_congr {s s' : Scope} (h : s'.functions = s.functions) :
    Injection.render s' = Injection.render s := by
  unfold Injection.render Injection.lines
  rw [h]

/-- What is made of a node depends on the functions alone. -/
theorem intoNode_congr {s s' : Scope} (h : s'.functions = s.functions) (insertAt : Nat) :
    Injection.intoNode insertAt s' = Injection.intoNode insertAt s := by
  funext node
  cases node with
  | text t =>
    show Markup.Node.text _ = Markup.Node.text _
    rw [render_congr h]
  | comment _ | declaration _ | instruction _ | element _ _ => rfl

/-- A document with the functions of a scope in its declaration, if there are both. -/
def placed (declaration : Option Declaration) (document : Markup.Document) (scope : Scope) :
    Markup.Document :=
  match declaration with
  | some d =>
    if scope.functions = [] then document
    else document.modifyNode d.address (Injection.intoNode d.insertAt scope)
  | none => document

/-- **What is written** is the document with the functions in its declaration. -/
theorem eq_ofModule_of_place {options : Options} {declaration : Option Declaration}
    {document : Markup.Document} {scope : Scope} {result : Result}
    (h : (place options declaration document scope).1 = .ok result) :
    ∃ scope', result = .ofModule (placed declaration document scope) scope' ∧
      scope'.functions = scope.functions ∧ scope'.moduleId = scope.moduleId := by
  unfold place at h
  dsimp only at h
  cases hempty : scope.functions.isEmpty with
  | true =>
    rw [if_pos hempty] at h
    refine ⟨scope, ?_, rfl, rfl⟩
    rw [List.isEmpty_iff] at hempty
    cases declaration with
    | none => exact (Except.ok.inj h).symm
    | some d =>
      rw [placed, if_pos hempty]
      exact (Except.ok.inj h).symm
  | false =>
    rw [if_neg (by simp [hempty])] at h
    cases declaration with
    | none =>
      dsimp only at h
      split at h
      · simp at h
      · exact ⟨_, (Except.ok.inj h).symm, rfl, rfl⟩
    | some d =>
      -- inspecting the declaration reports only, so that the functions are those of the scope
      obtain ⟨hfunctions, hmodule⟩ := functions_inspect d scope
      have hne : scope.functions ≠ [] := by
        intro hnil
        simp [hnil] at hempty
      simp only [Declaration.inject, hfunctions, hempty, Bool.false_eq_true, if_false] at h
      refine ⟨_, ?_, hfunctions, hmodule⟩
      rw [placed, if_neg hne, ← intoNode_congr hfunctions]
      exact (Except.ok.inj h).symm

/-! ## Whole transforms -/

/-- A text that is transformed is markup, and without a module it is left as it is. -/
theorem cases_of_transform {options : Options} {filePath t : Text} {result : Result}
    (h : (transform options filePath t).1 = .ok result) :
    ∃ document, Markup.Document.parse t = .ok document ∧
      (moduleId? document = none ∧ result = .unchanged t ∨
        ∃ id, moduleId? document = some id ∧
          (transformModule options filePath id document).1 = .ok result) := by
  unfold transform at h
  cases hparse : Markup.Document.parse t with
  | error fault =>
    rw [hparse] at h
    simp at h
  | ok document =>
    rw [hparse] at h
    dsimp only at h
    refine ⟨document, rfl, ?_⟩
    cases hid : moduleId? document with
    | none =>
      rw [hid] at h
      exact .inl ⟨rfl, (Except.ok.inj h).symm⟩
    | some id =>
      rw [hid] at h
      exact .inr ⟨id, rfl, h⟩

/-- A module with a binding that is computed and with a declaration. -/
def sumPage : Text :=
  ("<dom-module id=x-a><template>[[a + 1]]</template>" ++
    "<script>Polymer(\x7bis: 'x-a'\x7d)</script></dom-module>").toList

end Transform
end DataBinding
