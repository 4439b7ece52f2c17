/-
# The path of a document

The path under which a document is known stands in front of warnings in the journal, and nowhere
else.  The key facts are

* `Scope.Alike`          : scopes that differ in the path and in the journal alone;
* `visit_alike`          : visits in alike scopes end alike;
* `transform_eq_of_path` : a document has the same result under every path.
-/
import DataBinding.Proofs.Template.Attempts
import DataBinding.Proofs.Transform.Phases

namespace DataBinding

/-! ## Scopes -/

namespace Scope

/-- Scopes that differ in the path of the document and in the journal alone. -/
def Alike (s s' : Scope) : Prop :=
  ∃ filePath journal, s' = { s with filePath, journal }

variable {s s' : Scope}

theorem Alike.functions (h : s.Alike s') : s'.functions = s.functions := by
  obtain ⟨_, _, rfl⟩ := h
  rfl

theorem Alike.moduleId (h : s.Alike s') : s'.moduleId = s.moduleId := by
  obtain ⟨_, _, rfl⟩ := h
  rfl

theorem Alike.room (h : s.Alike s') : s'.room = s.room := by
  obtain ⟨_, _, rfl⟩ := h
  rfl

/-- Notes keep scopes alike, whatever they say. -/
theorem Alike.note (h : s.Alike s') (level : Journal.Level) (activity : Journal.Activity)
    (message message' : String) :
    (s.note level activity message).Alike (s'.note level activity message') := by
  obtain ⟨filePath, journal, rfl⟩ := h
  exact ⟨filePath, _, rfl⟩

/-- Reports keep scopes alike. -/
theorem Alike.report (h : s.Alike s') (kind : DiagnosticKind) (message : String)
    (expression : Text) :
    (s.report kind message expression).Alike (s'.report kind message expression) := by
  obtain ⟨filePath, journal, rfl⟩ := h
  exact ⟨filePath, _, rfl⟩

/-- Making identifiers component state keeps scopes alike. -/
theorem Alike.bindAll (h : s.Alike s') (identifiers : List Text) :
    (s.bindAll identifiers).Alike (s'.bindAll identifiers) := by
  unfold Scope.bindAll
  induction identifiers generalizing s s' with
  | nil => exact h
  | cons identifier identifiers ih =>
    refine ih ?_
    obtain ⟨filePath, journal, rfl⟩ := h
    unfold bind
    -- what is bound does not depend on the path, so both scopes take the same branch
    change Alike _ (if s.isBound identifier then _ else _)
    split <;> exact ⟨filePath, journal, rfl⟩

end Scope

/-- Stops at the same obstacle. -/
def Stop.Alike (stop stop' : Stop) : Prop :=
  stop.obstacle = stop'.obstacle

/-! ## Rewriting -/

open Scope (Alike)

variable {s s' : Scope}

/-- Reports on unresolved roots keep scopes alike. -/
theorem Synthesis.alike_reportUnresolved (h : s.Alike s') (roots : List Text) (text : Text) :
    (reportUnresolved s roots text).Alike (reportUnresolved s' roots text) := by
  have hmessage : unresolvedMessage s' = unresolvedMessage s := by
    obtain ⟨_, _, rfl⟩ := h
    rfl
  unfold reportUnresolved
  rw [hmessage]
  clear hmessage
  generalize unresolvedMessage s = message
  induction roots generalizing s s' with
  | nil => exact h
  | cons root roots ih => exact ih (h.report _ _ _)

/-- Alike scopes give a binding the same call. -/
theorem Synthesis.alike_synthesize (h : s.Alike s') (text : Text) (e : Expr) (repeats : List Text) :
    (synthesize text e repeats s).1 = (synthesize text e repeats s').1 ∧
      (synthesize text e repeats s).2.Alike (synthesize text e repeats s').2 := by
  have hreported := alike_reportUnresolved h (unresolvedRoots s repeats e.references) text.trim
  have hroots : unresolvedRoots s' repeats e.references
      = unresolvedRoots s repeats e.references := by
    obtain ⟨_, _, rfl⟩ := h
    rfl
  have hparameters : parameters s' repeats e.references = parameters s repeats e.references := by
    obtain ⟨_, _, rfl⟩ := h
    rfl
  have hbody : renamedBody s' repeats e.references text.trim
      = renamedBody s repeats e.references text.trim := by
    obtain ⟨_, _, rfl⟩ := h
    rfl
  unfold synthesize
  dsimp only
  rw [hroots, hparameters, hbody]
  obtain ⟨filePath, journal, heq⟩ := hreported
  rw [heq]
  exact ⟨rfl, filePath, journal, rfl⟩

namespace Rewrite

/-- Alike scopes give a binding the same text by the verdict on it. -/
theorem alike_carryOut (h : s.Alike s') (repeats : List Text) (o : Occurrence) (verdict : Verdict) :
    (carryOut repeats o s verdict).1 = (carryOut repeats o s' verdict).1 ∧
      (carryOut repeats o s verdict).2.Alike (carryOut repeats o s' verdict).2 := by
  cases verdict with
  | keep => exact ⟨rfl, h⟩
  | invalid cause => exact ⟨rfl, h.report _ _ _⟩
  | inadmissible => exact ⟨rfl, h.report _ _ _⟩
  | compute e =>
    obtain ⟨hcall, hafter⟩ := Synthesis.alike_synthesize h o.expression e repeats
    exact ⟨congrArg o.render hcall, hafter.note _ _ _ _⟩

/-- Alike scopes give a binding the same text, if they give it one. -/
theorem alike_process (h : s.Alike s') (repeats : List Text) (o : Occurrence) :
    EndAlike Stop.Alike (fun r r' => r.1 = r'.1 ∧ r.2.Alike r'.2) (process repeats o s)
      (process repeats o s') := by
  unfold process
  rw [h.room]
  cases judge s.room o with
  | error bracket => exact .error rfl
  | ok verdict => exact .ok (alike_carryOut h repeats o verdict)

/-- Alike scopes give the bindings of a place the same text, if they give it one. -/
theorem alike_rewriteFrom (h : s.Alike s') (repeats : List Text) (os : List Occurrence)
    (position : Nat) (t : Text) :
    EndAlike Stop.Alike (fun r r' => r.1 = r'.1 ∧ r.2.Alike r'.2) (rewriteFrom repeats position t os s)
      (rewriteFrom repeats position t os s') := by
  induction os generalizing s s' position t with
  | nil => exact .ok ⟨rfl, h⟩
  | cons o os ih =>
    refine (alike_process h repeats o).bind ?_
    rintro ⟨standIn, between⟩ ⟨_, between'⟩ ⟨rfl, hbetween⟩
    refine (ih hbetween o.stop (t.drop (o.stop - position))).bind ?_
    rintro ⟨rest, after⟩ ⟨_, after'⟩ ⟨rfl, hafter⟩
    exact .ok ⟨rfl, hafter⟩

/-- A visit ends the same for alike scopes. -/
theorem visit_alike (site : Site) (s s' : Scope) (h : s.Alike s') :
    EndAlike Stop.Alike (fun r r' => r.1 = r'.1 ∧ r.2.Alike r'.2) (visit site s) (visit site s') := by
  unfold visit
  split
  · cases Occurrence.find site.raw site.text with
    | error digits => exact .error rfl
    | ok found =>
      exact (alike_rewriteFrom h site.repeats (selectFrom 0 found) 0 site.text).map
        fun _ _ ⟨hsame, hafter⟩ => ⟨congrArg some hsame, hafter⟩
  · exact .ok ⟨rfl, h⟩

end Rewrite

/-- Learning ends the same for alike scopes. -/
theorem ComponentState.visit_alike (site : Site) (s s' : Scope) (h : s.Alike s') :
    EndAlike Stop.Alike (fun r r' => r.1 = r'.1 ∧ r.2.Alike r'.2) (visit site s) (visit site s') := by
  unfold visit
  split
  · cases Occurrence.find site.raw site.text with
    | error digits => exact .error rfl
    | ok found =>
      have hidentifiers : identifiersOf found site.repeats s' = identifiersOf found site.repeats s := by
        obtain ⟨_, _, rfl⟩ := h
        rfl
      dsimp only
      rw [hidentifiers]
      exact .ok ⟨rfl, h.bindAll _⟩
  · exact .ok ⟨rfl, h⟩

/-! ## Whole transforms -/

namespace Transform

/-- Notes on scripts that were read in vain keep scopes alike. -/
theorem alike_noteMissed (h : s.Alike s') (register : Text) (missed : Nat) :
    (noteMissed register missed s).Alike (noteMissed register missed s') := by
  induction missed generalizing s s' with
  | zero => exact h
  | succ missed ih => exact ih (h.note _ _ _ _)

/-- The same is learned from a module under every path. -/
theorem alike_learned (options : Options) (p q id : Text) (document : Markup.Document) :
    EndAlike Stop.Alike Alike (learned options p id document) (learned options q id document) := by
  have hstart : (Scope.ofOptions id options p).Alike (Scope.ofOptions id options q) :=
    ⟨q, [], rfl⟩
  exact (document.attempt_alike ComponentState.visit_alike
    ((alike_noteMissed hstart options.register _).bindAll _)).map fun _ _ h => h.2

/-- Inspecting a declaration keeps scopes alike. -/
theorem alike_inspect (h : s.Alike s') (d : Declaration) :
    (Injection.inspect d s).Alike (Injection.inspect d s') := by
  have hreport : Injection.syntaxMessage s' = Injection.syntaxMessage s := by
    unfold Injection.syntaxMessage
    rw [h.moduleId]
  have hfirst : Alike
      (if d.hasErrors then s.report .scriptSyntax (Injection.syntaxMessage s) [] else s)
      (if d.hasErrors then s'.report .scriptSyntax (Injection.syntaxMessage s') [] else s') := by
    rw [hreport]
    split
    · exact h.report _ _ _
    · exact h
  unfold Injection.inspect
  dsimp only
  generalize (if d.hasErrors then s.report .scriptSyntax (Injection.syntaxMessage s) [] else s) = t
    at hfirst ⊢
  generalize (if d.hasErrors then s'.report .scriptSyntax (Injection.syntaxMessage s') [] else s')
    = t' at hfirst ⊢
  have hmismatch : Injection.mismatchMessage t' d.componentId
      = Injection.mismatchMessage t d.componentId := by
    unfold Injection.mismatchMessage
    rw [hfirst.moduleId]
  rw [hmismatch, hfirst.moduleId]
  split
  · exact hfirst
  · exact hfirst.report _ _ _

/-- Injecting into the declaration answers the same for alike scopes. -/
theorem alike_inject (h : s.Alike s') (d : Declaration) (document : Markup.Document) :
    (d.inject document s).1 = (d.inject document s').1 ∧
      (d.inject document s).2.Alike (d.inject document s').2 := by
  have hinspect := alike_inspect h d
  have hintoNode : Injection.intoNode d.insertAt (Injection.inspect d s')
      = Injection.intoNode d.insertAt (Injection.inspect d s) :=
    intoNode_congr hinspect.functions d.insertAt
  unfold Declaration.inject
  dsimp only
  rw [hinspect.functions, hintoNode]
  split
  · exact ⟨rfl, hinspect⟩
  · exact ⟨rfl, hinspect.note _ _ _ _⟩

/-- Alike scopes make the same result. -/
theorem ofModule_alike (h : s.Alike s') (document : Markup.Document) :
    Result.ofModule document s = Result.ofModule document s' := by
  obtain ⟨_, _, rfl⟩ := h
  rfl

/-- Placing the functions answers the same for alike scopes. -/
theorem place_alike (h : s.Alike s') (options : Options) (declaration : Option Declaration)
    (document : Markup.Document) :
    (place options declaration document s).1 = (place options declaration document s').1 := by
  unfold place
  dsimp only
  rw [h.functions]
  split
  · exact congrArg Except.ok (ofModule_alike h document)
  · cases declaration with
    | some d =>
      obtain ⟨hdocument, hafter⟩ := alike_inject h d document
      dsimp only
      rw [hdocument, ofModule_alike hafter]
    | none =>
      dsimp only
      split
      · rw [h.moduleId]
      · have hmessage : notInjectedMessage s' options.register
            = notInjectedMessage s options.register := by
          unfold notInjectedMessage
          rw [h.moduleId, h.functions]
        rw [hmessage]
        exact congrArg Except.ok (ofModule_alike (h.report _ _ _) document)

/-- A module has the same result under every path. -/
theorem transformModule_alike (options : Options) (p q id : Text) (document : Markup.Document) :
    (transformModule options p id document).1 = (transformModule options q id document).1 := by
  have hrewritten := (alike_learned options p q id document).bind fun _ _ h =>
    document.attempt_alike Rewrite.visit_alike h
  rw [transformModule_eq, transformModule_eq]
  change EndAlike _ _ ((learned options p id document).bind (Rewrite.document document))
    ((learned options q id document).bind (Rewrite.document document)) at hrewritten
  generalize (learned options p id document).bind (Rewrite.document document) = x at hrewritten ⊢
  generalize (learned options q id document).bind (Rewrite.document document) = x' at hrewritten ⊢
  cases hrewritten with
  | error hstop => exact congrArg (fun obstacle => Except.error (Fault.stopped obstacle)) hstop
  | ok halike =>
    obtain ⟨hdocument, hscope⟩ := halike
    dsimp only
    rw [hdocument]
    exact place_alike hscope options _ _

/-- **A document has the same result under every path.** -/
theorem transform_eq_of_path (options : Options) (p q t : Text) :
    (transform options p t).1 = (transform options q t).1 := by
  unfold transform
  split
  · rfl
  · split
    · rfl
    · exact transformModule_alike options p q _ _

end Transform
end DataBinding
