/-
# When a transform fails

A transform of markup fails in two ways: something stops the walks over its bindings, or, in strict
mode, a module has bindings that are computed and no declaration to hold their functions.  Nothing else
on the way can go wrong: what is no expression is kept, every passed path has a name, and neither the
renamed texts nor the script with the functions cut a character apart.

* `obstacle?_eq_none_iff` : the modules whose bindings can all be found and judged.
* `place_cases`           : strict and lax placing, side by side.
* `Unfailing`             : every other step of a transform succeeds.
* `transform_fails_iff`   : when a transform fails, and what a transform that is not strict yields then.
-/
import DataBinding.Proofs.Binding.Decoding
import DataBinding.Proofs.Synthesis.Replacement
import DataBinding.Proofs.Template.Learning
import DataBinding.Proofs.Transform.Frame

namespace DataBinding

/-! ## Kinds of diagnostics -/

namespace Rewrite

variable {repeats : List Text} {scope : Scope} {n position : Nat} {o : Occurrence} {t whole answer : Text}
  {os : List Occurrence} {ds : List Diagnostic} {fs : List FunctionDefinition}

/-- No binding is reported as a missing declaration. -/
theorem Outcome.kind_ne (h : Outcome repeats scope n o t ds fs) :
    ∀ d ∈ ds, d.kind ≠ .missingDeclaration := by
  intro d hd
  cases h with
  | native | literal => cases hd
  | invalid | inadmissible =>
    rw [List.mem_singleton.mp hd]
    intro hkind
    cases hkind
  | computed =>
    obtain ⟨root, -, rfl⟩ := List.mem_map.mp hd
    intro hkind
    cases hkind

theorem Accounted.kind_ne (h : Accounted repeats scope whole position n os answer ds fs) :
    ∀ d ∈ ds, d.kind ≠ .missingDeclaration := by
  induction h with
  | rest =>
    intro d hd
    cases hd
  | next _ _ _ outcome _ ih =>
    intro d hd
    exact (List.mem_append.mp hd).elim (outcome.kind_ne d) (ih d)

/-- A visit reports no missing declaration. -/
theorem visit_kind_ne {site : Site} {reply : Option Text} {after : Scope}
    (hvisit : visit site scope = .ok (reply, after))
    (h : ∀ d ∈ scope.diagnostics, d.kind ≠ .missingDeclaration) :
    ∀ d ∈ after.diagnostics, d.kind ≠ .missingDeclaration := by
  cases reply with
  | none =>
    rw [visit_idle hvisit]
    exact h
  | some answer =>
    obtain ⟨-, ds, fs, haccounted, hgains⟩ := visit_account hvisit
    rw [hgains.diagnostics]
    intro d hd
    exact (List.mem_append.mp hd).elim (h d) (haccounted.kind_ne d)

/-- Rewriting a document reports no missing declaration. -/
theorem document_kind_ne {document document' : Markup.Document} {last : Scope}
    (hrewrite : Rewrite.document document scope = .ok (document', last))
    (h : ∀ d ∈ scope.diagnostics, d.kind ≠ .missingDeclaration) :
    ∀ d ∈ last.diagnostics, d.kind ≠ .missingDeclaration :=
  Markup.Document.attempt_keeps visit_keepsMarkers
    (P := fun reached => ∀ d ∈ reached.diagnostics, d.kind ≠ .missingDeclaration)
    (fun _ _ _ _ hvisit h => visit_kind_ne hvisit h) hrewrite h

/-- What is no expression is kept as it is written, and no function is generated for it. -/
theorem process_of_fault {fault : Expression.Fault} (h : o.read = .error fault) {repeats : List Text}
    {scope after : Scope} {standIn : Text} (hprocess : process repeats o scope = .ok (standIn, after)) :
    standIn = o.written ∧ after.functions = scope.functions := by
  unfold process judge at hprocess
  rw [h] at hprocess
  dsimp only at hprocess
  cases hliteral : o.isLiteral scope.room with
  | error bracket =>
    rw [hliteral] at hprocess
    cases hprocess
  | ok literal =>
    rw [hliteral] at hprocess
    cases literal <;> cases hprocess <;> exact ⟨rfl, rfl⟩

/-- Nothing stops the rewriting of a place exactly if its bindings are found and can be judged. -/
theorem obstacle?_eq_none_iff {room : Nat} {site : Site} :
    obstacle? room site = none ↔ (Occurrence.mayHold site.text = true →
      ∃ os, Occurrence.find site.raw site.text = .ok os ∧
        ∀ o ∈ selectFrom 0 os, ∃ verdict, judge room o = .ok verdict) := by
  unfold obstacle?
  split
  · rename_i hmay
    rw [selected, if_pos hmay]
    cases hoverlong : Occurrence.overlong? site.raw site.text with
    | some digits =>
      refine iff_of_false (Option.some_ne_none _) fun h => ?_
      obtain ⟨os, hos, -⟩ := h hmay
      cases hoverlong.symm.trans (Occurrence.find_eq_ok_iff.mp hos).1
    | none =>
      simp only [Occurrence.find_eq_ok_iff, hoverlong, true_and, exists_eq_left',
        List.findSome?_eq_none_iff, unjudged?_eq_none_iff]
      exact ⟨fun h _ => h, fun h => h hmay⟩
  · rename_i hmay
    exact iff_of_true rfl fun h => absurd h hmay

end Rewrite

namespace Transform

/-- **Nothing stops the transform of a module** exactly if, at each place that may hold bindings, they
are found and the selected ones can be judged. -/
theorem obstacle?_eq_none_iff {options : Options} {document : Markup.Document} :
    obstacle? options document = none ↔ ∀ site ∈ document.sites, Occurrence.mayHold site.text = true →
      ∃ os, Occurrence.find site.raw site.text = .ok os ∧
        ∀ o ∈ Rewrite.selectFrom 0 os, ∃ verdict, Rewrite.judge options.room o = .ok verdict := by
  rw [obstacle?, Option.or_eq_none_iff, List.findSome?_eq_none_iff, List.findSome?_eq_none_iff]
  simp only [Rewrite.obstacle?_eq_none_iff]
  refine and_iff_right_of_imp fun h site hsite => ?_
  -- what stops learning from a place stops its rewriting, too
  rw [ComponentState.obstacle?_eq_none_iff]
  intro hopening
  obtain ⟨os, hos, -⟩ := h site hsite (Occurrence.mayHold_iff.mpr (.inr hopening))
  exact ⟨os, hos⟩

/-- Nothing is reported before the rewriting. -/
theorem diagnostics_learned {options : Options} {filePath moduleId : Text}
    {document : Markup.Document} {known : Scope}
    (h : learned options filePath moduleId document = .ok known) : known.diagnostics = [] := by
  have hnoted : ∀ (missed : Nat) (scope : Scope), scope.diagnostics = [] →
      (noteMissed options.register missed scope).diagnostics = [] := by
    intro missed
    induction missed with
    | zero => exact fun _ h => h
    | succ missed ih => exact fun scope h => ih _ h
  rw [(ComponentState.learns_collect h).frame]
  exact hnoted _ _ rfl

/-! ## Placing functions -/

/-- The options with another mode. -/
def inMode (options : Options) (strict : Bool) : Options :=
  { options with strict }

/-- **Strict and lax placing.**  Both give the same result, or there are functions and no
declaration, which is a fault in strict mode and one more report else. -/
theorem place_cases (options : Options) (declaration : Option Declaration)
    (document : Markup.Document) (scope : Scope) :
    (¬ (declaration = none ∧ scope.functions ≠ []) ∧ ∃ result,
        ∀ strict, (place (inMode options strict) declaration document scope).1 = .ok result) ∨
      declaration = none ∧ scope.functions ≠ [] ∧
        (place (inMode options true) declaration document scope).1
          = .error (.missingDeclaration scope.moduleId scope.functions.length options.register) ∧
        (place (inMode options false) declaration document scope).1
          = .ok (.ofModule document (scope.report .missingDeclaration
              (notInjectedMessage scope options.register) [])) := by
  by_cases hnil : scope.functions = []
  · refine .inl ⟨fun h => h.2 hnil, .ofModule document scope, fun strict => ?_⟩
    unfold place
    rw [hnil]
    rfl
  · have hempty : scope.functions.isEmpty = false := by simpa using hnil
    cases declaration with
    | none =>
      refine .inr ⟨rfl, hnil, ?_, ?_⟩ <;> unfold place <;> rw [hempty] <;> rfl
    | some d =>
      refine .inl ⟨(fun h => by cases h.1), .ofModule (d.inject document scope).1
        (d.inject document scope).2, fun strict => ?_⟩
      unfold place
      rw [hempty]
      rfl

/-! ## Steps that succeed -/

/-- The renamings that make the body of a computation's function. -/
def renamings (c : Computation) (scope : Scope) : List Renaming :=
  (c.expression.references.filter (Synthesis.isKept scope c.repeats)).map fun r =>
    ⟨r.span, ParameterNames.nameOf (c.parameters scope) r.path⟩

/-- The steps of a transform of a module succeed, as far as they are taken: a binding that is no
expression is kept; each passed path has a name, and renaming the text of a computation gives the body
of its function, one for each computation; and the functions are put in between two characters of the
declaration's script. -/
structure Unfailing (options : Options) (filePath id : Text) (document : Markup.Document) :
    Prop where
  unreadable : ∀ site ∈ document.sites, ∀ o ∈ Rewrite.selected site, ∀ fault,
    o.read = .error fault → ∀ scope standIn after,
      Rewrite.process site.repeats o scope = .ok (standIn, after) →
        standIn = o.written ∧ after.functions = scope.functions
  named : ∀ known, learned options filePath id document = .ok known →
    ∀ c ∈ Rewrite.computationsOf document, ∀ r ∈ c.expression.references,
      Synthesis.isKept known c.repeats r = true → r.path ∈ (c.parameters known).map (·.1)
  renamed : ∀ known, learned options filePath id document = .ok known →
    ∀ c ∈ Rewrite.computationsOf document, ∀ name,
      Renaming.applyAll c.text (renamings c known) = .ok (c.definition known name).body
  generated : ∀ known document' last,
    Rewritten options filePath id document known document' last →
      last.functions.length = (Rewrite.computationsOf document).length
  injected : ∀ known document' last,
    Rewritten options filePath id document known document' last →
      ∀ d ∈ (Declaration.locate document options.register).1, ∃ t,
        document'.get? d.address = some (.text t) ∧
        ∀ functions, Text.decode ((Text.encode t).take d.insertAt ++ Text.encode functions
          ++ (Text.encode t).drop d.insertAt) = .ok (t.insertAt d.insertAt functions)

/-- Bytes put in between two characters are read back. -/
theorem decode_insertAt {t before after : Text} (ht : t = before ++ after) {place : Nat}
    (hplace : Text.byteLength before = place) (inserted : Text) :
    Text.decode ((Text.encode t).take place ++ Text.encode inserted ++ (Text.encode t).drop place)
      = .ok (t.insertAt place inserted) := by
  subst ht hplace
  rw [Text.insertAt_append, Text.encode_append, ← Text.length_encode, List.take_left,
    List.drop_left, List.append_assoc, ← Text.encode_append, ← Text.encode_append,
    Text.decode_encode]

/-- **The steps of a transform succeed.** -/
theorem unfailing {html : Text} {document : Markup.Document}
    (hparse : Markup.Document.parse html = .ok document) (options : Options) (filePath id : Text) :
    Unfailing options filePath id document where
  unreadable _ _ _ _ _ hfault _ _ _ hprocess := Rewrite.process_of_fault hfault hprocess
  named known _ c _ r hr hkept := by
    rw [Computation.parameters, Synthesis.parameters, ParameterNames.keys_assign, List.mem_eraseDups]
    exact List.mem_map_of_mem (List.mem_filter.mpr ⟨hr, hkept⟩)
  renamed known _ c hc name :=
    Renaming.applyAll_spliced (Synthesis.replaced_renamedBody
      (Rewrite.accepted_of_mem_computationsOf hc) _ c.repeats).spliced
  generated known document' last h := by
    rw [h.extends.functions, (fresh_learned h.learned).functions, List.nil_append,
      List.length_mapIdx]
  injected known document' last h d hd := by
    obtain ⟨-, t, -, hafter, hof⟩ := script_of_framed (h.framed hparse) hd
    obtain ⟨object, before, after, -, ht, hlength, hplace, -⟩ := Declaration.split_of_ofScript? hof
    refine ⟨t, hafter, fun functions => ?_⟩
    have hinside : t = (before ++ ['\x7b']) ++ after := by simpa using ht
    refine decode_insertAt hinside ?_ functions
    rw [Text.byteLength_append, hlength, hplace]
    rfl

/-! ## Whole transforms -/

/-- A module has bindings that are computed and no declaration to hold their functions. -/
structure Lacks (options : Options) (document : Markup.Document) (id : Text) : Prop where
  module : moduleId? document = some id
  computed : Rewrite.computationsOf document ≠ []
  undeclared : (Declaration.locate document options.register).1 = none

/-- The faults of a transform: something stops the transform of a module, or nothing does and, in
strict mode, the module lacks a declaration. -/
inductive Fails (options : Options) (document : Markup.Document) : Fault → Prop
  | stopped {id : Text} {obstacle : Obstacle} (module : moduleId? document = some id)
      (reached : obstacle? options document = some obstacle) :
      Fails options document (.stopped obstacle)
  | undeclared {id : Text} (strict : options.strict = true)
      (free : obstacle? options document = none) (lacks : Lacks options document id) :
      Fails options document
        (.missingDeclaration id (Rewrite.computationsOf document).length options.register)

/-- What a text that is transformed with and without strict mode gives: a fault where something stops
both; a result that both agree on; or a fault in strict mode and a result without it. -/
inductive Modes (options : Options) (filePath html : Text) (document : Markup.Document) : Prop
  | stopped {id : Text} {obstacle : Obstacle} (module : moduleId? document = some id)
      (reached : obstacle? options document = some obstacle)
      (both : ∀ strict, (transform (inMode options strict) filePath html).1
        = .error (.stopped obstacle))
  | agreed (result : Result)
      (free : ∀ id, moduleId? document = some id → obstacle? options document = none)
      (declared : ∀ id, ¬ Lacks options document id)
      (both : ∀ strict, (transform (inMode options strict) filePath html).1 = .ok result)
  | undeclared {id : Text} {known last : Scope} {document' : Markup.Document}
      (free : obstacle? options document = none) (lacks : Lacks options document id)
      (rewritten : Rewritten options filePath id document known document' last)
      (strict : (transform (inMode options true) filePath html).1 = .error
        (.missingDeclaration id (Rewrite.computationsOf document).length options.register))
      (lax : (transform (inMode options false) filePath html).1
        = .ok (.ofModule document' (last.report .missingDeclaration
            (notInjectedMessage last options.register) [])))

/-- **Strict and lax transforms**, side by side. -/
theorem transform_modes {html : Text} {document : Markup.Document}
    (hparse : Markup.Document.parse html = .ok document) (options : Options) (filePath : Text) :
    Modes options filePath html document := by
  cases hid : moduleId? document with
  | none =>
    refine .agreed (.unchanged html) (fun id hsome => ?_) (fun id hlacks => ?_)
      fun strict => ?_
    · cases hid.symm.trans hsome
    · cases hid.symm.trans hlacks.module
    · unfold transform
      rw [hparse]
      simp only [hid]
  | some id =>
    have htransform : ∀ strict, transform (inMode options strict) filePath html
        = transformModule (inMode options strict) filePath id document := by
      intro strict
      unfold transform
      rw [hparse]
      simp only [hid]
    cases hobstacle : obstacle? options document with
    | some obstacle =>
      refine .stopped hid hobstacle fun strict => ?_
      rw [htransform]
      have hstops : obstacle? (inMode options strict) document = some obstacle := hobstacle
      exact transformModule_stops hstops filePath id
    | none =>
      obtain ⟨known, document', last, h⟩ := (exists_rewritten_iff filePath id).mpr hobstacle
      -- the mode is looked at in the last phase only
      have hplace : ∀ strict, transform (inMode options strict) filePath html = place
          (inMode options strict) (Declaration.locate document options.register).1 document' last := by
        intro strict
        have hmode : Rewritten (inMode options strict) filePath id document known document' last :=
          ⟨h.learned, h.rewritten⟩
        rw [htransform]
        exact transformModule_of_rewritten hmode
      obtain ⟨hnot, result, hresult⟩ | ⟨hnone, hsome, hstrict, hlax⟩ :=
        place_cases options (Declaration.locate document options.register).1 document' last
      · refine .agreed result (fun _ _ => hobstacle) (fun id' hlacks => ?_)
          fun strict => ?_
        · exact hnot ⟨hlacks.undeclared, fun hnil => hlacks.computed (h.functions_eq_nil_iff.mp hnil)⟩
        · rw [hplace, hresult]
      · refine .undeclared hobstacle
          ⟨hid, fun hnil => hsome (h.functions_eq_nil_iff.mpr hnil), hnone⟩ h ?_ ?_
        · rw [hplace, hstrict, h.moduleId_eq,
            (unfailing hparse options filePath id).generated known document' last h]
        · rw [hplace, hlax]

section Modes

variable {html : Text} {document : Markup.Document}

/-- **The faults of a transform of markup.** -/
theorem transform_error_iff (hparse : Markup.Document.parse html = .ok document) (options : Options)
    (filePath : Text) (fault : Fault) :
    (transform options filePath html).1 = .error fault ↔ Fails options document fault := by
  show (transform (inMode options options.strict) filePath html).1 = .error fault ↔ _
  cases transform_modes hparse options filePath with
  | stopped hmodule hreached hboth =>
    rw [hboth]
    constructor
    · intro h
      obtain rfl := Except.error.inj h
      exact .stopped hmodule hreached
    · rintro (⟨-, hreached'⟩ | ⟨-, hfree, -⟩)
      · rw [Option.some.inj (hreached.symm.trans hreached')]
      · cases hreached.symm.trans hfree
  | agreed result hfree hdeclared hboth =>
    rw [hboth]
    constructor
    · intro h
      cases h
    · rintro (⟨hmodule, hreached⟩ | ⟨-, -, hlacks⟩)
      · cases hreached.symm.trans (hfree _ hmodule)
      · exact absurd hlacks (hdeclared _)
  | undeclared hfree hlacks _ hstrict hlax =>
    cases hmode : options.strict with
    | true =>
      rw [hstrict]
      constructor
      · intro h
        obtain rfl := Except.error.inj h
        exact .undeclared hmode hfree hlacks
      · rintro (⟨-, hreached⟩ | ⟨-, -, hlacks'⟩)
        · cases hreached.symm.trans hfree
        · rw [Option.some.inj (hlacks.module.symm.trans hlacks'.module)]
    | false =>
      rw [hlax]
      constructor
      · intro h
        cases h
      · rintro (⟨-, hreached⟩ | ⟨hstrict', -, -⟩)
        · cases hreached.symm.trans hfree
        · cases hmode.symm.trans hstrict'

/-- What the strict transform returns, the other one returns too. -/
theorem transform_of_strict (hparse : Markup.Document.parse html = .ok document) {options : Options}
    {filePath : Text} {result : Result}
    (h : (transform (inMode options true) filePath html).1 = .ok result) :
    (transform (inMode options false) filePath html).1 = .ok result := by
  cases transform_modes hparse options filePath with
  | stopped _ _ hboth =>
    rw [hboth] at h
    cases h
  | agreed _ _ _ hboth =>
    rw [hboth] at h ⊢
    exact h
  | undeclared _ _ _ hstrict _ =>
    rw [hstrict] at h
    cases h

/-- A result with some functions that ends with the report of a missing declaration, the only one.
-/
def ReportsMissing (result : Result) (count : Nat) : Prop :=
  result.functions.length = count ∧ ∃ before message,
    result.diagnostics = before ++ [⟨.missingDeclaration, message, []⟩] ∧
    ∀ d ∈ before, d.kind ≠ .missingDeclaration

/-- Where the strict transform fails, the other one stops too or reports a missing declaration. -/
theorem transform_of_strict_error (hparse : Markup.Document.parse html = .ok document)
    {options : Options} {filePath : Text} {fault : Fault}
    (h : (transform (inMode options true) filePath html).1 = .error fault) :
    (∃ obstacle, fault = .stopped obstacle ∧
        (transform (inMode options false) filePath html).1 = .error fault) ∨
      ∃ id count result, fault = .missingDeclaration id count options.register ∧
        (transform (inMode options false) filePath html).1 = .ok result ∧
        ReportsMissing result count := by
  cases transform_modes hparse options filePath with
  | stopped _ _ hboth =>
    rw [hboth] at h ⊢
    exact .inl ⟨_, (Except.error.inj h).symm, h⟩
  | agreed _ _ _ hboth =>
    rw [hboth] at h
    cases h
  | @undeclared id known last document' _ _ hrewritten hstrict hlax =>
    rw [hstrict] at h
    refine .inr ⟨id, _, _, (Except.error.inj h).symm, hlax,
      (unfailing hparse options filePath id).generated known document' last hrewritten,
      last.diagnostics, _, rfl, ?_⟩
    refine Rewrite.document_kind_ne hrewritten.rewritten fun d hd => ?_
    rw [diagnostics_learned hrewritten.learned] at hd
    cases hd

/-- **When a transform fails.**  A transform of markup fails if something stops it, which nothing does
where the bindings of the module are found and can be judged; apart from that it fails only in strict
mode, if its module lacks a declaration, and the fault then names the module and the number of
functions.  If its scripts are legible, a module has no declaration exactly if no script that mentions a
call holds one.  Every other step on the way succeeds.  Where the strict transform returns, the other
one returns the same; where it fails, the other one is stopped in the same way, or returns that many
functions and reports the missing declaration at the end. -/
theorem transform_fails_iff (hparse : Markup.Document.parse html = .ok document) (options : Options)
    (filePath : Text) :
    (∀ fault, (transform options filePath html).1 = .error fault ↔ Fails options document fault) ∧
    (obstacle? options document = none ↔
      ∀ site ∈ document.sites, Occurrence.mayHold site.text = true →
        ∃ os, Occurrence.find site.raw site.text = .ok os ∧
          ∀ o ∈ Rewrite.selectFrom 0 os, ∃ verdict, Rewrite.judge options.room o = .ok verdict) ∧
    (Declaration.Legible document options.register →
      ((Declaration.locate document options.register).1 = none ↔
        ∀ script ∈ Declaration.scripts document, script.2.mentionsCall options.register = true →
          (Script.parse script.2).fault = none ∧
            Declaration.object? options.register script.2 = none)) ∧
    (∀ id, moduleId? document = some id → Unfailing options filePath id document) ∧
    (∀ result, (transform (inMode options true) filePath html).1 = .ok result →
      (transform (inMode options false) filePath html).1 = .ok result) ∧
    ∀ fault, (transform (inMode options true) filePath html).1 = .error fault →
      (∃ obstacle, fault = .stopped obstacle ∧
        (transform (inMode options false) filePath html).1 = .error fault) ∨
      ∃ id count result, fault = .missingDeclaration id count options.register ∧
        (transform (inMode options false) filePath html).1 = .ok result ∧
        ReportsMissing result count :=
  ⟨transform_error_iff hparse options filePath, obstacle?_eq_none_iff,
    Declaration.locate_eq_none_iff, fun id _ => unfailing hparse options filePath id,
    fun _ h => transform_of_strict hparse h, fun _ h => transform_of_strict_error hparse h⟩

end Modes

/-- A module with a binding that is computed and without a declaration. -/
def orphanPage : Text :=
  "<dom-module id=x-b><template>[[b + 1]]</template></dom-module>".toList

/-- It fails in strict mode only. -/
theorem transform_fails_orphanPage :
    ∃ document, Markup.Document.parse orphanPage = .ok document ∧
      Lacks {} document "x-b".toList ∧
      (transform (inMode {} true) [] orphanPage).1
        = .error (.missingDeclaration "x-b".toList 1 "Polymer".toList) ∧
      ∃ result, (transform (inMode {} false) [] orphanPage).1 = .ok result ∧
        ReportsMissing result 1 := by
  have hall : (Markup.Document.parse orphanPage).toOption.map (fun document =>
      (moduleId? document, (Rewrite.computationsOf document).length,
        (Declaration.locate document "Polymer".toList).1.isNone, obstacle? {} document))
        = some (some "x-b".toList, 1, true, none) := by
    decide +kernel
  obtain ⟨document, hdocument, hfacts⟩ := Option.map_eq_some_iff.mp hall
  simp only [Prod.mk.injEq] at hfacts
  obtain ⟨hid, hcount, hnone, hfree⟩ := hfacts
  have hparse := eq_ok_of_toOption hdocument
  have hlacks : Lacks {} document "x-b".toList :=
    ⟨hid, List.ne_nil_of_length_eq_add_one hcount, Option.isNone_iff_eq_none.mp hnone⟩
  obtain ⟨hfault, -, -, -, -, hlax⟩ := transform_fails_iff hparse {} []
  have hstrict : (transform (inMode {} true) [] orphanPage).1
      = .error (.missingDeclaration "x-b".toList 1 "Polymer".toList) :=
    (hfault _).mpr (hcount ▸ .undeclared rfl hfree hlacks)
  obtain ⟨obstacle, heq, -⟩ | ⟨id, count, result, heq, hresult, hreports⟩ := hlax _ hstrict
  · cases heq
  · obtain ⟨-, rfl, -⟩ := Fault.missingDeclaration.inj heq
    exact ⟨document, hparse, hlacks, hstrict, result, hresult, hreports⟩

/-- A module with a binding of a reference that has a digit too much. -/
def longPage : Text :=
  "<dom-module id=x-a><template>".toList ++
    (Occurrence.longBinding .oneWay ++ "</template></dom-module>".toList)

/-- It is markup, and yet it is not transformed in any mode. -/
theorem transform_stops_longPage :
    (∃ document, Markup.Document.parse longPage = .ok document) ∧
      ∃ obstacle, ∀ strict, (transform (inMode {} strict) [] longPage).1
        = .error (.stopped obstacle) := by
  have hall : (Markup.Document.parse longPage).toOption.map (fun document =>
      (moduleId? document, document.sites.map fun site =>
        (site.raw, site.text == Occurrence.longBinding .oneWay)))
        = some (some "x-a".toList, [(true, true)]) := by
    decide +kernel
  obtain ⟨document, hdocument, hfacts⟩ := Option.map_eq_some_iff.mp hall
  obtain ⟨hid, hsites⟩ := Prod.mk.inj hfacts
  have hparse := eq_ok_of_toOption hdocument
  -- the binding at the only place is not found
  obtain ⟨site, hsite, hshape⟩ : ∃ site ∈ document.sites,
      (site.raw, site.text == Occurrence.longBinding .oneWay) = (true, true) :=
    List.mem_map.mp (hsites ▸ List.mem_cons_self)
  obtain ⟨hraw, htext⟩ := Prod.mk.inj hshape
  have htext := eq_of_beq htext
  obtain ⟨obstacle, hobstacle⟩ : ∃ obstacle, obstacle? {} document = some obstacle := by
    refine Option.ne_none_iff_exists'.mp fun hnone => ?_
    have hmay : Occurrence.mayHold site.text = true := by
      rw [htext, Occurrence.mayHold_iff]
      exact .inl (List.prefix_append ..).isInfix
    obtain ⟨os, hos, -⟩ := obstacle?_eq_none_iff.mp hnone site hsite hmay
    obtain ⟨digits, hdigits⟩ := Occurrence.exists_overlong?_longBinding .oneWay
    rw [hraw, htext, Occurrence.find_eq_ok_iff, hdigits] at hos
    cases hos.1
  refine ⟨⟨document, hparse⟩, obstacle, fun strict => ?_⟩
  exact (transform_error_iff hparse _ [] _).mpr (.stopped hid hobstacle)

end Transform
end DataBinding
