/-
# A place after its visit

A visit replaces each computation of a place by a call.  Where no computation holds two equal braces
next to each other, replacing one of them moves the other bindings of the place and does nothing else
to them, and the calls are evaluated natively, so that the visit leaves nothing to do.  A computation
that holds such braces may take the opening or the closing of a two-way binding away.

* `selectFrom_swap`          : the selected bindings after one replacement.
* `Reached`                  : how far the bindings of a text are replaced.
* `settled_of_accounted`     : the selected bindings after all replacements.
* `visit_again`              : when a second visit leaves a place as it is.
* `visit_bracesSite`         : a place that a second visit changes again.
-/
import DataBinding.Proofs.Markup.Escaping
import DataBinding.Proofs.Synthesis.Calls
import DataBinding.Proofs.Template.Obstacles

namespace DataBinding

/-! ## Calls as bindings -/

/-- A text that neither starts nor ends with a blank is trimmed already. -/
theorem Text.trim_eq_self {t : Text} (hhead : ∀ c ∈ t.head?, Text.isBlank c = false)
    (hlast : ∀ c ∈ t.getLast?, Text.isBlank c = false) : t.trim = t := by
  have hleft : ∀ s : Text, (∀ c ∈ s.head?, Text.isBlank c = false) → s.trimLeft = s := by
    intro s hs
    cases s with
    | nil => rfl
    | cons c s => rw [Text.trimLeft, List.dropWhile_cons_of_neg (by simp [hs c rfl])]
  rw [Text.trim, hleft t hhead, hleft t.reverse (by rwa [List.head?_reverse]), List.reverse_reverse]

namespace Rewrite

open Synthesis Occurrence

variable {repeats : List Text} {scope : Scope} {raw : Bool} {n place : Nat}

/-- The arguments of a call are paths of the computation. -/
theorem exists_reference_of_mem_parameters {c : Computation} {path : Text}
    (h : path ∈ (c.parameters scope).map (·.1)) : ∃ r ∈ c.expression.references, r.path = path := by
  unfold Computation.parameters Synthesis.parameters at h
  rw [ParameterNames.keys_assign, List.mem_eraseDups, List.mem_map] at h
  obtain ⟨r, hr, rfl⟩ := h
  exact ⟨r, List.mem_of_mem_filter hr, rfl⟩

section Calls

variable {c : Computation} (hc : c.Accepted) (hident : scope.functionPrefix.isIdentifier = true)
include hc hident

/-- **A call stands in its brackets** without a bracket, a line end or two equal braces, and it is
read as it is written. -/
theorem call_fits (n : Nat) :
    Fits (c.call scope (scope.functionName n)) ∧ Inert (bracketed (c.call scope (scope.functionName n))) ∧
      '&' ∉ c.call scope (scope.functionName n) ∧
      (c.call scope (scope.functionName n)).trim = c.call scope (scope.functionName n) := by
  obtain ⟨hword, -⟩ := word_functionName hident n
  have hpaths : ∀ path ∈ (c.parameters scope).map (·.1), Dotted path := by
    intro path hpath
    obtain ⟨r, hr, rfl⟩ := exists_reference_of_mem_parameters hpath
    exact dotted_of_parse hc hr
  have hline : '\n' ∉ c.call scope (scope.functionName n) :=
    notMem_callText (by decide) (by decide) (by decide) (by decide) hword hpaths
  refine ⟨⟨?_, ?_, hline⟩, ⟨?_, ?_, ?_⟩, ?_, Text.trim_eq_self ?_ ?_⟩
  · simp [Computation.call, callText]
  · exact notMem_callText (by decide) (by decide) (by decide) (by decide) hword hpaths
  · -- the brackets part the call from the braces of the text
    have hsteady := steady_callText hword hpaths
    have hbrackets : Steady (bracketed (c.call scope (scope.functionName n))) :=
      ((Steady.cons (by decide) (Steady.cons (by decide) .nil).apart).append hsteady).append
        (.cons (by decide) (Steady.cons (by decide) .nil).apart)
    exact hbrackets.apart
  · intro e he
    have hlast : (bracketed (c.call scope (scope.functionName n))).getLast? = some ']' := by
      rw [bracketed, List.getLast?_append]
      rfl
    obtain rfl := Option.some.inj (hlast.symm.trans he)
    decide
  · simpa [bracketed_eq] using hline
  · exact notMem_callText (by decide) (by decide) (by decide) (by decide) hword hpaths
  · intro e he
    have hhead : (c.call scope (scope.functionName n)).head? = scope.functionPrefix.head? := by
      obtain ⟨first, rest, hfirst⟩ := List.exists_cons_of_ne_nil
        (Lexeme.word_of_isIdentifier hident).1.ne_nil
      simp [Computation.call, callText, Scope.functionName, hfirst]
    exact (Lexeme.word_of_isIdentifier hident).2 e (hhead ▸ he)
  · intro e he
    have hlast : (c.call scope (scope.functionName n)).getLast? = some ')' := by
      rw [Computation.call, callText, List.getLast?_append]
      rfl
    obtain rfl := Option.some.inj (hlast.symm.trans he)
    decide

/-- **A call is no computation.** -/
theorem computation?_call (n place : Nat) (raw : Bool) (repeats : List Text) :
    computation? repeats (ofInner .oneWay raw place (c.call scope (scope.functionName n))) = none := by
  obtain ⟨-, -, hampersand, htrim⟩ := call_fits hc hident n
  obtain ⟨hword, hfree, hawait⟩ := word_functionName hident n
  have hpaths : ∀ path ∈ (c.parameters scope).map (·.1), ReadBack path := by
    intro path hpath
    obtain ⟨r, hr, rfl⟩ := exists_reference_of_mem_parameters hpath
    exact readBack_of_parse hc hr
  obtain ⟨o, s, s', arguments, hcall, hexpr, -⟩ := read?_callText hword hfree hawait hpaths
  have hexpression : (ofInner .oneWay raw place (c.call scope (scope.functionName n))).expression =
      c.call scope (scope.functionName n) := by
    cases raw with
    | false => rfl
    | true => exact Markup.unescape_eq_self hampersand
  unfold computation?
  cases hread : (ofInner .oneWay raw place (c.call scope (scope.functionName n))).read with
  | error fault => rfl
  | ok e =>
    -- the expression that is read is a call, which is evaluated natively
    rw [Occurrence.read, hexpression, htrim] at hread
    obtain ⟨o', hcall', -, rfl⟩ := Expression.read?_of_parse hread
    obtain rfl : o = o' := Option.some.inj (hcall.symm.trans hcall')
    have hkind : o.expr.kind.isAdmissible
        (ofInner .oneWay raw place (c.call scope (scope.functionName n))).isTwoWay = true := by
      rw [hexpr]
      rfl
    dsimp only
    rw [hkind]
    rfl

end Calls

/-! ## Selected bindings -/

section Selection

variable {p q limit position position' : Nat} {os os' front front' back back' done rest : List Occurrence}
  {b b' o o' : Occurrence}

/-- Bindings that stand elsewhere are selected alike. -/
theorem selectFrom_moved (h : List.Forall₂ (Moved p q) os os') (hposition : position' + p = position + q) :
    List.Forall₂ (Moved p q) (selectFrom position os) (selectFrom position' os') := by
  induction h generalizing position position' with
  | nil => exact .nil
  | @cons o o' os os' ho _ ih =>
    have hstart := ho.start
    rw [selectFrom, selectFrom]
    by_cases hlt : o.start < position
    · rw [if_pos hlt, if_pos (by omega)]
      exact ih hposition
    · rw [if_neg hlt, if_neg (by omega)]
      exact .cons ho (ih ho.stop)

/-- Selected bindings start behind the place from which on they are selected. -/
theorem le_start_of_mem_selectFrom (hos : ∀ e ∈ os, e.start ≤ e.stop) (h : o ∈ selectFrom position os) :
    position ≤ o.start := by
  induction os generalizing position with
  | nil => cases h
  | cons e os ih =>
    rw [List.forall_mem_cons] at hos
    rw [selectFrom] at h
    split at h
    · exact ih hos.2 h
    · rename_i hlt
      rcases List.mem_cons.mp h with rfl | h
      · exact Nat.le_of_not_lt hlt
      · have := ih hos.2 h
        have := hos.1
        omega

/-- **The selected bindings in front of a selected one stay the same** if the others there still run
into it. -/
theorem selectFrom_swap (hfront : List.Forall₂ (AlikeUpTo limit) front front')
    (hbefore : ∀ e ∈ front, e.start < limit) (hback : ∀ e ∈ back, limit < e.start)
    (hos : ∀ e ∈ front ++ b :: back, e.start ≤ e.stop) (hb : b.start = limit) (hb' : b'.start = limit)
    (h : selectFrom position (front ++ b :: back) = done ++ o :: rest) (ho : o.start = limit) :
    rest = selectFrom b.stop back ∧
      selectFrom position (front' ++ b' :: back') = done ++ b' :: selectFrom b'.stop back' := by
  induction hfront generalizing position done with
  | nil =>
    have hbehind : ∀ k, o ∉ selectFrom k back := by
      intro k hk
      have := hback o (mem_of_mem_selectFrom hk)
      omega
    rw [List.nil_append, selectFrom] at h
    rw [List.nil_append, selectFrom]
    split at h
    · exact absurd (h ▸ List.mem_append_right _ List.mem_cons_self) (hbehind position)
    · rename_i hlt
      rw [if_neg (by omega)]
      cases done with
      | nil =>
        obtain ⟨rfl, rfl⟩ := List.cons.inj h
        exact ⟨rfl, rfl⟩
      | cons d done =>
        obtain ⟨-, htail⟩ := List.cons.inj h
        exact absurd (htail ▸ List.mem_append_right _ List.mem_cons_self) (hbehind b.stop)
  | @cons e e' front front' he hfront ih =>
    rw [List.forall_mem_cons] at hbefore
    rw [List.cons_append, List.forall_mem_cons] at hos
    rw [List.cons_append, selectFrom] at h
    rw [List.cons_append, selectFrom, he.start_eq]
    split at h
    · rename_i hlt
      rw [if_pos hlt]
      exact ih hbefore.2 hos.2 h
    · rename_i hlt
      rw [if_neg hlt]
      cases done with
      | nil =>
        obtain ⟨rfl, -⟩ := List.cons.inj h
        have := hbefore.1
        omega
      | cons d done =>
        obtain ⟨rfl, htail⟩ := List.cons.inj h
        rcases he with rfl | ⟨-, hstop, -⟩
        · obtain ⟨hrest, hnew⟩ := ih hbefore.2 hos.2 htail
          exact ⟨hrest, by rw [hnew]; rfl⟩
        · -- behind a selected binding that runs into it, `o` would not be selected
          have hmem : o ∈ selectFrom e.stop (front ++ b :: back) := by
            rw [htail]
            exact List.mem_append_right done List.mem_cons_self
          have hle := le_start_of_mem_selectFrom hos.2 hmem
          omega

/-- What becomes of a binding does not depend on its place. -/
theorem computation?_moved (h : Moved p q o o') : computation? repeats o' = computation? repeats o := by
  have hread : o'.read = o.read := by rw [Occurrence.read, Occurrence.read, h.expression]
  have htwo : o'.isTwoWay = o.isTwoWay := by rw [isTwoWay, isTwoWay, h.direction]
  rw [computation?, computation?, hread, htwo, h.expression]

end Selection

/-- A binding in which no two equal braces stand next to each other. -/
def Calm (o : Occurrence) : Prop :=
  ¬ Direction.twoWay.opening <:+: o.written ∧ ¬ Direction.twoWay.closing <:+: o.written

theorem isChain_apart_of_not_infix {t : Text} (hopen : ¬ Direction.twoWay.opening <:+: t)
    (hclose : ¬ Direction.twoWay.closing <:+: t) : t.IsChain Apart := by
  induction t with
  | nil => exact .nil
  | cons c t ih =>
    rw [List.infix_cons_iff, not_or] at hopen hclose
    refine List.isChain_cons.mpr ⟨?_, ih hopen.2 hclose.2⟩
    rintro e he rfl
    obtain ⟨rest, rfl⟩ : ∃ rest, t = c :: rest := by
      cases t with
      | nil => cases he
      | cons d rest => exact ⟨rest, by rw [Option.some.inj he]⟩
    constructor
    · rintro rfl
      exact hopen.1 ⟨rest, rfl⟩
    · rintro rfl
      exact hclose.1 ⟨rest, rfl⟩

/-- A one-way binding that is found is written in its brackets, and if it is calm, no two-way binding
starts or ends in it. -/
theorem inert_of_mem_found {t : Text} {o : Occurrence} (h : o ∈ found raw t) (hone : o.direction = .oneWay)
    (hcalm : Calm o) : ∃ x, o.written = bracketed x ∧ Inert (bracketed x) := by
  have hscan : o ∈ scanFrom .oneWay raw 0 0 t := by
    refine (mem_merge.mp h).resolve_right fun h => ?_
    cases hone.symm.trans (direction_of_mem_scanFrom h)
  obtain ⟨u, r, n, -, -, hread, ho⟩ := exists_of_mem_scanFrom hscan
  have hwritten : o.written = bracketed ((r.drop 2).take n) := by
    rw [ho]
    rfl
  refine ⟨_, hwritten, ?_, ?_, ?_⟩
  · rw [← hwritten]
    exact isChain_apart_of_not_infix hcalm.1 hcalm.2
  · intro e he
    rw [bracketed, List.getLast?_append] at he
    obtain rfl : ']' = e := Option.some.inj he
    decide
  · simpa [bracketed_eq] using line_notMem_of_innerLength? hread

/-- **The selected bindings after one replacement.** -/
theorem selected_swap {u v x y : Text} {o : Occurrence} {done rest : List Occurrence}
    (hx : Inert (bracketed x)) (hy : Inert (bracketed y)) (hfits : Fits y)
    (h : selectFrom 0 (found raw (u ++ (bracketed x ++ v))) = done ++ o :: rest)
    (hstart : o.start = u.length) (hone : o.direction = .oneWay) (hwritten : o.written = bracketed x) :
    ∃ rest', selectFrom 0 (found raw (u ++ (bracketed y ++ v))) =
        done ++ ofInner .oneWay raw u.length y :: rest' ∧
      List.Forall₂ (Moved (u.length + (bracketed x).length) (u.length + (bracketed y).length))
        rest rest' := by
  have hmem : o ∈ found raw (u ++ (bracketed x ++ v)) :=
    mem_of_mem_selectFrom (h ▸ List.mem_append_right _ List.mem_cons_self)
  obtain ⟨front, front', back, back', hold, hnew, hfront, hbefore, hback, hbehind⟩ :=
    find_swap hx hy hfits hmem hstart hone hwritten
  have hbrackets := length_bracketed x
  have hstop : ∀ z, (ofInner .oneWay raw u.length z).stop = u.length + (bracketed z).length := fun z =>
    stop_ofInner .oneWay raw u.length z
  have hos : ∀ e ∈ found raw (u ++ (bracketed x ++ v)), e.start ≤ e.stop := by
    intro e he
    obtain ⟨_, _, _, _, hstop⟩ := liesIn_of_mem_found he
    omega
  rw [hold] at h hos
  have hbehind' : ∀ e ∈ back, u.length < e.start := by
    intro e he
    have := hbehind e he
    omega
  obtain ⟨rfl, hselected⟩ : rest = selectFrom (ofInner .oneWay raw u.length x).stop back ∧
      selectFrom 0 (front' ++ ofInner .oneWay raw u.length y :: back') =
        done ++ ofInner .oneWay raw u.length y ::
          selectFrom (ofInner .oneWay raw u.length y).stop back' :=
    selectFrom_swap hfront hbefore hbehind' hos rfl rfl h hstart
  refine ⟨_, hnew ▸ hselected, selectFrom_moved hback ?_⟩
  rw [hstop, hstop]
  omega

/-! ## All replacements -/

/-- What an outcome leaves of a binding: the binding as it is written, or a call in its brackets. -/
theorem Outcome.cases {o : Occurrence} {t : Text} {ds : List Diagnostic} {fs : List FunctionDefinition}
    (h : Outcome repeats scope n o t ds fs) :
    (computation? repeats o = none ∧ t = o.written) ∨
      ∃ c, computation? repeats o = some c ∧ t = bracketed (c.call scope (scope.functionName n)) := by
  unfold computation?
  cases h with
  | native read admissible => exact .inl ⟨by simp [read, admissible], rfl⟩
  | literal read | invalid read => exact .inl ⟨by simp [read], rfl⟩
  | inadmissible read twoWay => exact .inl ⟨by simp [read, isTwoWay, twoWay], rfl⟩
  | computed read oneWay other computation =>
    subst computation
    exact .inr ⟨_, by simp [read, isTwoWay, oneWay, other, BindingKind.isAdmissible], rfl⟩

/-- How far the bindings of a text are replaced: `before` stands where the text up to `position` stood,
nothing is left to compute in it, and the next bindings are `os`, moved to where they stand now. -/
def Reached (repeats : List Text) (raw : Bool) (whole : Text) (position : Nat) (os : List Occurrence)
    (before : Text) : Prop :=
  ∃ done next, selectFrom 0 (found raw (before ++ whole.drop position)) = done ++ next ∧
    List.Forall₂ (Moved position before.length) os next ∧ ∀ o ∈ done, computation? repeats o = none

namespace Reached

variable {whole before gap : Text} {position : Nat} {o : Occurrence} {os : List Occurrence}

/-- At the start nothing is replaced. -/
theorem start (repeats : List Text) (raw : Bool) (whole : Text) :
    Reached repeats raw whole 0 (selectFrom 0 (found raw whole)) [] :=
  ⟨[], _, rfl, List.forall₂_same.mpr fun _ _ => ⟨rfl, rfl, rfl, rfl, rfl⟩, nofun⟩

section Step

variable (h : Reached repeats raw whole position (o :: os) before)
  (hplace : whole.drop position = gap ++ o.written ++ whole.drop o.stop)
  (hstart : o.start = position + gap.length) (hstop : o.stop = o.start + o.written.length)
include h hplace hstart hstop

/-- A binding that is no computation is passed. -/
theorem keep (hnone : computation? repeats o = none) :
    Reached repeats raw whole o.stop os (before ++ (gap ++ o.written)) := by
  obtain ⟨done, next, hselected, hmoved, hdone⟩ := h
  cases hmoved with
  | @cons _ o' _ next ho hmoved =>
    have hselected' : selectFrom 0 (found raw (before ++ (gap ++ o.written) ++ whole.drop o.stop)) =
        (done ++ [o']) ++ next := by
      rw [List.append_assoc, ← hplace, hselected, List.append_assoc, List.singleton_append]
    refine ⟨done ++ [o'], next, hselected', hmoved.imp fun e e' he => ?_, ?_⟩
    · have hfurther := he.further (gap.length + o.written.length)
      rwa [← Nat.add_assoc, ← hstart, ← hstop, ← List.length_append, ← List.length_append]
        at hfurther
    · rw [List.forall_mem_append]
      exact ⟨hdone, List.forall_mem_singleton.mpr ((computation?_moved ho).trans hnone)⟩

/-- A computation is replaced by its call, which is no computation; what stands behind it is moved. -/
theorem replace {c : Computation} (hcomputed : computation? repeats o = some c) (hcalm : Calm o)
    (hident : scope.functionPrefix.isIdentifier = true) (n : Nat) :
    Reached repeats raw whole o.stop os
      (before ++ (gap ++ bracketed (c.call scope (scope.functionName n)))) := by
  obtain ⟨done, next, hselected, hmoved, hdone⟩ := h
  obtain ⟨haccepted, hone⟩ := computation?_eq_some hcomputed
  obtain ⟨hfits, hinert', -⟩ := call_fits haccepted hident n
  cases hmoved with
  | @cons _ o' _ next ho hmoved =>
    -- the binding is one of the text as it is now
    have hmem : o' ∈ found raw (before ++ whole.drop position) :=
      mem_of_mem_selectFrom (hselected ▸ List.mem_append_right _ List.mem_cons_self)
    have hcalm' : Calm o' := by rwa [Calm, ho.written]
    obtain ⟨x, hx, hinert⟩ := inert_of_mem_found hmem (ho.direction.trans hone) hcalm'
    have hwritten : o.written = bracketed x := ho.written.symm.trans hx
    have hstart' : o'.start = (before ++ gap).length := by
      have := ho.start
      rw [List.length_append]
      omega
    have htext : before ++ whole.drop position =
        (before ++ gap) ++ (bracketed x ++ whole.drop o.stop) := by
      rw [hplace, hwritten]
      simp
    rw [htext] at hselected
    obtain ⟨next', hselected', hmoved'⟩ := selected_swap hinert hinert' hfits hselected hstart'
      (ho.direction.trans hone) hx
    -- the further bindings have moved up to here, and are moved once more by the call
    have hhere : List.Forall₂ (Moved o.stop ((before ++ gap).length + (bracketed x).length)) os next := by
      refine hmoved.imp fun e e' he => ?_
      have hfurther := he.further (gap.length + (bracketed x).length)
      rwa [← hwritten, ← Nat.add_assoc, ← hstart, ← hstop, ← Nat.add_assoc, ← List.length_append,
        hwritten] at hfurther
    rw [← List.append_assoc]
    refine ⟨done ++ [ofInner .oneWay raw (before ++ gap).length (c.call scope (scope.functionName n))],
      next', ?_, ?_, ?_⟩
    · rw [List.append_assoc (before ++ gap), hselected', List.append_assoc, List.singleton_append]
    · rw [@List.length_append _ (before ++ gap)]
      exact moved_trans hhere hmoved'
    · rw [List.forall_mem_append]
      exact ⟨hdone, List.forall_mem_singleton.mpr (computation?_call haccepted hident n _ raw repeats)⟩

end Step

end Reached

/-- **Behind some replacements nothing is left to compute**, if the replaced bindings are calm: each
further replacement leaves what is settled in front of it and moves what is still to come. -/
theorem settled_of_accounted {whole answer before : Text} {position : Nat} {os : List Occurrence}
    {ds : List Diagnostic} {fs : List FunctionDefinition}
    (h : Accounted repeats scope whole position n os answer ds fs)
    (hident : scope.functionPrefix.isIdentifier = true)
    (hcalm : ∀ o ∈ os, ∀ c, computation? repeats o = some c → Calm o)
    (hreached : Reached repeats raw whole position os before) :
    ∀ o ∈ selectFrom 0 (found raw (before ++ answer)), computation? repeats o = none := by
  induction h generalizing before with
  | rest =>
    obtain ⟨done, next, hselected, hmoved, hdone⟩ := hreached
    cases hmoved
    rwa [hselected, List.append_nil]
  | @next position n o os gap standIn answer _ _ _ _ hplace hstart hstop outcome _ ih =>
    rw [List.forall_mem_cons] at hcalm
    have hbehind : Reached repeats raw whole o.stop os (before ++ (gap ++ standIn)) := by
      obtain ⟨hnone, rfl⟩ | ⟨c, hcomputed, rfl⟩ := outcome.cases
      · exact hreached.keep hplace hstart hstop hnone
      · exact hreached.replace hplace hstart hstop hcomputed (hcalm.1 c hcomputed) hident n
    have hall := ih hcalm.2 hbehind
    rwa [List.append_assoc] at hall

/-! ## Visiting twice -/

/-- A binding for which nothing is generated: it is no expression, or one that is evaluated natively,
or a two-way binding. -/
def AtRest (o : Occurrence) : Prop :=
  ∀ e, o.read = .ok e → o.direction = .twoWay ∨ e.kind.isAdmissible false = true

/-- The bindings at rest are those that are no computation. -/
theorem computation?_eq_none_iff {o : Occurrence} : computation? repeats o = none ↔ AtRest o := by
  unfold computation? AtRest
  cases o.read with
  | error fault => simp
  | ok e =>
    cases hdirection : o.direction with
    | oneWay =>
      have hone : o.isTwoWay = false := by simp [isTwoWay, hdirection]
      simp [hone]
    | twoWay => simp [isTwoWay, hdirection]

/-- Nothing is computed at a place exactly if all its selected bindings are at rest. -/
theorem computations_eq_nil_iff {site : Site} :
    computations site = [] ↔ ∀ o ∈ selected site, AtRest o := by
  rw [computations, List.filterMap_eq_nil_iff]
  exact forall₂_congr fun _ _ => computation?_eq_none_iff

/-- The place with the answer of a visit. -/
def answeredSite (site : Site) (reply : Option Text) : Site :=
  { site with text := reply.getD site.text }

/-- A visit that finds every binding at rest adds no function. -/
theorem functions_visit {site : Site} {scope after : Scope} {reply : Option Text}
    (hrest : computations site = []) (h : visit site scope = .ok (reply, after)) :
    after.functions = scope.functions := by
  cases reply with
  | none => rw [visit_idle h]
  | some answer =>
    obtain ⟨-, ds, fs, -, hgains⟩ := visit_account h
    have hcounter := counter_visit h
    rw [hgains.counter, hrest, List.length_nil, Nat.add_left_cancel_iff,
      List.length_eq_zero_iff] at hcounter
    rw [hgains.functions, hcounter]
    rfl

/-- With enough room every place is visited to the end whose bindings are found. -/
theorem exists_room_for_visit {site : Site} (hfind : Occurrence.overlong? site.raw site.text = none) :
    ∃ room, ∀ scope : Scope, scope.room = room →
      ∃ reply after, visit site scope = .ok (reply, after) := by
  refine ⟨((selected site).map bracketsOf).sum, fun scope hroom => ?_⟩
  have hpasses : obstacle? ((selected site).map bracketsOf).sum site = none :=
    obstacle?_eq_none_of_brackets_le hfind fun o ho =>
      List.single_le_sum (fun _ _ => Nat.zero_le _) _ (List.mem_map_of_mem ho)
  obtain ⟨reply, after, hvisit, -⟩ := (visit_stopsAt _).passes site scope hroom hpasses
  exact ⟨reply, after, hvisit⟩

/-- **Visits leave a place as it is**, whatever was generated before, exactly if its selected bindings
are at rest, provided that its bindings are found. -/
theorem visit_idle_iff {site : Site} {bindings : List Text} :
    (∀ (scope after : Scope) (reply : Option Text), scope.bindings = bindings →
        visit site scope = .ok (reply, after) →
        (∀ answer ∈ reply, answer = site.text) ∧ after.functions = scope.functions) ↔
      (Occurrence.overlong? site.raw site.text = none → ∀ o ∈ selected site, AtRest o) := by
  rw [← computations_eq_nil_iff]
  constructor
  · intro hidle hfind
    -- in a scope without functions each computation of the place would add one
    obtain ⟨room, hroom⟩ := exists_room_for_visit hfind
    obtain ⟨reply, after, hvisit⟩ := hroom { moduleId := [], bindings := bindings, room := room } rfl
    have hnumbered : ({ moduleId := [], bindings := bindings, room := room } : Scope).Numbered := rfl
    have hfunctions := (hidle _ after reply rfl hvisit).2
    rw [(visit_extends hnumbered hvisit).functions, List.append_right_eq_self] at hfunctions
    simpa using hfunctions
  · intro hnone scope after reply _ hvisit
    cases reply with
    | none => exact ⟨nofun, by rw [visit_idle hvisit]⟩
    | some answer =>
      have hfind := (Occurrence.find_eq_ok_iff.mp (visit_account hvisit).1).1
      exact ⟨visit_eq_text (hnone hfind) hvisit, functions_visit (hnone hfind) hvisit⟩

/-- **Visiting a place twice.**  After a first visit, further visits leave the place as it is and add
no function exactly if the bindings that they select are at rest, unless its bindings cannot be found,
and then no further visit comes to the end.  They are at rest if no two equal braces stand next to each
other in a binding that the first visit replaces. -/
theorem visit_again {site : Site} {scope after : Scope} {reply : Option Text}
    (h : visit site scope = .ok (reply, after)) :
    ((∀ (scope' after' : Scope) (reply' : Option Text), scope'.bindings = scope.bindings →
        visit (answeredSite site reply) scope' = .ok (reply', after') →
        (∀ answer ∈ reply', answer = (answeredSite site reply).text) ∧
          after'.functions = scope'.functions) ↔
      (Occurrence.overlong? site.raw (answeredSite site reply).text = none →
        ∀ o ∈ selected (answeredSite site reply), AtRest o)) ∧
    (scope.functionPrefix.isIdentifier = true → (∀ o ∈ selected site, ¬ AtRest o → Calm o) →
      ∀ o ∈ selected (answeredSite site reply), AtRest o) := by
  refine ⟨visit_idle_iff, fun hident hcalm => ?_⟩
  cases reply with
  | none =>
    have hmay := (visit_eq_none_iff h).mp rfl
    intro o ho
    rw [show answeredSite site none = site from rfl, selected_eq_nil hmay] at ho
    cases ho
  | some answer =>
    obtain ⟨-, ds, fs, haccounted, -⟩ := visit_account h
    have hmay : Occurrence.mayHold site.text = true := by
      by_contra hnot
      cases (visit_eq_none_iff h).mpr hnot
    rw [selected, if_pos hmay] at hcalm
    -- only the bindings that are replaced have to be calm
    have hcalm' : ∀ o ∈ selectFrom 0 (found site.raw site.text), ∀ c,
        computation? site.repeats o = some c → Calm o := by
      intro o ho c hc
      refine hcalm o ho fun hrest => ?_
      cases hc.symm.trans (computation?_eq_none_iff.mpr hrest)
    have hsettled := settled_of_accounted haccounted hident hcalm'
      (Reached.start site.repeats site.raw site.text)
    intro o ho
    refine computation?_eq_none_iff.mp (hsettled o ?_)
    unfold selected at ho
    split at ho
    · exact ho
    · cases ho

/-- A visit that replaces a binding without braces leaves nothing to do. -/
theorem visit_again_sumSite :
    ∃ reply after, visit sumSite { moduleId := [] } = .ok (reply, after) ∧
      ((∃ o ∈ selected sumSite, ¬ AtRest o) ∧
        ({ moduleId := [] } : Scope).functionPrefix.isIdentifier = true ∧
        ∀ o ∈ selected sumSite, ¬ AtRest o → Calm o) ∧
      ∀ (scope after' : Scope) (reply' : Option Text), scope.bindings = [] →
        visit (answeredSite sumSite reply) scope = .ok (reply', after') →
        after'.functions = scope.functions := by
  have hident : ({ moduleId := [] } : Scope).functionPrefix.isIdentifier = true := by decide +kernel
  have hcalm : ∀ o ∈ selected sumSite, ¬ AtRest o → Calm o := by
    have hwritten : ∀ o ∈ selected sumSite, o.written = sumSite.text := by decide +kernel
    intro o ho _
    rw [Calm, hwritten o ho]
    decide
  have hcomputed : (computations sumSite).length = 1 := by decide +kernel
  have hbusy : ∃ o ∈ selected sumSite, ¬ AtRest o := by
    by_contra hrest
    rw [computations_eq_nil_iff.mpr fun o ho => by_contra fun h => hrest ⟨o, ho, h⟩] at hcomputed
    cases hcomputed
  have hreturns : ∃ r, (visit sumSite { moduleId := [] }).toOption = some r :=
    Option.isSome_iff_exists.mp (by decide +kernel)
  obtain ⟨⟨reply, after⟩, hvisit⟩ := hreturns
  obtain ⟨hidle, hsettled⟩ := visit_again (eq_ok_of_toOption hvisit)
  exact ⟨reply, after, eq_ok_of_toOption hvisit, ⟨hbusy, hident, hcalm⟩,
    fun scope after' reply' hscope hagain =>
      (hidle.mpr (fun _ => hsettled hident hcalm) scope after' reply' hscope hagain).2⟩

/-- A place whose first binding holds two opening braces, and whose last one lies between other
braces. -/
def bracesSite : Site :=
  ⟨"[[a + \"\x7b\x7b\"]] [[\x7b\x7b\x7d\x7d]] \x7b\x7b [[x+y]] \x7d\x7d".toList, true, none, []⟩

/-- **A second visit may find more to do.**  The braces of the first binding open a two-way binding
that ends within the second one; once they are replaced by a call, the braces of the second binding
open and close one, and the last binding is reached. -/
theorem visit_bracesSite :
    let scope : Scope := { moduleId := "x-test".toList }
    ∃ reply behind answer last, visit bracesSite scope = .ok (reply, behind) ∧
      behind.bindings = scope.bindings ∧
      visit (answeredSite bracesSite reply) behind = .ok (some answer, last) ∧
      answer ≠ (answeredSite bracesSite reply).text ∧
      behind.functions.map (·.name) = ["__c_0".toList] ∧
      last.functions.map (·.name) = ["__c_0".toList, "__c_1".toList] := by
  intro scope
  have hreturns : ∃ r, (visit bracesSite scope).toOption = some r :=
    Option.isSome_iff_exists.mp (by decide +kernel)
  obtain ⟨⟨reply, behind⟩, hvisit⟩ := hreturns
  have hall : ∀ r ∈ (visit bracesSite scope).toOption, r.2.bindings = scope.bindings ∧
      r.2.functions.map (·.name) = ["__c_0".toList] ∧
      ∃ again ∈ (visit (answeredSite bracesSite r.1) r.2).toOption, ∃ answer ∈ again.1,
        answer ≠ (answeredSite bracesSite r.1).text ∧
        again.2.functions.map (·.name) = ["__c_0".toList, "__c_1".toList] := by
    decide +kernel
  obtain ⟨hbindings, hnames, ⟨_, last⟩, hagain, answer, rfl, hother, hmore⟩ := hall _ hvisit
  exact ⟨reply, behind, answer, last, eq_ok_of_toOption hvisit, hbindings, eq_ok_of_toOption hagain,
    hother, hnames, hmore⟩

end Rewrite
end DataBinding
