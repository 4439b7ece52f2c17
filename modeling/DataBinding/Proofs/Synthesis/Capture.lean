/-
# What a synthesis captures

The paths that are passed become arguments and parameters, position by position.  Every other
reference stays as written, and since no parameter has the name of its root, it still means what it
meant.

* `nameOf_notMem_roots`  : no parameter is the root of a free reference.
* `Stores`               : a function among others, in the place of one that has its name.
* `Captures`             : the call, the function and the scope that a synthesis gives.
* `synthesize_captures`  : a synthesis of an accepted text gives these.
-/
import DataBinding.Proofs.Synthesis.Replacement
import DataBinding.Proofs.Template.Outcome

namespace DataBinding.Synthesis

open Expression ParameterNames

variable {scope : Scope} {repeats : List Text} {e : Expr}

/-! ## Names of parameters -/

/-- The paths that are passed, once each, in the order of their first references. -/
def passedPaths (scope : Scope) (repeats : List Text) (e : Expr) : List Text :=
  ((e.references.filter (isKept scope repeats)).map (·.path)).eraseDups

/-- The roots that nothing declares, once each, in the order of their first references. -/
def undeclaredRoots (scope : Scope) (repeats : List Text) (e : Expr) : List Text :=
  ((e.references.map (·.root)).filter fun root =>
    !scope.isBound root && !repeats.contains root && root != Expr.thisName &&
      !scope.isGlobal root).eraseDups

theorem unresolvedRoots_eq :
    unresolvedRoots scope repeats e.references = undeclaredRoots scope repeats e := by
  rw [unresolvedRoots, undeclaredRoots, List.filter_map, List.filter_map, List.filter_filter]
  congr 2
  refine List.filter_congr fun r _ => ?_
  rw [Bool.eq_iff_iff]
  simp only [isKept, Function.comp, Bool.and_eq_true, Bool.not_eq_true', Bool.or_eq_false_iff]
  tauto

/-- A plain path has no dot. -/
theorem dot_notMem_of_plain {path : Text} (h : isDotted path = false) : '.' ∉ path :=
  fun hdot => Bool.eq_false_iff.mp h (List.contains_iff_mem.mpr hdot)

/-- The root of a plain path is the path. -/
theorem root_of_plain {path : Text} (h : isDotted path = false) : Path.root path = path :=
  Expr.root_of_dot_notMem (dot_notMem_of_plain h)

/-- The name that is given to the path of a passed reference. -/
theorem nameOf_passed {r : Reference} (hr : r ∈ e.references) (hkept : isKept scope repeats r = true) :
    (isDotted r.path = false ∧ nameOf (parameters scope repeats e.references) r.path = r.path) ∨
      (isDotted r.path = true ∧
        (∀ r' ∈ e.references, isKept scope repeats r' = false →
          r'.root ≠ nameOf (parameters scope repeats e.references) r.path) ∧
        ∃ n, nameOf (parameters scope repeats e.references) r.path =
          candidate (flatten r.path scope.separator) n) := by
  have hpath : r.path ∈ (e.references.filter (isKept scope repeats)).map (·.path) :=
    List.mem_map_of_mem (List.mem_filter.mpr ⟨hr, hkept⟩)
  obtain hplain | ⟨hdotted, hfree, hcandidate⟩ := nameOf_assign scope.separator
    ((e.references.filter (!isKept scope repeats ·)).map (·.root)) hpath
  · exact .inl hplain
  · refine .inr ⟨hdotted, fun r' hr' hkept' heq => hfree ?_, hcandidate⟩
    rw [show assign _ _ _ = parameters scope repeats e.references from rfl, ← heq]
    exact List.mem_map_of_mem (List.mem_filter.mpr ⟨hr', by rw [hkept']; rfl⟩)

/-- **No parameter is the root of a free reference.** -/
theorem nameOf_notMem_roots {r r' : Reference} (hr : r ∈ e.references)
    (hkept : isKept scope repeats r = true) (hr' : r' ∈ e.references)
    (hfree : isKept scope repeats r' = false) :
    r'.root ≠ nameOf (parameters scope repeats e.references) r.path := by
  obtain ⟨hplain, hself⟩ | ⟨-, hroots, -⟩ := nameOf_passed hr hkept
  · rw [hself]
    intro heq
    have hroot : r.root = r'.root := (root_of_plain hplain).trans heq.symm
    rw [isKept_dependsOnRoot scope repeats r r' hroot, hfree] at hkept
    cases hkept
  · exact hroots r' hr' hfree

/-- Reserved words have no underscores. -/
theorem underscore_notMem_reservedWords : ∀ x ∈ Lexeme.reservedWords, '_' ∉ x := by
  decide

theorem isReserved_of_underscore {x : Text} (h : '_' ∈ x) : Lexeme.isReserved x = false := by
  rw [Lexeme.isReserved, Bool.eq_false_iff]
  intro hmem
  exact underscore_notMem_reservedWords x (List.contains_iff_mem.mp hmem) h

/-- With an underscore in the separator a flattened path has one, and so have its candidates. -/
theorem underscore_mem_candidate {path separator : Text} (hdotted : isDotted path = true)
    (h : '_' ∈ separator) (n : Nat) : '_' ∈ candidate (flatten path separator) n := by
  have hflat : '_' ∈ flatten path separator := by
    refine List.mem_flatMap.mpr ⟨'.', List.contains_iff_mem.mp hdotted, ?_⟩
    rw [if_pos (beq_self_eq_true _)]
    exact h
  cases n with
  | zero => exact hflat
  | succ n => exact List.mem_append_left _ hflat

/-! ## Functions -/

/-- A function is put among others: behind them, or in the place of the one that has its name. -/
def Stores (f : FunctionDefinition) (fs fs' : List FunctionDefinition) : Prop :=
  (f.name ∉ fs.map (·.name) ∧ fs' = fs ++ [f]) ∨
    ∃ before g after, fs = before ++ g :: after ∧ g.name = f.name ∧
      f.name ∉ before.map (·.name) ∧ fs' = before ++ f :: after

theorem stores_putFunction (f : FunctionDefinition) (fs : List FunctionDefinition) :
    Stores f fs (Scope.putFunction f fs) := by
  induction fs with
  | nil => exact .inl ⟨by simp, rfl⟩
  | cons g fs ih =>
    rw [Scope.putFunction]
    split
    · rename_i hname
      exact .inr ⟨[], g, fs, rfl, eq_of_beq hname, by simp, rfl⟩
    · rename_i hname
      have hne : f.name ≠ g.name := fun heq => hname (beq_iff_eq.mpr heq.symm)
      obtain ⟨hnew, heq⟩ | ⟨before, g', after, rfl, hg, hbefore, heq⟩ := ih
      · refine .inl ⟨?_, by rw [heq]; rfl⟩
        rw [List.map_cons, List.mem_cons, not_or]
        exact ⟨hne, hnew⟩
      · refine .inr ⟨g :: before, g', after, rfl, hg, ?_, by rw [heq]; rfl⟩
        rw [List.map_cons, List.mem_cons, not_or]
        exact ⟨hne, hbefore⟩

/-! ## Synthesis -/

/-- What a synthesis makes of the expression of a text: the names that stand for paths, the function
that is generated, and the call and the scope that are given. -/
structure Captures (scope : Scope) (repeats : List Text) (text : Text) (e : Expr)
    (name : Text → Text) (f : FunctionDefinition) : Prop where
  title : f.name = scope.functionPrefix ++ Scope.numeral scope.counter
  call : (synthesize text e repeats scope).1 = callText f.name (passedPaths scope repeats e)
  parameters : f.parameters = (passedPaths scope repeats e).map name
  distinct : f.parameters.Nodup
  body : Replaced (isKept scope repeats) name 0 text.trim e.references f.body
  free : ∀ r ∈ e.references, isKept scope repeats r = false → r.root ∉ f.parameters
  lawful : '_' ∈ scope.separator → ∀ x ∈ f.parameters, Lexeme.isReserved x = false
  diagnostics : (synthesize text e repeats scope).2.diagnostics = scope.diagnostics ++
    (undeclaredRoots scope repeats e).map fun root =>
      ⟨.unresolvedIdentifier, unresolvedMessage scope root text.trim, text.trim⟩
  bindings : (synthesize text e repeats scope).2.bindings = scope.bindings
  counter : (synthesize text e repeats scope).2.counter = scope.counter + 1
  functions : Stores f scope.functions (synthesize text e repeats scope).2.functions

/-- **A synthesis captures the passed paths and nothing else.** -/
theorem synthesize_captures {text : Text} {e : Expr} (hparse : parse text.trim = .ok e)
    (repeats : List Text) (scope : Scope) :
    ∃ name f, Captures scope repeats text e name f := by
  obtain ⟨hcall, hgains⟩ := gains_synthesize text e repeats scope
  let c : Computation := ⟨text.trim, e, repeats⟩
  let name := nameOf (Synthesis.parameters scope repeats e.references)
  have hkeys : (c.parameters scope).map (·.1) = passedPaths scope repeats e := keys_assign
  have hvalues : (c.parameters scope).map (·.2) = (passedPaths scope repeats e).map name :=
    values_assign
  -- a parameter is the name of a path that is passed
  have hparameter : ∀ x ∈ (c.parameters scope).map (·.2), ∃ r ∈ e.references,
      isKept scope repeats r = true ∧ x = name r.path := by
    intro x hx
    rw [hvalues] at hx
    obtain ⟨path, hpath, rfl⟩ := List.mem_map.mp hx
    obtain ⟨r, hr, rfl⟩ := List.mem_map.mp (List.mem_eraseDups.mp hpath)
    obtain ⟨hr, hkept⟩ := List.mem_filter.mp hr
    exact ⟨r, hr, hkept, rfl⟩
  refine ⟨name, c.definition scope (scope.functionName scope.counter), rfl, ?_, hvalues,
    nodup_assign, replaced_renamedBody hparse scope repeats, ?_, ?_, ?_, hgains.settings.bindings,
    hgains.counter, ?_⟩
  · rw [hcall, ← hkeys]
    rfl
  · intro r' hr' hfree hmem
    obtain ⟨r, hr, hkept, hx⟩ := hparameter _ hmem
    exact nameOf_notMem_roots hr hkept hr' hfree hx
  · intro hseparator x hx
    obtain ⟨r, hr, hkept, rfl⟩ := hparameter x hx
    obtain ⟨hplain, hself⟩ | ⟨hdotted, -, n, hn⟩ := nameOf_passed hr hkept
    · rw [show name r.path = r.path from hself]
      refine isReserved_of_plain hparse hr fun hdot => ?_
      rw [isDotted, List.contains_iff_mem.mpr hdot] at hplain
      cases hplain
    · rw [show name r.path = candidate (flatten r.path scope.separator) n from hn]
      exact isReserved_of_underscore (underscore_mem_candidate hdotted hseparator n)
  · rw [hgains.diagnostics, Computation.diagnostics, unresolvedRoots_eq]
  · rw [hgains.functions]
    exact stores_putFunction ..

/-! ## Names that collide -/

/-- A text with a path whose flat name is another identifier of the text. -/
def collidingText : Text :=
  "a.b + a__b".toList

/-- The expression of the text. -/
def collidingExpr : Expr :=
  .binary ⟨0, 10⟩ .add (.member ⟨0, 3⟩ (.identifier ⟨0, 1⟩ ['a']) ['b'] false)
    (.identifier ⟨6, 10⟩ "a__b".toList)

/-- A scope that knows one identifier. -/
def knownScope : Scope :=
  { moduleId := "x-test".toList, bindings := [['a']] }

theorem parse_collidingText : parse collidingText.trim = .ok collidingExpr :=
  parse_eq_ok (w := [⟨.word ['a'], 0, 1⟩, ⟨.mark .dot, 1, 2⟩, ⟨.word ['b'], 2, 3⟩,
      ⟨.mark (.binary .add), 4, 5⟩, ⟨.word "a__b".toList, 6, 10⟩])
    (o := ⟨collidingExpr, ⟨0, 10⟩, 2⟩) (by decide) (by decide +kernel) rfl (by decide)

/-- The parameter is numbered then, and the other identifier stays free. -/
theorem captures_collidingText :
    parse collidingText.trim = .ok collidingExpr ∧
      (∃ name f, Captures knownScope [] collidingText collidingExpr name f) ∧
      (synthesize collidingText collidingExpr [] knownScope).2.functions =
        [⟨"__c_0".toList, ["a__b_1".toList], "a__b_1 + a__b".toList⟩] :=
  ⟨parse_collidingText, synthesize_captures parse_collidingText [] knownScope, by decide +kernel⟩

/-- A text with two free identifiers. -/
def freeText : Text :=
  "a + b".toList

/-- The expression of the text. -/
def freeExpr : Expr :=
  .binary ⟨0, 5⟩ .add (.identifier ⟨0, 1⟩ ['a']) (.identifier ⟨4, 5⟩ ['b'])

/-- A text with a blank in front. -/
def shiftedText : Text :=
  " a+c".toList

/-- The expression of the text with the blank, whose places do not count from the trimmed text. -/
def shiftedExpr : Expr :=
  .binary ⟨1, 4⟩ .add (.identifier ⟨1, 2⟩ ['a']) (.identifier ⟨3, 4⟩ ['c'])

/-- Where the scope holds a function under the next name, none is added; and where the expression was
read from a text with a blank in front, a free reference does not stay as written. -/
theorem synthesize_takenName_shiftedText :
    (parse freeText = .ok freeExpr ∧
      (synthesize freeText freeExpr [] Rewrite.takenName).2.functions =
        [⟨"__c_0".toList, [], freeText⟩] ∧
      ∀ f, (synthesize freeText freeExpr [] Rewrite.takenName).2.functions ≠
        Rewrite.takenName.functions ++ [f]) ∧
    parse shiftedText = .ok shiftedExpr ∧
      (synthesize shiftedText shiftedExpr [] knownScope).2.functions =
        [⟨"__c_0".toList, [['a']], "aac".toList⟩] := by
  have hparse : parse freeText = .ok freeExpr :=
    parse_eq_ok (w := [⟨.word ['a'], 0, 1⟩, ⟨.mark (.binary .add), 2, 3⟩, ⟨.word ['b'], 4, 5⟩])
      (o := ⟨freeExpr, ⟨0, 5⟩, 1⟩) (by decide) (by decide +kernel) rfl (by decide)
  have hshifted : parse shiftedText = .ok shiftedExpr :=
    parse_eq_ok (w := [⟨.word ['a'], 1, 2⟩, ⟨.mark (.binary .add), 2, 3⟩, ⟨.word ['c'], 3, 4⟩])
      (o := ⟨shiftedExpr, ⟨1, 4⟩, 1⟩) (by decide) (by decide +kernel) rfl (by decide)
  have hfunctions : (synthesize freeText freeExpr [] Rewrite.takenName).2.functions =
      [⟨"__c_0".toList, [], freeText⟩] := by
    decide +kernel
  refine ⟨⟨hparse, hfunctions, fun f h => ?_⟩, hshifted, by decide +kernel⟩
  rw [hfunctions] at h
  exact absurd (congrArg List.length h) (by simp [Rewrite.takenName])

end DataBinding.Synthesis
