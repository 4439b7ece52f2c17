/-
# Separators and lists of parameters

The options accept every separator that holds something and no dot.  Whether the parameters of all
functions are identifiers then depends on what a separator makes between two words: it must go on
with a word, and it must join no name to a reserved word.  With a hyphen the path `a.b` becomes the
parameter `a-b`, and with the letter `o` the path `f.r` becomes `for`.

* `Suitable`                   : a separator that joins words to identifiers.
* `OneName`                    : a text that is read as one identifier.
* `Listed`                     : a function with a well-formed list of parameters.
* `synthesize_listed_iff`      : the accepted options with which all functions have such lists.
-/
import DataBinding.Proofs.Synthesis.Calls

namespace DataBinding.Synthesis

open Expression ParameterNames
open Lexeme (Word WordTail)

/-! ## Separators -/

/-- A separator that makes identifiers of paths: it goes on with a word, and behind a name and in front
of another one it completes no reserved word. -/
structure Suitable (separator : Text) : Prop where
  tail : WordTail separator
  free : ∀ front back : Text, front ≠ [] → back ≠ [] → Lexeme.isReserved front = false →
    Lexeme.isReserved (front ++ (separator ++ back)) = false

/-- Underscores are suitable. -/
theorem IsUnderscores.suitable {separator : Text} (h : IsUnderscores separator) :
    Suitable separator where
  tail := h.wordTail
  free _ _ _ _ _ :=
    isReserved_of_underscore (List.mem_append_right _ (List.mem_append_left _ h.mem))

/-- No word behind `this` makes a reserved word. -/
theorem isReserved_this_append {x : Text} (h : x ≠ []) :
    Lexeme.isReserved (Expr.thisName ++ x) = false := by
  have hthis : ∀ w ∈ Lexeme.reservedWords, Expr.thisName.isPrefixOf w = true → w = Expr.thisName := by
    decide
  rw [Lexeme.isReserved, Bool.eq_false_iff]
  intro hmem
  have heq := hthis _ (List.contains_iff_mem.mp hmem)
    (List.isPrefixOf_iff_prefix.mpr (List.prefix_append ..))
  exact h (List.append_right_eq_self.mp heq)

/-- In front of a letter that is no digit of a code stands a tail if one goes on with it. -/
theorem wordTail_of_append_letter {w : Text} (h : WordTail (w ++ ['z'])) : WordTail w := by
  generalize heq : w ++ ['z'] = t at h
  induction h generalizing w with
  | nil => simp at heq
  | @part c t hc _ ih =>
    cases w with
    | nil => exact .nil
    | cons d w =>
      obtain ⟨rfl, htail⟩ := List.cons.inj heq
      exact .part hc (ih htail)
  | @code code t escaped _ ih =>
    obtain rfl | ⟨t, c, rfl⟩ := List.eq_nil_or_concat' t
    · -- the code would end with the letter
      have hz : 'z' ∉ '\\' :: (code ++ []) := by
        rw [List.append_nil, List.mem_cons, not_or]
        exact ⟨by decide, escaped.notMem (by decide) (by decide)⟩
      exact absurd (heq ▸ List.mem_append_right w (List.mem_singleton_self 'z')) hz
    · rw [← List.append_assoc, ← List.cons_append] at heq
      obtain ⟨rfl, hletter⟩ := List.append_inj' heq rfl
      exact .code escaped (ih (by rw [hletter]))

/-! ## Names -/

variable {x u v : Text}

/-- A text is read as one identifier that has the whole text as its name. -/
def OneName (x : Text) : Prop :=
  ∃ s, parse x = .ok (.identifier s x)

/-- A word that is not reserved is read as an identifier. -/
theorem oneName_of_word (hx : Word x) (hfree : Lexeme.isReserved x = false)
    (hblank : x.allBlank = false) : OneName x := by
  have hlexed : Lexed 0 .operand true ([] ++ (x ++ [])) [⟨.word x, ⟨0, Text.byteLength x⟩⟩] :=
    .token .nil (wordShape_of_free hfree ▸ heads_of_word hx trivial) rfl (Nat.zero_add _).symm
      (.done .nil)
  rw [List.nil_append, List.append_nil] at hlexed
  exact ⟨_, parse_eq_ok_iff.mpr ⟨hblank, _, _, tokensFrom_iff.mpr hlexed,
    .whole .nothing (.word (wordOperand?_of_free hfree _)), Nat.zero_le _, rfl⟩⟩

/-- What is read as an identifier and has no dot is a word that is not reserved. -/
theorem OneName.word (h : OneName x) (hdot : '.' ∉ x) :
    Word x ∧ Lexeme.isReserved x = false := by
  obtain ⟨s, hparse⟩ := h
  have hthis : x ≠ Expr.thisName := by
    rintro rfl
    have hself : parse Expr.thisName = .ok (.this ⟨0, 4⟩) :=
      parse_eq_ok (w := [⟨.word Expr.thisName, 0, 4⟩]) (o := ⟨.this ⟨0, 4⟩, ⟨0, 4⟩, 0⟩) (by decide)
        (by decide +kernel) rfl (by decide)
    cases hself.symm.trans hparse
  have hmem : (⟨x, s⟩ : Reference) ∈ (Expr.identifier s x).references := by
    rw [Expr.references_of_path (show (Expr.identifier s x).path? = some x from rfl),
      if_neg (by simpa using hthis)]
    exact List.mem_singleton_self _
  exact ⟨(dotted_of_parse hparse hmem).word hdot, isReserved_of_plain hparse hmem hdot⟩

/-- A member of an identifier is read as a path. -/
theorem parse_member (hu : Word u) (hfree : Lexeme.isReserved u = false) (hv : Word v) :
    ∃ e, parse (u ++ '.' :: v) = .ok e ∧ e.path? = some (u ++ '.' :: v) := by
  let root : Span := ⟨0, Text.byteLength u⟩
  let dot : Span := ⟨Text.byteLength u, Text.byteLength u + 1⟩
  let last : Span := ⟨Text.byteLength u + 1, Text.byteLength u + 1 + Text.byteLength v⟩
  have hlexed : Lexed 0 .operand true ([] ++ (u ++ ([] ++ (['.'] ++ ([] ++ (v ++ []))))))
      [⟨.word u, root⟩, ⟨.mark .dot, dot⟩, ⟨.word v, last⟩] :=
    .token .nil (wordShape_of_free hfree ▸ heads_of_word hu (halts_mark (by decide) (by decide) _)) rfl
      (Nat.zero_add _).symm (.token .nil (heads_dot true hv []) rfl rfl
        (.token .nil (heads_of_word hv trivial) rfl rfl (.done .nil)))
  have hreads : Reads (.primary (.member (.leaf (.identifier root u)) v last.stop false))
      ([⟨.word u, root⟩] ++ (⟨.mark (accessMark false), dot⟩ :: ([] ++ [⟨.word v, last⟩]))) :=
    .member (.word (wordOperand?_of_free hfree root)) fun _ h => absurd h List.not_mem_nil
  have hblank : (u ++ '.' :: v).allBlank = false :=
    List.all_eq_false.mpr ⟨'.', List.mem_append_right _ List.mem_cons_self, by decide⟩
  rw [List.append_nil] at hlexed
  refine ⟨_, parse_eq_ok_iff.mpr ⟨hblank, _, _, tokensFrom_iff.mpr hlexed, .whole .nothing hreads,
    ?_, rfl⟩, rfl⟩
  show 1 ≤ maxLevels
  decide

/-! ## Paths -/

section Paths

variable {path : Text}

/-- The root of a member is the root of its object. -/
theorem root_member (head x : Text) : Path.root (head ++ '.' :: x) = Path.root head :=
  Expr.root_extend head x ⟨0, 0⟩ ⟨0, 0⟩

/-- The root of a path is a word. -/
theorem Dotted.word_root (h : Dotted path) : Word (Path.root path) := by
  induction h with
  | name word =>
    rw [Expr.root_of_dot_notMem word.wordTail.dot_notMem]
    exact word
  | member _ _ ih =>
    rw [root_member]
    exact ih

/-- A flattened path with a dot starts with its root and the separator, and goes on behind it. -/
theorem Dotted.exists_flatten (h : Dotted path) (separator : Text) (hdot : '.' ∈ path) :
    ∃ rest, rest ≠ [] ∧ flatten path separator = Path.root path ++ (separator ++ rest) := by
  induction h with
  | name word => exact absurd hdot word.wordTail.dot_notMem
  | @member head x front word ih =>
    rw [root_member, flatten_member, flatten_of_dot_notMem word.wordTail.dot_notMem]
    by_cases hhead : '.' ∈ head
    · obtain ⟨rest, -, hrest⟩ := ih hhead
      refine ⟨rest ++ (separator ++ x), ?_, by rw [hrest]; simp⟩
      simp [word.ne_nil]
    · rw [flatten_of_dot_notMem hhead, Expr.root_of_dot_notMem hhead]
      exact ⟨x, word.ne_nil, rfl⟩

/-- The root of a path of an accepted text is `this` or no reserved word. -/
theorem root_of_parse {t : Text} {e : Expr} (h : parse t = .ok e) {r : Reference}
    (hr : r ∈ e.references) : r.root = Expr.thisName ∨ Lexeme.isReserved r.root = false :=
  spelled_of_parse
    (P := fun path => Path.root path = Expr.thisName ∨ Lexeme.isReserved (Path.root path) = false)
    (fun x hx hadmitted => by rwa [Expr.root_of_dot_notMem hx.wordTail.dot_notMem])
    (fun head x hhead _ => by rwa [root_member]) h hr

end Paths

section Names

variable {scope : Scope} {repeats : List Text} {t : Text} {e : Expr} {r : Reference}

/-- **With a suitable separator the name of a passed path is no reserved word.** -/
theorem isReserved_nameOf (hparse : parse t = .ok e) (hseparator : Suitable scope.separator)
    (hr : r ∈ e.references) (hkept : isKept scope repeats r = true) :
    Lexeme.isReserved (nameOf (parameters scope repeats e.references) r.path) = false := by
  obtain ⟨hplain, hself⟩ | ⟨hdotted, -, n, hn⟩ := nameOf_passed hr hkept
  · rw [hself]
    exact isReserved_of_plain hparse hr (dot_notMem_of_plain hplain)
  · rw [hn]
    cases n with
    | zero =>
      have hpath := dotted_of_parse hparse hr
      obtain ⟨rest, hrest, hflat⟩ :=
        hpath.exists_flatten scope.separator (List.contains_iff_mem.mp hdotted)
      rw [candidate, hflat]
      rcases root_of_parse hparse hr with hthis | hfree
      · rw [show Path.root r.path = _ from hthis]
        exact isReserved_this_append (List.append_ne_nil_of_right_ne_nil _ hrest)
      · exact hseparator.free _ _ hpath.word_root.ne_nil hrest hfree
    | succ n => exact isReserved_of_underscore (List.mem_append_right _ List.mem_cons_self)

end Names

/-! ## Lists of parameters -/

/-- The list of parameters is well formed: each one that is not blank is read as one identifier, and
the rendered function starts with what is read as a call of its name with just these identifiers. -/
structure Listed (f : FunctionDefinition) : Prop where
  each : ∀ p ∈ f.parameters, p.allBlank = false → OneName p
  rendered : ∃ header body o s s' arguments,
    f.source = "function ".toList ++ (header ++ '\x7b' :: body) ∧ read? header = some o ∧
      o.expr = .call s (.identifier s' f.name) arguments ∧
      arguments.map Expr.path? = f.parameters.map some

/-- A rendered function starts with what is written as a call. -/
theorem source_eq_callText (f : FunctionDefinition) :
    ∃ body, f.source = "function ".toList ++ (callText f.name f.parameters ++ '\x7b' :: body) := by
  have hcall : ∀ a m r b c : Text, m = ')' :: '\x7b' :: r →
      a ++ f.name ++ ['('] ++ Text.join [','] f.parameters ++ m ++ b ++ c =
        a ++ (callText f.name f.parameters ++ '\x7b' :: (r ++ b ++ c)) := by
    rintro a _ r b c rfl
    simp [callText]
  exact ⟨_, hcall _ _ " return ".toList _ _ (by decide)⟩

/-- A function with words for its name and parameters is well formed. -/
theorem listed_of_words {f : FunctionDefinition} (hname : Word f.name)
    (hfree : Lexeme.isReserved f.name = false) (hawait : f.name ≠ awaitName)
    (hparameters : ∀ p ∈ f.parameters, Word p ∧ Lexeme.isReserved p = false) : Listed f where
  each := by
    intro p hp hblank
    obtain ⟨hword, hfree⟩ := hparameters p hp
    exact oneName_of_word hword hfree hblank
  rendered := by
    have hread : ∀ p ∈ f.parameters, ReadBack p := fun p hp =>
      .word (hparameters p hp).1 (.inr (hparameters p hp).2)
    obtain ⟨o, s, s', arguments, hread, hcall, harguments⟩ :=
      read?_callText hname hfree hawait hread
    obtain ⟨body, hsource⟩ := source_eq_callText f
    exact ⟨_, body, o, s, s', arguments, hsource, hread, hcall, harguments⟩

/-- The settings of a scope are those of the options. -/
structure MadeFrom (options : Options) (scope : Scope) : Prop where
  globals : scope.globals = options.globals
  functionPrefix : scope.functionPrefix = options.functionPrefix
  separator : scope.separator = options.separator

/-- A synthesis keeps a function with a well-formed list of parameters, one for each passed path. -/
def KeepsListed (scope : Scope) (t : Text) (e : Expr) (repeats : List Text) : Prop :=
  ∃ f, f.name = scope.functionPrefix ++ Scope.numeral scope.counter ∧
    Stores f scope.functions (synthesize t e repeats scope).2.functions ∧
    f.parameters.length = (passedPaths scope repeats e).length ∧ Listed f

/-- With a suitable separator each synthesis keeps a well-formed function. -/
theorem keepsListed_of_suitable {scope : Scope} (hident : scope.functionPrefix.isIdentifier = true)
    (hseparator : Suitable scope.separator) {t : Text} {e : Expr} (hparse : parse t = .ok e)
    (repeats : List Text) : KeepsListed scope t e repeats := by
  obtain ⟨-, hgains⟩ := gains_synthesize t e repeats scope
  let c : Computation := ⟨t.trim, e, repeats⟩
  have hvalues : (c.parameters scope).map (·.2) =
      (passedPaths scope repeats e).map (nameOf (parameters scope repeats e.references)) :=
    values_assign
  obtain ⟨hname, hfree, hawait⟩ := word_functionName hident scope.counter
  refine ⟨c.definition scope (scope.functionName scope.counter), rfl, ?_, ?_,
    listed_of_words hname hfree hawait fun p hp => ?_⟩
  · rw [hgains.functions]
    exact stores_putFunction ..
  · exact (congrArg List.length hvalues).trans (List.length_map _)
  · have hp : p ∈ (c.parameters scope).map (·.2) := hp
    rw [hvalues] at hp
    obtain ⟨path, hpath, rfl⟩ := List.mem_map.mp hp
    obtain ⟨r, hr, rfl⟩ := List.mem_map.mp (List.mem_eraseDups.mp hpath)
    obtain ⟨hr, hkept⟩ := List.mem_filter.mp hr
    exact ⟨word_nameOf hparse hseparator.tail hr hkept, isReserved_nameOf hparse hseparator hr hkept⟩

/-! ## What two words become -/

/-- A single path with a dot is named by what its flattening gives. -/
theorem parameters_single {scope : Scope} {repeats : List Text} {path : Text} {s : Span}
    (hkept : isKept scope repeats ⟨path, s⟩ = true) (hdot : '.' ∈ path) :
    parameters scope repeats [⟨path, s⟩] = [(path, flatten path scope.separator)] := by
  have hdotted : isDotted path = true := List.contains_iff_mem.mpr hdot
  simp [parameters, assign, give, hkept, hdotted, fresh, candidate]

/-- Where all functions are well formed, the name of a member of an identifier is one identifier. -/
theorem oneName_of_keepsListed {options : Options}
    (h : ∀ scope, MadeFrom options scope → ∀ t e repeats, parse t = .ok e →
      KeepsListed scope t e repeats)
    (hu : Word u) (hfree : Lexeme.isReserved u = false) (hv : Word v)
    (hblank : (u ++ (options.separator ++ v)).allBlank = false) :
    OneName (u ++ (options.separator ++ v)) := by
  let scope : Scope := { Scope.ofOptions [] options [] with bindings := [u] }
  obtain ⟨e, hparse, hpath⟩ := parse_member hu hfree hv
  obtain ⟨f, -, hstores, -, hlisted⟩ := h scope ⟨rfl, rfl, rfl⟩ _ e [] hparse
  obtain ⟨-, hgains⟩ := gains_synthesize (u ++ '.' :: v) e [] scope
  rw [hgains.functions] at hstores
  obtain ⟨-, hf⟩ | ⟨before, g, after, hnil, -⟩ := hstores
  · have hreferences : e.references = [⟨u ++ '.' :: v, e.span⟩] := by
      rw [Expr.references_of_path hpath, Expr.extend_ne_thisName, if_neg Bool.false_ne_true]
    have hkept : isKept scope [] ⟨u ++ '.' :: v, e.span⟩ = true := by
      have hroot : Reference.root ⟨u ++ '.' :: v, e.span⟩ = u :=
        (root_member u v).trans (Expr.root_of_dot_notMem hu.wordTail.dot_notMem)
      simp [isKept, hroot, Scope.isBound, scope]
    have hflat : flatten (u ++ '.' :: v) options.separator = u ++ (options.separator ++ v) := by
      rw [flatten_member, flatten_of_dot_notMem hu.wordTail.dot_notMem,
        flatten_of_dot_notMem hv.wordTail.dot_notMem]
    have hparameters : f.parameters = [u ++ (options.separator ++ v)] := by
      obtain rfl : _ = f := (List.cons.inj hf).1
      show (parameters scope [] e.references).map (·.2) = _
      rw [hreferences, parameters_single hkept (List.mem_append_right _ List.mem_cons_self), ← hflat]
      rfl
    exact hlisted.each _ (hparameters ▸ List.mem_singleton_self _) hblank
  · cases before <;> cases hnil

/-- Characters that start words make words. -/
theorem word_of_starts (hne : x ≠ []) (h : ∀ c ∈ x, Lexeme.isWordStart c = true) : Word x := by
  cases x with
  | nil => exact absurd rfl hne
  | cons c x =>
    rw [List.forall_mem_cons] at h
    refine .start h.1 (Lexeme.wordTail_of_parts fun d hd => ?_)
    exact (Bool.and_eq_true_iff.mp (h.2 d hd)).1

/-- Reserved words consist of characters that start words. -/
theorem starts_of_mem_reservedWords :
    ∀ w ∈ Lexeme.reservedWords, ∀ c ∈ w, Lexeme.isWordStart c = true := by
  decide

/-- Where all functions are well formed, the separator is suitable. -/
theorem suitable_of_keepsListed {options : Options} (hdot : '.' ∉ options.separator)
    (h : ∀ scope, MadeFrom options scope → ∀ t e repeats, parse t = .ok e →
      KeepsListed scope t e repeats) : Suitable options.separator where
  tail := by
    have hone : OneName (['a'] ++ (options.separator ++ ['z'])) :=
      oneName_of_keepsListed h (word_of_starts (by decide) (by decide)) (by decide)
        (word_of_starts (by decide) (by decide))
        (List.all_eq_false.mpr ⟨'a', List.mem_cons_self, by decide⟩)
    obtain ⟨hword, -⟩ := hone.word (by simp [hdot])
    cases hword with
    | start _ tail => exact wordTail_of_append_letter tail
  free front back hfront hback hfree := by
    rw [Bool.eq_false_iff]
    intro hreserved
    -- all parts of a reserved word are words themselves
    have hstarts := starts_of_mem_reservedWords _ (List.contains_iff_mem.mp hreserved)
    have hword : Word (front ++ (options.separator ++ back)) :=
      word_of_starts (List.append_ne_nil_of_left_ne_nil hfront _) hstarts
    have hblank : (front ++ (options.separator ++ back)).allBlank = false := by
      have hnone : ∀ w ∈ Lexeme.reservedWords, Text.allBlank w = false := by
        decide
      exact hnone _ (List.contains_iff_mem.mp hreserved)
    have hone := oneName_of_keepsListed h
      (word_of_starts hfront fun c hc => hstarts c (by simp [hc])) hfree
      (word_of_starts hback fun c hc => hstarts c (by simp [hc])) hblank
    rw [(hone.word hword.wordTail.dot_notMem).2] at hreserved
    cases hreserved

/-! ## Accepted options -/

/-- The options that are accepted. -/
theorem check_eq_ok_iff {options : Options} :
    options.check = .ok options ↔ options.functionPrefix.isIdentifier = true ∧
      options.separator ≠ [] ∧ '.' ∉ options.separator := by
  have hfault : options.check = .ok options ↔ options.fault? = none := by
    unfold Options.check
    cases options.fault? <;> simp
  rw [hfault, Options.fault?]
  cases options.functionPrefix.isIdentifier <;> simp

/-- **The accepted options with which all functions have well-formed lists of parameters** are those
with a suitable separator. -/
theorem synthesize_listed_iff {options : Options} (h : options.check = .ok options) :
    (∀ scope, MadeFrom options scope → ∀ t e repeats, parse t = .ok e →
      KeepsListed scope t e repeats) ↔ Suitable options.separator := by
  obtain ⟨hident, -, hdot⟩ := check_eq_ok_iff.mp h
  constructor
  · exact suitable_of_keepsListed hdot
  · intro hsuitable scope hmade t e repeats hparse
    exact keepsListed_of_suitable (hmade.functionPrefix ▸ hident) (hmade.separator ▸ hsuitable) hparse
      repeats

/-- The options at the start have a suitable separator. -/
theorem synthesize_listed_initial :
    (({} : Options).check = .ok {}) ∧ ∀ scope, MadeFrom {} scope → ∀ t e repeats, parse t = .ok e →
      KeepsListed scope t e repeats :=
  ⟨rfl, (synthesize_listed_iff rfl).mpr (IsUnderscores.suitable ⟨by decide, by decide⟩)⟩

/-- A path. -/
def pathText : Text :=
  "f.r".toList

/-- The expression of the path. -/
def pathExpr : Expr :=
  .member ⟨0, 3⟩ (.identifier ⟨0, 1⟩ ['f']) ['r'] false

/-- A scope with the given separator that knows one identifier. -/
def separatedScope (separator : Text) : Scope :=
  { Scope.ofOptions "x-test".toList { separator } [] with bindings := [['f']] }

/-- A hyphen is accepted and makes a difference of the path, and a letter makes a reserved word. -/
theorem synthesize_hyphen_letter :
    parse pathText = .ok pathExpr ∧
      (∃ options, Options.check options = .ok options ∧ MadeFrom options (separatedScope ['-'])) ∧
      (synthesize pathText pathExpr [] (separatedScope ['-'])).2.functions =
        [⟨"__c_0".toList, ["f-r".toList], "f-r".toList⟩] ∧ ¬ OneName "f-r".toList ∧
      (∃ options, Options.check options = .ok options ∧ MadeFrom options (separatedScope ['o'])) ∧
      (synthesize pathText pathExpr [] (separatedScope ['o'])).2.functions =
        [⟨"__c_0".toList, ["for".toList], "for".toList⟩] ∧ ¬ OneName "for".toList := by
  have hpath : parse pathText = .ok pathExpr :=
    parse_eq_ok (w := [⟨.word ['f'], 0, 1⟩, ⟨.mark .dot, 1, 2⟩, ⟨.word ['r'], 2, 3⟩])
      (o := ⟨pathExpr, ⟨0, 3⟩, 1⟩) (by decide) (by decide +kernel) rfl (by decide)
  have haccepted : ∀ separator : Text, separator ≠ [] → '.' ∉ separator →
      ∃ options, Options.check options = .ok options ∧
        MadeFrom options (separatedScope separator) := fun separator hne hdot =>
    ⟨{ separator }, check_eq_ok_iff.mpr ⟨rfl, hne, hdot⟩, rfl, rfl, rfl⟩
  refine ⟨hpath, haccepted _ (by decide) (by decide), by decide +kernel, fun h => ?_,
    haccepted _ (by decide) (by decide), by decide +kernel, fun h => ?_⟩
  · obtain ⟨hword, -⟩ := h.word (by decide)
    exact absurd (by decide) (hword.wordTail.notMem (x := '-') (by decide) (by decide) (by decide))
  · exact absurd (h.word (by decide)).2 (by decide)

end DataBinding.Synthesis
