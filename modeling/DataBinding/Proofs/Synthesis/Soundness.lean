/-
# The body means what the binding meant

With its separator made of underscores, a synthesis gives its parameters names that are words, so
that the body is an expression again: the one of the binding with an identifier for each passed
reference.  The one exception is a passed reference that stands directly behind a word, as in
`typeof(a).b`.  There the name grows together with the operator before it.

* `suits_nameOf`          : names of parameters can stand in the place of their paths.
* `parse_renamedBody_iff` : when the body is read as the expression after substitution.
* `synthesize_sound_iff`  : the same for the function that a synthesis keeps.
-/
import DataBinding.Proofs.Synthesis.Capture

namespace DataBinding.Synthesis

open Expression ParameterNames
open Lexeme (Word WordTail wordTail_of_parts isWordPart_of_isDigit)

/-! ## Paths are words -/

/-- Words joined by dots. -/
inductive Dotted : Text → Prop
  | name {x : Text} (word : Word x) : Dotted x
  | member {head x : Text} (front : Dotted head) (word : Word x) : Dotted (head ++ '.' :: x)

/-- Without a dot there is one word. -/
theorem Dotted.word {path : Text} (h : Dotted path) (hdot : '.' ∉ path) : Word path := by
  cases h with
  | name word => exact word
  | member => simp at hdot

/-- The path of an operand has a property. -/
def Spelled (P : Text → Prop) : Phrase → Prop
  | .primary o | .whole o => ∀ path, o.expr.path? = some path → P path
  | _ => True

theorem path?_of_isOperation {e : Expr} (h : e.isOperation = true) : e.path? = none := by
  cases e <;> first | rfl | cases h

section Paths

/- Paths are built from words: the first one is `this` or no reserved word, and each further one is the
name of a member. -/
variable {P : Text → Prop}
  (hname : ∀ x, Word x → x = Expr.thisName ∨ Lexeme.isReserved x = false → P x)
  (hmember : ∀ head x, P head → Word x → P (head ++ '.' :: x))
include hname hmember

/-- What holds of words and goes over to members holds of the paths that are read. -/
theorem spelled_of_reads {phrase : Phrase} {w : List Token} (h : Reads phrase w)
    (hwords : ∀ token ∈ w, ∀ x, token.shape = .word x → Word x) : Spelled P phrase := by
  induction h with
  | @word x s o admitted =>
    have hx : Word x := hwords _ (List.mem_singleton_self _) x rfl
    intro path hpath
    obtain ⟨hthis, rfl⟩ | ⟨-, rfl⟩ | ⟨hfree, rfl⟩ := wordOperand?_eq_some admitted
    · obtain rfl : Expr.thisName = path := Option.some.inj hpath
      exact hname _ (hthis ▸ hx) (.inl rfl)
    · cases hpath
    · obtain rfl : x = path := Option.some.inj hpath
      exact hname _ hx (.inr hfree)
  | literal => exact fun _ hpath => by cases hpath
  | parenthesized _ ih =>
    exact ih fun token htoken => hwords token
      (List.mem_cons_of_mem _ (List.mem_append_left _ htoken))
  | @member object w remarks x optional s e head set ih =>
    intro path hpath
    obtain ⟨front, hfront, rfl, -⟩ := Expr.path?_member hpath
    have hhead := ih (fun token htoken => hwords token (List.mem_append_left _ htoken)) front hfront
    exact hmember _ _ hhead (hwords ⟨.word x, e⟩ (by simp) x rfl)
  | index | call | array => exact fun _ hpath => by cases hpath
  | @whole frames last w v front operand _ ih =>
    intro path hpath
    -- only an operand without operations is a path
    cases frames with
    | nil => exact ih (fun token htoken => hwords token (List.mem_append_right _ htoken)) path hpath
    | cons frame frames =>
      rw [path?_of_isOperation (isOperation_close front.isPending last)] at hpath
      cases hpath
  | _ => trivial

/-- It holds of the path of a reference. -/
theorem spelled_of_writes {written : List Token} {r : Reference} (h : Writes written r)
    (hwords : ∀ token ∈ written, ∀ x, token.shape = .word x → Word x) : P r.path := by
  cases h with
  | @name x s free => exact hname _ (hwords _ (List.mem_singleton_self _) x rfl) (.inr free)
  | @dotted object w remarks head x s e front path set =>
    have hhead := spelled_of_reads hname hmember front
      (fun token htoken => hwords token (List.mem_append_left _ htoken)) head path
    exact hmember _ _ hhead (hwords ⟨.word x, e⟩ (by simp) x rfl)

/-- **It holds of all paths of an accepted text.** -/
theorem spelled_of_parse {t : Text} {e : Expr} (h : parse t = .ok e) {r : Reference}
    (hr : r ∈ e.references) : P r.path := by
  obtain ⟨o, slots, now, -, -, hlexed, hleads, -, hreferences, -⟩ :=
    exists_slots h always (fun _ _ _ => rfl) id
  obtain ⟨written, hslot, hwrites⟩ := hleads.writes r (by
    rw [hreferences]
    exact List.mem_filter.mpr ⟨hr, rfl⟩)
  refine spelled_of_writes hname hmember hwrites fun token htoken => hlexed.words token ?_
  exact List.mem_flatMap.mpr ⟨_, hslot, htoken⟩

end Paths

/-- The paths of an accepted text consist of words. -/
theorem dotted_of_parse {t : Text} {e : Expr} (h : parse t = .ok e) {r : Reference}
    (hr : r ∈ e.references) : Dotted r.path :=
  spelled_of_parse (fun _ word _ => .name word) (fun _ _ front word => .member front word) h hr

/-! ## Names are words -/

section Separator

variable {separator : Text}

/-- The separator consists of underscores. -/
def IsUnderscores (separator : Text) : Prop :=
  separator ≠ [] ∧ ∀ c ∈ separator, c = '_'

theorem IsUnderscores.wordTail (h : IsUnderscores separator) : WordTail separator := by
  refine wordTail_of_parts fun c hc => ?_
  rw [h.2 c hc]
  decide

theorem IsUnderscores.mem (h : IsUnderscores separator) : '_' ∈ separator := by
  obtain ⟨c, hc⟩ := List.exists_mem_of_ne_nil _ h.1
  rwa [← h.2 c hc]

/-- A text without dots is flat. -/
theorem flatten_of_dot_notMem {x : Text} (h : '.' ∉ x) : flatten x separator = x := by
  induction x with
  | nil => rfl
  | cons c x ih =>
    rw [List.mem_cons, not_or] at h
    have hc : (c == '.') = false := beq_eq_false_iff_ne.mpr (Ne.symm h.1)
    have hrest := ih h.2
    rw [flatten, Text.replaceChar] at hrest ⊢
    rw [List.flatMap_cons, hrest, hc, if_neg Bool.false_ne_true, List.singleton_append]

theorem flatten_member (head x : Text) :
    flatten (head ++ '.' :: x) separator = flatten head separator ++ (separator ++ flatten x separator) := by
  simp [flatten, Text.replaceChar]

/-- Flattened paths are words if the separator goes on with a word. -/
theorem Dotted.word_flatten {path : Text} (h : Dotted path) (hseparator : WordTail separator) :
    Word (flatten path separator) := by
  induction h with
  | name word =>
    rw [flatten_of_dot_notMem word.wordTail.dot_notMem]
    exact word
  | member _ word ih =>
    rw [flatten_member, flatten_of_dot_notMem word.wordTail.dot_notMem]
    exact ih.append (hseparator.append word.wordTail)

/-- Candidates are words if the flat name is one. -/
theorem word_candidate {flat : Text} (h : Word flat) (n : Nat) : Word (candidate flat n) := by
  cases n with
  | zero => exact h
  | succ n =>
    refine h.append (wordTail_of_parts fun c hc => ?_)
    rcases List.mem_cons.mp hc with rfl | hc
    · decide
    · exact isWordPart_of_isDigit (Nat.isDigit_of_mem_toDigits (by decide) (by decide) hc)

end Separator

section Names

variable {scope : Scope} {repeats : List Text} {t : Text} {e : Expr} {r : Reference}

/-- The name of a passed path is a word. -/
theorem word_nameOf (hparse : parse t = .ok e) (hseparator : WordTail scope.separator)
    (hr : r ∈ e.references) (hkept : isKept scope repeats r = true) :
    Word (nameOf (parameters scope repeats e.references) r.path) := by
  have hpath := dotted_of_parse hparse hr
  obtain ⟨hplain, hself⟩ | ⟨-, -, n, hn⟩ := nameOf_passed hr hkept
  · rw [hself]
    exact hpath.word (dot_notMem_of_plain hplain)
  · rw [hn]
    exact word_candidate (hpath.word_flatten hseparator) n

/-- **The name of a passed path can stand in its place.** -/
theorem suits_nameOf (hparse : parse t = .ok e) (hseparator : IsUnderscores scope.separator)
    (hr : r ∈ e.references) (hkept : isKept scope repeats r = true) :
    Suits (nameOf (parameters scope repeats e.references)) r := by
  have hword := word_nameOf hparse hseparator.wordTail hr hkept
  obtain ⟨hplain, hself⟩ | ⟨hdotted, -, n, hn⟩ := nameOf_passed hr hkept
  · have hdot := dot_notMem_of_plain hplain
    refine ⟨hword, ?_, ?_, fun h => absurd h hdot⟩
    · rw [hself]
      exact isReserved_of_plain hparse hr hdot
    · rw [hself]
      exact id
  · have hmem := underscore_mem_candidate hdotted hseparator.mem n
    rw [← hn] at hmem
    refine ⟨hword, isReserved_of_underscore hmem, fun hawait => ?_, fun _ => hmem⟩
    rw [hawait] at hmem
    exact absurd hmem (by decide)

/-- A plain path keeps its name. -/
theorem nameOf_of_plain (hr : r ∈ e.references) (hkept : isKept scope repeats r = true)
    (hdot : '.' ∉ r.path) : nameOf (parameters scope repeats e.references) r.path = r.path := by
  obtain ⟨-, hself⟩ | ⟨hdotted, -⟩ := nameOf_passed hr hkept
  · exact hself
  · exact absurd (List.contains_iff_mem.mp hdotted) hdot

end Names

/-! ## The body -/

/-- Names leave some character that is no blank. -/
theorem exists_not_blank {name : Text → Text} {position : Nat} {now : Expecting} {wide : Bool}
    {t s : Text} {slots : List Slot} (h : Pieced always name position now wide t slots s)
    (hlong : ∀ r ∈ slots.filterMap Slot.reference?, '.' ∈ r.path → '_' ∈ name r.path)
    (hplain : ∀ r ∈ slots.filterMap Slot.reference?, '.' ∉ r.path → name r.path = r.path) :
    ∀ c ∈ t, Text.isBlank c = false → ∃ d ∈ s, Text.isBlank d = false := by
  induction h with
  | done => exact fun c hc hblank => ⟨c, hc, hblank⟩
  | keep _ _ _ _ _ _ ih =>
    intro c hc hblank
    simp only [List.mem_append] at hc ⊢
    rcases hc with hc | hc | hc
    · exact ⟨c, .inl hc, hblank⟩
    · exact ⟨c, .inr (.inl hc), hblank⟩
    · obtain ⟨d, hd, hd'⟩ := ih hlong hplain c hc hblank
      exact ⟨d, .inr (.inr hd), hd'⟩
  | @swap _ _ _ _ _ g u _ _ _ r slots _ stretch writes _ _ _ ih =>
    intro c hc hblank
    rw [replacement, always, if_pos rfl]
    simp only [List.mem_append] at hc ⊢
    rcases hc with hc | hc | hc
    · exact ⟨c, .inl hc, hblank⟩
    · by_cases hdot : '.' ∈ r.path
      · exact ⟨'_', .inr (.inl (hlong r (List.mem_cons_self ..) hdot)), by decide⟩
      · obtain ⟨rfl, -⟩ := writes.plain_or_dotted.resolve_right hdot
        rw [hplain r (List.mem_cons_self ..) hdot, ← stretch.eq_of_word]
        exact ⟨c, .inr (.inl hc), hblank⟩
    · obtain ⟨d, hd, hd'⟩ := ih (fun r hr => hlong r (List.mem_cons_of_mem _ hr))
        (fun r hr => hplain r (List.mem_cons_of_mem _ hr)) c hc hblank
      exact ⟨d, .inr (.inr hd), hd'⟩

/-- **When the body is read as the expression after substitution**: exactly if no passed reference
stands directly behind a character of a word. -/
theorem parse_renamedBody_iff {t : Text} {e : Expr} (hparse : parse t = .ok e) {scope : Scope}
    (hseparator : IsUnderscores scope.separator) (repeats : List Text) :
    (∃ e', parse (renamedBody scope repeats e.references t) = .ok e' ∧
        e'.bare = (e.substitute (isKept scope repeats)
          (nameOf (parameters scope repeats e.references))).bare) ↔
      ∀ r ∈ e.references, isKept scope repeats r = true → Clear 0 t r.span.start := by
  let name := nameOf (parameters scope repeats e.references)
  obtain ⟨o, slots, now, rfl, hlevels, hlexed, hleads, hreads, hreferences, htwin⟩ :=
    exists_slots hparse _ (isKept_dependsOnRoot scope repeats) name
  have hpassed : ∀ r ∈ slots.filterMap Slot.reference?,
      r ∈ o.expr.references ∧ isKept scope repeats r = true := by
    intro r hr
    rw [hreferences] at hr
    exact List.mem_filter.mp hr
  have hname : ∀ r ∈ slots.filterMap Slot.reference?, Suits name r := fun r hr =>
    suits_nameOf hparse hseparator (hpassed r hr).1 (hpassed r hr).2
  obtain ⟨s, hpieced⟩ := exists_pieced always name hlexed hleads
  obtain ⟨n, w, hlexed', hfused, hclear⟩ := hpieced.lexed hname 0
  have htokens : tokens? s = some w := tokensFrom_iff.mpr hlexed'
  have hbody : renamedBody scope repeats o.expr.references t = s := by
    have hspliced := (replaced_of_pieced hpieced).spliced
    rw [hreferences, show List.filter always _ = _ from List.filter_true _] at hspliced
    rw [renamedBody, Renaming.applyAll_spliced hspliced]
    rfl
  have hcondition : (∀ r ∈ slots.filterMap Slot.reference?, Clear 0 t r.span.start) ↔
      ∀ r ∈ o.expr.references, isKept scope repeats r = true → Clear 0 t r.span.start := by
    rw [hreferences]
    simp only [List.mem_filter, and_imp]
  rw [hbody, ← hcondition, ← hclear]
  constructor
  · -- an operator that is lost is missing in the expression
    rintro ⟨e', hparse', hbare⟩
    obtain ⟨-, w', o', htokens', hreads', -, rfl⟩ := parse_eq_ok_iff.mp hparse'
    obtain rfl : w = w' := Option.some.inj (htokens.symm.trans htokens')
    have hbody : o'.expr.wordOperators = wordOperatorsIn w := hreads'.wordOperators
    have htext : o.expr.wordOperators = wordOperatorsIn (slots.flatMap Slot.tokens) :=
      hreads.wordOperators
    have hsame := congrArg Expr.wordOperators hbare
    rw [Expr.wordOperators_bare, Expr.wordOperators_bare, Expr.wordOperators_substitute, hbody, htext,
      ← hfused.wordOperatorsIn] at hsame
    omega
  · rintro rfl
    obtain ⟨o', htwin', hreads'⟩ := htwin w hlexed'.ordered.1 hfused.renamed
    obtain ⟨hblank, -⟩ := parse_eq_ok_iff.mp hparse
    have hblank' : s.allBlank = false := by
      obtain ⟨c, hc, hcblank⟩ := List.all_eq_false.mp hblank
      obtain ⟨d, hd, hdblank⟩ := exists_not_blank hpieced (fun r hr => (hname r hr).long)
        (fun r hr => nameOf_of_plain (hpassed r hr).1 (hpassed r hr).2) c hc
        (Bool.eq_false_iff.mpr hcblank)
      exact List.all_eq_false.mpr ⟨d, hd, Bool.eq_false_iff.mp hdblank⟩
    exact ⟨o'.expr, parse_eq_ok_iff.mpr ⟨hblank', w, o', htokens, hreads',
      htwin'.levels.trans hlevels, rfl⟩, htwin'.bare⟩

/-- **The function that a synthesis keeps has the expression of the binding as its body**, with the
parameter of its path for each passed reference, exactly if no passed reference stands directly
behind a character of a word. -/
theorem synthesize_sound_iff {t : Text} {e : Expr} (hparse : parse t = .ok e) (htrim : t.trim = t)
    {scope : Scope} (hseparator : IsUnderscores scope.separator) (repeats : List Text) :
    ∃ name f, f.name = scope.functionPrefix ++ Scope.numeral scope.counter ∧
      Stores f scope.functions (synthesize t e repeats scope).2.functions ∧
      f.parameters = (passedPaths scope repeats e).map name ∧
      ((∃ e', parse f.body = .ok e' ∧
          e'.bare = (e.substitute (isKept scope repeats) name).bare) ↔
        ∀ r ∈ e.references, isKept scope repeats r = true → Clear 0 t r.span.start) := by
  obtain ⟨-, hgains⟩ := gains_synthesize t e repeats scope
  refine ⟨nameOf (parameters scope repeats e.references),
    Computation.definition ⟨t.trim, e, repeats⟩ scope (scope.functionName scope.counter), rfl, ?_,
    values_assign, ?_⟩
  · rw [hgains.functions]
    exact stores_putFunction ..
  · rw [htrim]
    exact parse_renamedBody_iff hparse hseparator repeats

/-- An operator and a path with a blank between them. -/
def apartText : Text :=
  "typeof a.b".toList

/-- The expression of the text. -/
def apartExpr : Expr :=
  .unary ⟨0, 10⟩ .typeof (.member ⟨7, 10⟩ (.identifier ⟨7, 8⟩ ['a']) ['b'] false)

theorem parse_apartText : parse apartText = .ok apartExpr :=
  parse_eq_ok (w := [⟨.mark (.unary .typeof), 0, 6⟩, ⟨.word ['a'], 7, 8⟩, ⟨.mark .dot, 8, 9⟩,
      ⟨.word ['b'], 9, 10⟩])
    (o := ⟨apartExpr, ⟨0, 10⟩, 2⟩) (by decide) (by decide +kernel) rfl (by decide)

/-- The body is the operation on the parameter. -/
theorem sound_apartText :
    (∃ name f, f.name = knownScope.functionPrefix ++ Scope.numeral knownScope.counter ∧
      Stores f knownScope.functions (synthesize apartText apartExpr [] knownScope).2.functions ∧
      f.parameters = (passedPaths knownScope [] apartExpr).map name ∧
      ((∃ e', parse f.body = .ok e' ∧
          e'.bare = (apartExpr.substitute (isKept knownScope []) name).bare) ↔
        ∀ r ∈ apartExpr.references, isKept knownScope [] r = true →
          Clear 0 apartText r.span.start)) ∧
      (synthesize apartText apartExpr [] knownScope).2.functions =
        [⟨"__c_0".toList, ["a__b".toList], "typeof a__b".toList⟩] :=
  ⟨synthesize_sound_iff parse_apartText (by decide) ⟨by decide, by decide⟩ [], by decide +kernel⟩

/-- An operator and an object in parentheses directly behind it. -/
def behindText : Text :=
  "typeof(a).b".toList

/-- The expression of the text. -/
def behindExpr : Expr :=
  .unary ⟨0, 11⟩ .typeof (.member ⟨6, 11⟩ (.identifier ⟨7, 8⟩ ['a']) ['b'] false)

/-- The operator is lost in the name then: the body is an identifier that is no parameter. -/
theorem not_sound_behindText :
    parse behindText = .ok behindExpr ∧ behindText.trim = behindText ∧
      (synthesize behindText behindExpr [] knownScope).2.functions =
        [⟨"__c_0".toList, ["a__b".toList], "typeofa__b".toList⟩] ∧
      ∀ e', parse "typeofa__b".toList = .ok e' →
        e'.bare ≠ (behindExpr.substitute (isKept knownScope []) fun _ => "a__b".toList).bare := by
  have hbehind : parse behindText = .ok behindExpr :=
    parse_eq_ok (w := [⟨.mark (.unary .typeof), 0, 6⟩, ⟨.mark .openParen, 6, 7⟩,
        ⟨.word ['a'], 7, 8⟩, ⟨.mark .closeParen, 8, 9⟩, ⟨.mark .dot, 9, 10⟩, ⟨.word ['b'], 10, 11⟩])
      (o := ⟨behindExpr, ⟨0, 11⟩, 3⟩) (by decide) (by decide +kernel) rfl (by decide)
  have hbody : parse "typeofa__b".toList = .ok (.identifier ⟨0, 10⟩ "typeofa__b".toList) :=
    parse_eq_ok (w := [⟨.word "typeofa__b".toList, 0, 10⟩])
      (o := ⟨.identifier ⟨0, 10⟩ "typeofa__b".toList, ⟨0, 10⟩, 0⟩) (by decide) (by decide +kernel)
      rfl (by decide)
  refine ⟨hbehind, by decide, by decide +kernel, fun e' he' => ?_⟩
  obtain rfl := Except.ok.inj (hbody.symm.trans he')
  rw [behindExpr, Expr.substitute_unary]
  intro h
  cases h

end DataBinding.Synthesis
