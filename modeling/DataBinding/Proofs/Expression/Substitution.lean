/-
# Substituting names for paths

What an expression becomes when some of the paths it reads are replaced by names.  The replaced paths
are those that `references` lists; everything else stays.

* `Expr.bare`          : an expression without its spans.
* `Expr.substitute`    : names in the place of the references that are chosen.
* `Expr.wordOperators` : how many operators of an expression are spelled as words; substitution does
  not change it.
-/
import DataBinding.Expression.Reference

namespace DataBinding

namespace Expression

/-- The operator is spelled as a word. -/
def UnaryOperator.isWord : UnaryOperator → Bool
  | typeof | void | delete => true
  | _ => false

/-- The operator is spelled as a word. -/
def BinaryOperator.isWord : BinaryOperator → Bool
  | instanceOf | inside => true
  | _ => false

end Expression

namespace Expr

/-! ## Expressions without spans -/

/-- The stretch of text that stands for every other. -/
def nowhere : Span :=
  ⟨0, 0⟩

mutual

/-- The expression without its spans. -/
def bare : Expr → Expr
  | identifier _ name => identifier nowhere name
  | this _ => this nowhere
  | literal _ raw => literal nowhere raw
  | member _ object property optional => member nowhere (bare object) property optional
  | index _ object position optional => index nowhere (bare object) (bare position) optional
  | call _ callee arguments => call nowhere (bare callee) (bareAll arguments)
  | unary _ op argument => unary nowhere op (bare argument)
  | binary _ op left right => binary nowhere op (bare left) (bare right)
  | conditional _ test consequent alternate =>
    conditional nowhere (bare test) (bare consequent) (bare alternate)
  | array _ elements => array nowhere (bareAll elements)

/-- Several expressions without their spans. -/
def bareAll : List Expr → List Expr
  | [] => []
  | e :: es => bare e :: bareAll es

end

/-! ## Substitution -/

section Substitution

variable (chosen : Reference → Bool) (name : Text → Text)

mutual

/-- The expression with a name for each of its references that is chosen. -/
def substitute (e : Expr) : Expr :=
  match path? e with
  | some path =>
    if path != thisName && chosen ⟨path, e.span⟩ then identifier e.span (name path) else e
  | none =>
    match e with
    | identifier _ _ | this _ | literal _ _ => e
    | member s object property optional => member s (substitute object) property optional
    | index s object position optional => index s (substitute object) (substitute position) optional
    | call s (member s' object property optional) arguments =>
      call s (member s' (substitute object) property optional) (substituteAll arguments)
    | call s callee arguments => call s (substitute callee) (substituteAll arguments)
    | unary s op argument => unary s op (substitute argument)
    | binary s op left right => binary s op (substitute left) (substitute right)
    | conditional s test consequent alternate =>
      conditional s (substitute test) (substitute consequent) (substitute alternate)
    | array s elements => array s (substituteAll elements)

/-- Several expressions with names for their references that are chosen. -/
def substituteAll : List Expr → List Expr
  | [] => []
  | e :: es => substitute e :: substituteAll es

end

end Substitution

/-! ## Views of an operand -/

/-- How an operand is used: for its value, or as what is called. -/
inductive View where
  | value
  | callee

/-- The references of an operand.  What is called as a method is not read itself, its object is. -/
def referencesIn : View → Expr → List Reference
  | .callee, member _ object _ _ => references object
  | _, e => references e

/-- The operand with names for its references that are chosen. -/
def substituteIn (chosen : Reference → Bool) (name : Text → Text) : View → Expr → Expr
  | .callee, member s object property optional =>
    member s (substitute chosen name object) property optional
  | _, e => substitute chosen name e

/-- The expression accesses a named member. -/
def isMember : Expr → Bool
  | member _ _ _ _ => true
  | _ => false

/-- The expression is an operation on others. -/
def isOperation : Expr → Bool
  | unary _ _ _ | binary _ _ _ _ | conditional _ _ _ _ => true
  | _ => false

theorem isMember_of_isOperation {e : Expr} (h : e.isOperation = true) : e.isMember = false := by
  cases e <;> first | rfl | cases h

variable {chosen : Reference → Bool} {name : Text → Text}

theorem referencesIn_of_not_member {e : Expr} (h : e.isMember = false) (view : View) :
    referencesIn view e = references e := by
  cases view <;> cases e <;> first | rfl | cases h

theorem substituteIn_of_not_member {e : Expr} (h : e.isMember = false) (view : View) :
    substituteIn chosen name view e = substitute chosen name e := by
  cases view <;> cases e <;> first | rfl | cases h

/-! ## References and substitution, construct by construct -/

/-- The path of a member is the path of its object and the name. -/
theorem path?_member {s : Span} {object : Expr} {property path : Text} {optional : Bool}
    (h : path? (member s object property optional) = some path) :
    ∃ head, path? object = some head ∧ path = head ++ '.' :: property ∧ optional = false := by
  cases optional with
  | true => cases h
  | false =>
    rw [path?, Option.map_eq_some_iff] at h
    obtain ⟨head, hhead, rfl⟩ := h
    exact ⟨head, hhead, rfl, rfl⟩

theorem references_of_path {e : Expr} {path : Text} (h : path? e = some path) :
    references e = if path == thisName then [] else [⟨path, e.span⟩] := by
  rw [references.eq_def, h]

theorem substitute_of_path {e : Expr} {path : Text} (h : path? e = some path) :
    substitute chosen name e =
      if path != thisName && chosen ⟨path, e.span⟩ then identifier e.span (name path) else e := by
  rw [substitute.eq_def, h]

theorem references_member {s : Span} {object : Expr} {property : Text} {optional : Bool}
    (h : path? (member s object property optional) = none) :
    references (member s object property optional) = references object := by
  rw [references.eq_def, h]

theorem substitute_member {s : Span} {object : Expr} {property : Text} {optional : Bool}
    (h : path? (member s object property optional) = none) :
    substitute chosen name (member s object property optional) =
      member s (substitute chosen name object) property optional := by
  rw [substitute.eq_def, h]

theorem references_call (s : Span) (callee : Expr) (arguments : List Expr) :
    references (call s callee arguments) =
      referencesIn .callee callee ++ referencesAll arguments := by
  cases callee <;> rfl

theorem substitute_call (s : Span) (callee : Expr) (arguments : List Expr) :
    substitute chosen name (call s callee arguments) =
      call s (substituteIn chosen name .callee callee) (substituteAll chosen name arguments) := by
  cases callee <;> rfl

theorem substitute_index (s : Span) (object position : Expr) (optional : Bool) :
    substitute chosen name (index s object position optional) =
      index s (substitute chosen name object) (substitute chosen name position) optional :=
  rfl

theorem references_unary (s : Span) (op : Expression.UnaryOperator) (argument : Expr) :
    references (unary s op argument) = references argument :=
  rfl

theorem substitute_unary (s : Span) (op : Expression.UnaryOperator) (argument : Expr) :
    substitute chosen name (unary s op argument) = unary s op (substitute chosen name argument) :=
  rfl

theorem references_binary (s : Span) (op : Expression.BinaryOperator) (left right : Expr) :
    references (binary s op left right) = references left ++ references right :=
  rfl

theorem substitute_binary (s : Span) (op : Expression.BinaryOperator) (left right : Expr) :
    substitute chosen name (binary s op left right) =
      binary s op (substitute chosen name left) (substitute chosen name right) :=
  rfl

theorem references_conditional (s : Span) (test consequent alternate : Expr) :
    references (conditional s test consequent alternate) =
      references test ++ references consequent ++ references alternate :=
  rfl

theorem substitute_conditional (s : Span) (test consequent alternate : Expr) :
    substitute chosen name (conditional s test consequent alternate) =
      conditional s (substitute chosen name test) (substitute chosen name consequent)
        (substitute chosen name alternate) :=
  rfl

theorem references_array (s : Span) (elements : List Expr) :
    references (array s elements) = referencesAll elements :=
  rfl

theorem substitute_array (s : Span) (elements : List Expr) :
    substitute chosen name (array s elements) = array s (substituteAll chosen name elements) :=
  rfl

/-- The references of several expressions are those of each. -/
theorem referencesAll_eq (es : List Expr) : referencesAll es = es.flatMap references := by
  induction es with
  | nil => rfl
  | cons e es ih => rw [referencesAll, ih, List.flatMap_cons]

/-! ## Paths that are left alone -/

/-- The choice of a reference depends on where its path starts only. -/
def DependsOnRoot (chosen : Reference → Bool) : Prop :=
  ∀ r r' : Reference, r.root = r'.root → chosen r = chosen r'

/-- A longer path starts where the shorter one does. -/
theorem root_extend (head property : Text) (s s' : Span) :
    Reference.root ⟨head ++ '.' :: property, s⟩ = Reference.root ⟨head, s'⟩ := by
  show List.takeWhile (· != '.') (head ++ '.' :: property) = List.takeWhile (· != '.') head
  induction head with
  | nil => rfl
  | cons c head ih =>
    rw [List.cons_append, List.takeWhile_cons, List.takeWhile_cons, ih]

/-- A path without a dot is its root. -/
theorem root_of_dot_notMem {path : Text} (h : '.' ∉ path) : Path.root path = path := by
  induction path with
  | nil => rfl
  | cons c path ih =>
    rw [List.mem_cons, not_or] at h
    show List.takeWhile (· != '.') (c :: path) = c :: path
    rw [List.takeWhile_cons, if_pos (bne_iff_ne.mpr (Ne.symm h.1))]
    exact congrArg (c :: ·) (ih h.2)

/-- The path of `this` has no dot. -/
theorem dot_notMem_thisName : '.' ∉ thisName := by
  decide

/-- A path with a dot is not `this`. -/
theorem extend_ne_thisName (head property : Text) :
    (head ++ '.' :: property == thisName) = false := by
  rw [beq_eq_false_iff_ne]
  intro h
  exact dot_notMem_thisName (h ▸ List.mem_append_right _ (List.mem_cons_self ..))

variable {s : Span} {object : Expr} {property : Text} {optional : Bool}

/-- Where the path of a member is not chosen, the path of its object is not either. -/
theorem filter_references_member (hroot : DependsOnRoot chosen)
    (h : ∀ path, path? (member s object property optional) = some path → chosen ⟨path, s⟩ = false) :
    (references (member s object property optional)).filter chosen =
      (references object).filter chosen := by
  cases hpath : path? (member s object property optional) with
  | none => rw [references_member hpath]
  | some path =>
    obtain ⟨head, hhead, rfl, -⟩ := path?_member hpath
    have hchosen := h _ hpath
    have hobject : chosen ⟨head, object.span⟩ = false := by
      rw [← hchosen]
      exact hroot _ _ (root_extend ..).symm
    rw [references_of_path hpath, references_of_path hhead, extend_ne_thisName]
    show List.filter chosen [⟨_, s⟩] = _
    rw [List.filter_cons_of_neg (by rw [hchosen]; decide), List.filter_nil]
    split
    · rfl
    · rw [List.filter_cons_of_neg (by rw [hobject]; decide), List.filter_nil]

/-- Where the path of a member is not chosen, substitution goes on in its object. -/
theorem substitute_member_of_not_chosen (hroot : DependsOnRoot chosen)
    (h : ∀ path, path? (member s object property optional) = some path → chosen ⟨path, s⟩ = false) :
    substitute chosen name (member s object property optional) =
      member s (substitute chosen name object) property optional := by
  cases hpath : path? (member s object property optional) with
  | none => rw [substitute_member hpath]
  | some path =>
    obtain ⟨head, hhead, rfl, -⟩ := path?_member hpath
    have hchosen := h _ hpath
    have hobject : chosen ⟨head, object.span⟩ = false := by
      rw [← hchosen]
      exact hroot _ _ (root_extend ..).symm
    rw [substitute_of_path hpath, substitute_of_path hhead, hobject]
    show (if (_ && chosen ⟨_, s⟩) = true then _ else _) = _
    rw [hchosen, Bool.and_false, Bool.and_false]
    rfl

/-! ## Operators spelled as words -/

mutual

/-- The number of operators spelled as words. -/
def wordOperators : Expr → Nat
  | identifier _ _ | this _ | literal _ _ => 0
  | member _ object _ _ => wordOperators object
  | index _ object position _ => wordOperators object + wordOperators position
  | call _ callee arguments => wordOperators callee + wordOperatorsAll arguments
  | unary _ op argument => op.isWord.toNat + wordOperators argument
  | binary _ op left right => op.isWord.toNat + wordOperators left + wordOperators right
  | conditional _ test consequent alternate =>
    wordOperators test + wordOperators consequent + wordOperators alternate
  | array _ elements => wordOperatorsAll elements

/-- The number of operators spelled as words in several expressions. -/
def wordOperatorsAll : List Expr → Nat
  | [] => 0
  | e :: es => wordOperators e + wordOperatorsAll es

end

mutual

/-- Spans do not count. -/
theorem wordOperators_bare : ∀ e : Expr, (bare e).wordOperators = e.wordOperators
  | identifier _ _ | this _ | literal _ _ => rfl
  | member _ object _ _ => wordOperators_bare object
  | index _ object position _ => by
    rw [bare, wordOperators, wordOperators, wordOperators_bare object, wordOperators_bare position]
  | call _ callee arguments => by
    rw [bare, wordOperators, wordOperators, wordOperators_bare callee,
      wordOperatorsAll_bare arguments]
  | unary _ _ argument => by rw [bare, wordOperators, wordOperators, wordOperators_bare argument]
  | binary _ _ left right => by
    rw [bare, wordOperators, wordOperators, wordOperators_bare left, wordOperators_bare right]
  | conditional _ test consequent alternate => by
    rw [bare, wordOperators, wordOperators, wordOperators_bare test, wordOperators_bare consequent,
      wordOperators_bare alternate]
  | array _ elements => by rw [bare, wordOperators, wordOperators, wordOperatorsAll_bare elements]

/-- Spans of several expressions do not count. -/
theorem wordOperatorsAll_bare : ∀ es : List Expr, wordOperatorsAll (bareAll es) = wordOperatorsAll es
  | [] => rfl
  | e :: es => by
    rw [bareAll, wordOperatorsAll, wordOperatorsAll, wordOperators_bare e, wordOperatorsAll_bare es]

end

/-- A path has no operators. -/
theorem wordOperators_of_path {e : Expr} {path : Text} (h : path? e = some path) :
    e.wordOperators = 0 := by
  fun_induction path? e generalizing path with
  | case1 | case2 => rfl
  | case3 _ object property ih =>
    rw [Option.map_eq_some_iff] at h
    obtain ⟨head, hhead, -⟩ := h
    exact ih hhead
  | case4 => cases h

/-- A substituted path has no operators. -/
theorem wordOperators_substitute_of_path {e : Expr} {path : Text} (h : path? e = some path) :
    (substitute chosen name e).wordOperators = e.wordOperators := by
  rw [substitute_of_path h]
  split
  · exact (wordOperators_of_path h).symm
  · rfl

/-- Whatever is used for its value or called keeps its operators together. -/
theorem wordOperators_substituteIn {e : Expr}
    (h : (substitute chosen name e).wordOperators = e.wordOperators) (view : View) :
    (substituteIn chosen name view e).wordOperators = e.wordOperators := by
  cases hmember : e.isMember with
  | false => rwa [substituteIn_of_not_member hmember]
  | true =>
    cases e <;> cases hmember
    rename_i s object property optional
    cases view with
    | value => exact h
    | callee =>
      show (substitute chosen name object).wordOperators = object.wordOperators
      cases hpath : path? (member s object property optional) with
      | none => rwa [substitute_member hpath] at h
      | some path =>
        obtain ⟨head, hhead, -⟩ := path?_member hpath
        exact wordOperators_substitute_of_path hhead

mutual

/-- Substitution keeps the operators. -/
theorem wordOperators_substitute : ∀ e : Expr,
    (substitute chosen name e).wordOperators = e.wordOperators
  | identifier _ _ => wordOperators_substitute_of_path rfl
  | this _ => wordOperators_substitute_of_path rfl
  | literal _ _ => rfl
  | member s object property optional => by
    cases h : path? (member s object property optional) with
    | some path => exact wordOperators_substitute_of_path h
    | none =>
      rw [substitute_member h, wordOperators, wordOperators, wordOperators_substitute object]
  | index s object position optional => by
    rw [substitute_index, wordOperators, wordOperators, wordOperators_substitute object,
      wordOperators_substitute position]
  | call s callee arguments => by
    rw [substitute_call, wordOperators, wordOperators,
      wordOperators_substituteIn (wordOperators_substitute callee),
      wordOperatorsAll_substitute arguments]
  | unary s op argument => by
    rw [substitute_unary, wordOperators, wordOperators, wordOperators_substitute argument]
  | binary s op left right => by
    rw [substitute_binary, wordOperators, wordOperators, wordOperators_substitute left,
      wordOperators_substitute right]
  | conditional s test consequent alternate => by
    rw [substitute_conditional, wordOperators, wordOperators, wordOperators_substitute test,
      wordOperators_substitute consequent, wordOperators_substitute alternate]
  | array s elements => by
    rw [substitute_array, wordOperators, wordOperators, wordOperatorsAll_substitute elements]

/-- Substitution keeps the operators of several expressions. -/
theorem wordOperatorsAll_substitute : ∀ es : List Expr,
    wordOperatorsAll (substituteAll chosen name es) = wordOperatorsAll es
  | [] => rfl
  | e :: es => by
    rw [substituteAll, wordOperatorsAll, wordOperatorsAll, wordOperators_substitute e,
      wordOperatorsAll_substitute es]

end

end Expr
end DataBinding
