/-
# Names and references

The identifiers of an expression, and the places of `this`, are its leaves that can be read from a
scope.  Each identifier belongs to one reference, whatever construct it stands in, and each reference
starts at one leaf: no name of an expression is missed by its paths.

* `Leaf`               : an identifier or `this`.
* `Owned`              : leaves and references in a row, each reference with its leaf inside.
* `Laid.owned`         : the leaves and the references of an expression are in such a row.
* `idxOf_eraseDups`    : distinct entries of a list keep the order of their first places.
* `paths_cover_leaves` : names, references and paths of an accepted text.
-/
import DataBinding.Proofs.Expression.Extents

namespace DataBinding

/-! ## Leaves -/

/-- An identifier, or `this`. -/
inductive Leaf where
  | name (span : Span) (x : Text)
  | this (span : Span)
  deriving DecidableEq

namespace Leaf

/-- The stretch of text of the leaf. -/
def span : Leaf → Span
  | name s _ | this s => s

/-- The name that the leaf is looked up by. -/
def root : Leaf → Text
  | name _ x => x
  | this _ => Expr.thisName

/-- The leaf stands for an identifier. -/
def isName : Leaf → Bool
  | name _ _ => true
  | this _ => false

/-- An identifier has another name than `this`. -/
def Plain (leaf : Leaf) : Prop :=
  leaf.isName = true → leaf.root ≠ Expr.thisName

/-- The leaf lies in the stretch of a reference. -/
def within (leaf : Leaf) (r : Reference) : Bool :=
  r.span.start ≤ leaf.span.start && leaf.span.stop ≤ r.span.stop

end Leaf

namespace Expr

mutual

/-- The identifiers in an expression and the places of `this`, from left to right. -/
def leaves : Expr → List Leaf
  | identifier s x => [.name s x]
  | this s => [.this s]
  | literal _ _ => []
  | member _ object _ _ => leaves object
  | index _ object position _ => leaves object ++ leaves position
  | call _ callee arguments => leaves callee ++ leavesAll arguments
  | unary _ _ argument => leaves argument
  | binary _ _ left right => leaves left ++ leaves right
  | conditional _ test consequent alternate => leaves test ++ leaves consequent ++ leaves alternate
  | array _ elements => leavesAll elements

/-- The leaves of several expressions in order. -/
def leavesAll : List Expr → List Leaf
  | [] => []
  | e :: es => leaves e ++ leavesAll es

end

end Expr

/-! ## Leaves in references -/

/-- Leaves and references in a row between two bytes.  A reference holds one leaf, which its path
starts with, and only `this` stands outside of references. -/
inductive Owned : Nat → List Leaf → List Reference → Nat → Prop
  | done {start stop : Nat} (hle : start ≤ stop) : Owned start [] [] stop
  | free {start stop : Nat} {s : Span} {leaves : List Leaf} {references : List Reference}
      (hstart : start ≤ s.start) (written : s.start < s.stop)
      (rest : Owned s.stop leaves references stop) : Owned start (.this s :: leaves) references stop
  | reference {start stop : Nat} {leaf : Leaf} {r : Reference} {leaves : List Leaf}
      {references : List Reference} (hstart : start ≤ r.span.start)
      (left : r.span.start ≤ leaf.span.start) (written : leaf.span.start < leaf.span.stop)
      (right : leaf.span.stop ≤ r.span.stop) (root : leaf.root = r.root) (plain : leaf.Plain)
      (rest : Owned r.span.stop leaves references stop) :
      Owned start (leaf :: leaves) (r :: references) stop

namespace Owned

variable {start stop start' stop' : Nat} {leaves : List Leaf} {references : List Reference}

theorem le (h : Owned start leaves references stop) : start ≤ stop := by
  induction h with
  | done hle => exact hle
  | free => omega
  | reference => omega

theorem widen (h : Owned start leaves references stop) (hstart : start' ≤ start)
    (hstop : stop ≤ stop') : Owned start' leaves references stop' := by
  induction h generalizing start' with
  | done hle => exact .done (by omega)
  | free hle written _ ih => exact .free (by omega) written (ih (Nat.le_refl _) hstop)
  | reference hle left written right root plain _ ih =>
    exact .reference (by omega) left written right root plain (ih (Nat.le_refl _) hstop)

/-- Rows one behind the other. -/
theorem append {leaves' : List Leaf} {references' : List Reference}
    (h : Owned start leaves references stop) (h' : Owned start' leaves' references' stop')
    (hle : stop ≤ start') : Owned start (leaves ++ leaves') (references ++ references') stop' := by
  induction h with
  | done hle' => exact h'.widen (by omega) (Nat.le_refl _)
  | free hstart written _ ih => exact .free hstart written (ih hle)
  | reference hstart left written right root plain _ ih =>
    exact .reference hstart left written right root plain (ih hle)

/-- Leaves lie in the row. -/
theorem leaf_inside (h : Owned start leaves references stop) : ∀ leaf ∈ leaves,
    start ≤ leaf.span.start ∧ leaf.span.start < leaf.span.stop ∧ leaf.span.stop ≤ stop := by
  induction h with
  | done => exact nofun
  | @free _ _ s _ _ hstart written rest ih =>
    have := rest.le
    intro leaf hleaf
    rcases List.mem_cons.mp hleaf with rfl | hleaf
    · exact ⟨hstart, written, this⟩
    · have := ih leaf hleaf
      omega
  | reference hstart left written right _ _ rest ih =>
    have := rest.le
    intro leaf hleaf
    rcases List.mem_cons.mp hleaf with rfl | hleaf
    · omega
    · have := ih leaf hleaf
      omega

/-- References lie in the row. -/
theorem reference_inside (h : Owned start leaves references stop) : ∀ r ∈ references,
    start ≤ r.span.start ∧ r.span.start < r.span.stop := by
  induction h with
  | done => exact nofun
  | free hstart written rest ih =>
    intro r hr
    have := ih r hr
    omega
  | reference hstart left written right _ _ rest ih =>
    intro r hr
    rcases List.mem_cons.mp hr with rfl | hr
    · omega
    · have := ih r hr
      omega

/-- **An identifier lies in one reference.** -/
theorem filter_references (h : Owned start leaves references stop) {leaf : Leaf}
    (hleaf : leaf ∈ leaves) (hname : leaf.isName = true) :
    ∃ r, references.filter leaf.within = [r] := by
  induction h with
  | done => cases hleaf
  | free hstart written rest ih =>
    rcases List.mem_cons.mp hleaf with rfl | hleaf
    · cases hname
    · exact ih hleaf
  | @reference _ _ first r leaves references hstart left written right _ _ rest ih =>
    rcases List.mem_cons.mp hleaf with rfl | hleaf
    · refine ⟨r, ?_⟩
      rw [List.filter_cons_of_pos (by simp [Leaf.within, left, right]),
        List.filter_eq_nil_iff.mpr]
      intro r' hr'
      have := rest.reference_inside r' hr'
      simp only [Leaf.within, Bool.and_eq_true, decide_eq_true_eq]
      omega
    · obtain ⟨r', hr'⟩ := ih hleaf
      have := rest.leaf_inside leaf hleaf
      refine ⟨r', ?_⟩
      rw [List.filter_cons_of_neg, hr']
      simp only [Leaf.within, Bool.and_eq_true, decide_eq_true_eq]
      omega

/-- **A reference holds one leaf.** -/
theorem filter_leaves (h : Owned start leaves references stop) {r : Reference}
    (hr : r ∈ references) : ∃ leaf, leaves.filter (·.within r) = [leaf] ∧ leaf.root = r.root := by
  induction h with
  | done => cases hr
  | @free _ _ s _ _ hstart written rest ih =>
    obtain ⟨leaf, hleaf, hroot⟩ := ih hr
    have := rest.reference_inside r hr
    refine ⟨leaf, ?_, hroot⟩
    rw [List.filter_cons_of_neg, hleaf]
    show ¬ (decide (r.span.start ≤ s.start) && decide (s.stop ≤ r.span.stop)) = true
    simp only [Bool.and_eq_true, decide_eq_true_eq]
    omega
  | @reference _ _ first r' leaves references hstart left written right root _ rest ih =>
    rcases List.mem_cons.mp hr with rfl | hr
    · refine ⟨first, ?_, root⟩
      rw [List.filter_cons_of_pos (by simp [Leaf.within, left, right]),
        List.filter_eq_nil_iff.mpr]
      intro leaf hleaf
      have := rest.leaf_inside leaf hleaf
      simp only [Leaf.within, Bool.and_eq_true, decide_eq_true_eq]
      omega
    · obtain ⟨leaf, hleaf, hroot⟩ := ih hr
      have := rest.reference_inside r hr
      refine ⟨leaf, ?_, hroot⟩
      rw [List.filter_cons_of_neg, hleaf]
      simp only [Leaf.within, Bool.and_eq_true, decide_eq_true_eq]
      omega

/-- **The names of identifiers are the roots of references, other than `this`.** -/
theorem name_mem_iff (h : Owned start leaves references stop) (x : Text) :
    (∃ s, Leaf.name s x ∈ leaves) ↔ ∃ r ∈ references, r.root = x ∧ x ≠ Expr.thisName := by
  induction h with
  | done => simp
  | free _ _ _ ih => simpa using ih
  | @reference _ _ leaf r leaves references _ _ _ _ root plain _ ih =>
    have hfirst : (∃ s, Leaf.name s x = leaf) ↔ r.root = x ∧ x ≠ Expr.thisName := by
      cases leaf with
      | name s y =>
        have hy : y = r.root := root
        have hplain : y ≠ Expr.thisName := plain rfl
        constructor
        · rintro ⟨s, hs⟩
          cases hs
          exact ⟨hy.symm, hplain⟩
        · rintro ⟨rfl, -⟩
          exact ⟨s, by rw [hy]⟩
      | this s =>
        have hthis : Expr.thisName = r.root := root
        constructor
        · rintro ⟨s, hs⟩
          cases hs
        · rintro ⟨rfl, hne⟩
          exact absurd hthis.symm hne
    simp only [List.mem_cons, exists_or, or_and_right, exists_eq_left, hfirst, ih]

end Owned

/-! ## Expressions -/

namespace Laid

variable {e : Expr}

/-- A path starts at the one leaf of the expression. -/
theorem leaves_of_path (h : Laid e) {path : Text} (hpath : e.path? = some path) :
    ∃ leaf, e.leaves = [leaf] ∧ leaf.root = Path.root path ∧ leaf.Plain := by
  induction h generalizing path with
  | @intro e _ _ plain _ ih =>
    cases e with
    | identifier s x =>
      obtain rfl : x = path := Option.some.inj hpath
      obtain ⟨hthis, hdot⟩ := plain
      refine ⟨.name s x, rfl, ?_, fun _ => hthis⟩
      exact (Expr.root_of_dot_notMem hdot).symm
    | this s =>
      obtain rfl : Expr.thisName = path := Option.some.inj hpath
      exact ⟨.this s, rfl, rfl, nofun⟩
    | member s object property optional =>
      obtain ⟨head, hhead, rfl, -⟩ := Expr.path?_member hpath
      obtain ⟨leaf, hleaf, hroot, hplain⟩ := ih object (List.mem_singleton_self _) hhead
      exact ⟨leaf, hleaf, hroot.trans (Expr.root_extend head property s s).symm, hplain⟩
    | _ => cases hpath

/-- Parts in a row have their leaves and references in a row. -/
theorem owned_parts {start stop : Nat} {parts : List Expr}
    (h : ∀ part ∈ parts, Owned part.span.start part.leaves part.references part.span.stop)
    (hrow : Row start (parts.map (·.span)) stop) :
    Owned start (Expr.leavesAll parts) (Expr.referencesAll parts) stop := by
  induction parts generalizing start with
  | nil => exact .done hrow
  | cons part parts ih =>
    obtain ⟨hstart, -, hrest⟩ := hrow
    have hpart := h part (List.mem_cons_self ..)
    have hothers := ih (fun p hp => h p (List.mem_cons_of_mem _ hp)) hrest
    rw [Expr.leavesAll, Expr.referencesAll]
    exact (hpart.widen hstart (Nat.le_refl _)).append hothers (Nat.le_refl _)

/-- **The leaves and the references of an expression are in a row**, also where it is called as a
method, which is not read itself. -/
theorem owned (h : Laid e) (view : Expr.View) :
    Owned e.span.start e.leaves (e.referencesIn view) e.span.stop := by
  induction h generalizing view with
  | @intro e written row plain parts ih =>
    have hparts := owned_parts (fun part hpart => ih part hpart .value) row
    cases e with
    | identifier s x =>
      have hx : (x == Expr.thisName) = false := beq_eq_false_iff_ne.mpr plain.1
      have hlaid : Laid (.identifier s x) := .intro written row plain parts
      obtain ⟨leaf, hleaf, hroot, hplain⟩ := hlaid.leaves_of_path rfl
      obtain rfl : Leaf.name s x = leaf := (List.cons.inj hleaf).1
      rw [Expr.referencesIn_of_not_member rfl, Expr.references_of_path rfl, hx,
        if_neg Bool.false_ne_true]
      exact .reference (Nat.le_refl _) (Nat.le_refl _) written (Nat.le_refl _) hroot hplain
        (.done (Nat.le_refl _))
    | this s => cases view <;> exact .free (Nat.le_refl _) written (.done (Nat.le_refl _))
    | literal s raw => cases view <;> exact .done written.le
    | member s object property optional =>
      have hlaid : Laid (.member s object property optional) := .intro written row plain parts
      have hobject := ih object (List.mem_singleton_self _) .value
      have hinside := hobject.widen row.1 row.2.2
      -- a method is read from its object, and any other member is read itself if it is a path
      cases view with
      | callee => exact hinside
      | value =>
        show Owned s.start object.leaves (Expr.references (.member s object property optional)) s.stop
        cases hpath : (Expr.member s object property optional).path? with
        | none =>
          rw [Expr.references_member hpath]
          exact hinside
        | some path =>
          obtain ⟨head, -, rfl, -⟩ := Expr.path?_member hpath
          obtain ⟨leaf, hleaf, hroot, hplain⟩ := hlaid.leaves_of_path hpath
          change object.leaves = [leaf] at hleaf
          rw [hleaf] at hinside ⊢
          obtain ⟨hleft, hleafWritten, hright⟩ := hinside.leaf_inside leaf (List.mem_singleton_self _)
          rw [Expr.references_of_path hpath, Expr.extend_ne_thisName, if_neg Bool.false_ne_true]
          exact .reference (Nat.le_refl _) hleft hleafWritten hright hroot hplain
            (.done (Nat.le_refl _))
    | call s callee arguments =>
      have hcallee := ih callee (List.mem_cons_self ..) .callee
      have harguments := owned_parts
        (fun part hpart => ih part (List.mem_cons_of_mem _ hpart) .value) row.2.2
      rw [Expr.referencesIn_of_not_member rfl, Expr.references_call]
      exact (hcallee.widen row.1 (Nat.le_refl _)).append harguments (Nat.le_refl _)
    | index | unary | binary | conditional | array =>
      rw [Expr.referencesIn_of_not_member rfl]
      simpa [Expr.parts, Expr.leavesAll, Expr.referencesAll, Expr.leaves, Expr.references,
        Expr.path?] using hparts

end Laid

/-! ## Distinct paths -/

section Distinct

variable {p q : Text} {l : List Text}

/-- Entries that are left out change no order of the others. -/
theorem idxOf_lt_of_filter {kept : Text → Bool} (hp : kept p = true) (hq : kept q = true)
    (h : (l.filter kept).idxOf p < (l.filter kept).idxOf q) : l.idxOf p < l.idxOf q := by
  induction l with
  | nil => exact h
  | cons a l ih =>
    cases ha : kept a with
    | true =>
      rw [List.filter_cons_of_pos ha] at h
      simp only [List.idxOf_cons, cond_eq_ite] at h ⊢
      split_ifs at h ⊢ <;> omega
    | false =>
      have hne : ∀ b, kept b = true → a ≠ b := by
        rintro b hb rfl
        rw [ha] at hb
        cases hb
      rw [List.filter_cons_of_neg (by simp [ha])] at h
      rw [List.idxOf_cons_ne _ (hne p hp), List.idxOf_cons_ne _ (hne q hq)]
      exact Nat.succ_lt_succ (ih h)

/-- The distinct entries of a list come in the order of their first places. -/
theorem idxOf_eraseDups (l : List Text) :
    l.eraseDups.Pairwise fun p q => l.idxOf p < l.idxOf q := by
  induction hlength : l.length using Nat.strong_induction_on generalizing l with
  | _ k ih =>
    subst hlength
    cases l with
    | nil => exact List.Pairwise.nil
    | cons a l =>
      rw [List.eraseDups_cons]
      have hrest : ∀ b ∈ (l.filter (fun b => !b == a)).eraseDups, (!b == a) = true := fun b hb =>
        (List.mem_filter.mp (List.mem_eraseDups.mp hb)).2
      have hne : ∀ b ∈ (l.filter (fun b => !b == a)).eraseDups, a ≠ b := by
        rintro b hb rfl
        simpa using hrest _ hb
      refine List.pairwise_cons.mpr ⟨fun b hb => ?_, ?_⟩
      · rw [List.idxOf_cons_self, List.idxOf_cons_ne _ (hne b hb)]
        exact Nat.succ_pos _
      · have hless := ih _ (Nat.lt_succ_of_le (List.length_filter_le (fun b => !b == a) l)) _ rfl
        refine hless.imp_of_mem fun hp hq h => ?_
        rw [List.idxOf_cons_ne _ (hne _ hp), List.idxOf_cons_ne _ (hne _ hq)]
        exact Nat.succ_lt_succ (idxOf_lt_of_filter (hrest _ hp) (hrest _ hq) h)

end Distinct

/-! ## Accepted texts -/

/-- **No identifier is missed.**  The identifiers of an accepted text are the roots of its paths other
than `this`, each stands in one reference, and each reference holds one leaf, which its path starts
with; each path is listed once, in the order of the first references. -/
theorem Expression.paths_cover_leaves {t : Text} {e : Expr} (h : Expression.parse t = .ok e) :
    (∀ x, (∃ s, Leaf.name s x ∈ e.leaves) ↔
      ∃ path ∈ e.paths, Path.root path = x ∧ Path.root path ≠ Expr.thisName) ∧
    (∀ leaf ∈ e.leaves, leaf.isName = true → ∃ r, e.references.filter leaf.within = [r]) ∧
    (∀ r ∈ e.references, ∃ leaf, e.leaves.filter (·.within r) = [leaf] ∧ leaf.root = r.root) ∧
    e.paths.Nodup ∧ (∀ path, path ∈ e.paths ↔ ∃ r ∈ e.references, r.path = path) ∧
    e.paths.Pairwise fun p q =>
      (e.references.map (·.path)).idxOf p < (e.references.map (·.path)).idxOf q := by
  have howned : Owned e.span.start e.leaves e.references e.span.stop :=
    (Expression.laid_of_parse h).1.owned .value
  have hpaths : ∀ path, path ∈ e.paths ↔ ∃ r ∈ e.references, r.path = path := by
    intro path
    rw [Expr.paths, List.mem_eraseDups, List.mem_map]
  refine ⟨fun x => ?_, fun leaf hleaf hname => howned.filter_references hleaf hname,
    fun r hr => howned.filter_leaves hr, ?_, hpaths, idxOf_eraseDups _⟩
  · rw [howned.name_mem_iff]
    constructor
    · rintro ⟨r, hr, rfl, hne⟩
      exact ⟨r.path, (hpaths _).mpr ⟨r, hr, rfl⟩, rfl, hne⟩
    · rintro ⟨path, hpath, rfl, hne⟩
      obtain ⟨r, hr, rfl⟩ := (hpaths _).mp hpath
      exact ⟨r, hr, rfl, hne⟩
  · exact ParameterNames.nodup_eraseDups _

/-- A text that calls a method, accesses a computed position, and reads `this` with and without a
member. -/
def methodText : Text :=
  "a.b(this.c)+a[this]".toList

/-- The expression of the text. -/
def methodExpr : Expr :=
  .binary ⟨0, 19⟩ .add
    (.call ⟨0, 11⟩ (.member ⟨0, 3⟩ (.identifier ⟨0, 1⟩ ['a']) ['b'] false)
      [.member ⟨4, 10⟩ (.this ⟨4, 8⟩) ['c'] false])
    (.index ⟨12, 19⟩ (.identifier ⟨12, 13⟩ ['a']) (.this ⟨14, 18⟩) false)

/-- Both identifiers of the text are `a`, which is listed as one path; the second `this` stands outside
of the references. -/
theorem paths_cover_leaves_methodText :
    Expression.parse methodText = .ok methodExpr ∧
      methodExpr.leaves = [.name ⟨0, 1⟩ ['a'], .this ⟨4, 8⟩, .name ⟨12, 13⟩ ['a'], .this ⟨14, 18⟩] ∧
      methodExpr.references =
        [⟨['a'], 0, 1⟩, ⟨"this.c".toList, 4, 10⟩, ⟨['a'], 12, 13⟩] ∧
      methodExpr.paths = [['a'], "this.c".toList] ∧
      (∀ leaf ∈ methodExpr.leaves, leaf.isName = true →
        ∃ r, methodExpr.references.filter leaf.within = [r]) ∧
      ∀ r ∈ methodExpr.references, ∃ leaf, methodExpr.leaves.filter (·.within r) = [leaf] ∧
        leaf.root = r.root := by
  have hparse : Expression.parse methodText = .ok methodExpr :=
    Synthesis.parse_eq_ok (w := [⟨.word ['a'], 0, 1⟩, ⟨.mark .dot, 1, 2⟩, ⟨.word ['b'], 2, 3⟩,
        ⟨.mark .openParen, 3, 4⟩, ⟨.word "this".toList, 4, 8⟩, ⟨.mark .dot, 8, 9⟩,
        ⟨.word ['c'], 9, 10⟩, ⟨.mark .closeParen, 10, 11⟩, ⟨.mark (.binary .add), 11, 12⟩,
        ⟨.word ['a'], 12, 13⟩, ⟨.mark .openBracket, 13, 14⟩, ⟨.word "this".toList, 14, 18⟩,
        ⟨.mark .closeBracket, 18, 19⟩])
      (o := ⟨methodExpr, ⟨0, 19⟩, 3⟩) (by decide) (by decide +kernel) rfl (by decide)
  obtain ⟨-, hnames, hreferences, -⟩ := Expression.paths_cover_leaves hparse
  exact ⟨hparse, by decide, by decide, by decide, hnames, hreferences⟩

end DataBinding
