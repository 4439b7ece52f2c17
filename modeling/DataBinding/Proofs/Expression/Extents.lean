/-
# Where expressions lie

The parts of an expression that was read from a text lie inside of it, from left to right, and no two
of them overlap.  The spans of operands in parentheses are larger than those of their expressions, so
the order is followed through the reading by the spans of operands.

* `Row`           : spans that follow each other between two bytes.
* `Laid`          : an expression with its parts in a row inside of it, and so on in the parts.
* `Stacked`       : operations that wait in front of an operand, with their operands in a row.
* `Reads.lies`    : where the tokens of a phrase are in a row, it lies between the same bytes.
* `laid_of_parse` : the expression of an accepted text is laid.
-/
import DataBinding.Proofs.Synthesis.Replacement

namespace DataBinding

/-! ## Rows of spans -/

/-- Spans that follow each other between two bytes, none of them empty. -/
def Row : Nat → List Span → Nat → Prop
  | start, [], stop => start ≤ stop
  | start, s :: spans, stop => start ≤ s.start ∧ s.start < s.stop ∧ Row s.stop spans stop

namespace Row

variable {start stop start' stop' : Nat} {s : Span} {spans more : List Span}

@[simp] theorem nil_iff : Row start [] stop ↔ start ≤ stop :=
  Iff.rfl

@[simp] theorem cons_iff :
    Row start (s :: spans) stop ↔ start ≤ s.start ∧ s.start < s.stop ∧ Row s.stop spans stop :=
  Iff.rfl

theorem le (h : Row start spans stop) : start ≤ stop := by
  induction spans generalizing start with
  | nil => exact h
  | cons s spans ih =>
    have := ih h.2.2
    have := h.1
    have := h.2.1
    omega

/-- A row has room between other bytes that leave more. -/
theorem widen (h : Row start spans stop) (hstart : start' ≤ start) (hstop : stop ≤ stop') :
    Row start' spans stop' := by
  induction spans generalizing start start' with
  | nil => exact hstart.trans (h.trans hstop)
  | cons s spans ih => exact ⟨hstart.trans h.1, h.2.1, ih h.2.2 (Nat.le_refl _)⟩

/-- A row falls into two at any place. -/
@[simp] theorem append_iff :
    Row start (spans ++ more) stop ↔ ∃ middle, Row start spans middle ∧ Row middle more stop := by
  induction spans generalizing start with
  | nil =>
    constructor
    · exact fun h => ⟨start, Nat.le_refl _, h⟩
    · rintro ⟨middle, hle, h⟩
      exact h.widen hle (Nat.le_refl _)
  | cons s spans ih =>
    constructor
    · rintro ⟨hstart, hpos, h⟩
      obtain ⟨middle, hfront, hback⟩ := ih.mp h
      exact ⟨middle, ⟨hstart, hpos, hfront⟩, hback⟩
    · rintro ⟨middle, ⟨hstart, hpos, hfront⟩, hback⟩
      exact ⟨hstart, hpos, ih.mpr ⟨middle, hfront, hback⟩⟩

end Row

/-! ## Expressions -/

/-- The expressions that an expression consists of, from left to right. -/
def Expr.parts : Expr → List Expr
  | identifier _ _ | this _ | literal _ _ => []
  | member _ object _ _ => [object]
  | index _ object position _ => [object, position]
  | call _ callee arguments => callee :: arguments
  | unary _ _ argument => [argument]
  | binary _ _ left right => [left, right]
  | conditional _ test consequent alternate => [test, consequent, alternate]
  | array _ elements => elements

/-- The name of an identifier is neither `this` nor a path of several. -/
def Expr.Plain : Expr → Prop
  | identifier _ name => name ≠ thisName ∧ '.' ∉ name
  | _ => True

/-- An expression that is not empty and has its parts in a row inside of it, and so on in the parts. -/
inductive Laid : Expr → Prop
  | intro {e : Expr} (written : e.span.start < e.span.stop)
      (row : Row e.span.start (e.parts.map (·.span)) e.span.stop) (plain : e.Plain)
      (parts : ∀ part ∈ e.parts, Laid part) : Laid e

namespace Laid

variable {e : Expr}

theorem written (h : Laid e) : e.span.start < e.span.stop := by
  cases h
  assumption

theorem row (h : Laid e) : Row e.span.start (e.parts.map (·.span)) e.span.stop := by
  cases h
  assumption

theorem plain (h : Laid e) : e.Plain := by
  cases h
  assumption

end Laid

namespace Expression

/-! ## Operands -/

/-- A laid expression inside the span of an operand. -/
structure Seated (o : Operand) : Prop where
  laid : Laid o.expr
  start : o.span.start ≤ o.expr.span.start
  stop : o.expr.span.stop ≤ o.span.stop

namespace Seated

variable {o : Operand}

theorem written (h : Seated o) : o.span.start < o.span.stop := by
  have := h.laid.written
  have := h.start
  have := h.stop
  omega

/-- An operand without parts. -/
theorem leaf {e : Expr} (hwritten : e.span.start < e.span.stop) (hplain : e.Plain)
    (hparts : e.parts = []) : Seated (.leaf e) where
  laid := by
    show Laid e
    refine .intro hwritten ?_ hplain ?_
    · rw [hparts]
      exact hwritten.le
    · rw [hparts]
      exact fun _ h => nomatch h
  start := Nat.le_refl _
  stop := Nat.le_refl _

/-- The expressions of operands in a row are in a row. -/
theorem row {start stop : Nat} {operands : List Operand} (h : ∀ o ∈ operands, Seated o)
    (hrow : Row start (operands.map (·.span)) stop) :
    Row start (operands.map (·.expr.span)) stop := by
  induction operands generalizing start with
  | nil => exact hrow
  | cons o operands ih =>
    have ho := h o (List.mem_cons_self ..)
    obtain ⟨hstart, -, hrest⟩ := hrow
    have hnext := ih (fun o' ho' => h o' (List.mem_cons_of_mem _ ho')) hrest
    exact ⟨hstart.trans ho.start, ho.laid.written, hnext.widen ho.stop (Nat.le_refl _)⟩

/-- A construct with operands in a row inside its span. -/
theorem compound {e : Expr} {operands : List Operand} (h : ∀ o ∈ operands, Seated o)
    (hparts : e.parts = operands.map (·.expr)) (hplain : e.Plain)
    (hwritten : e.span.start < e.span.stop)
    (hrow : Row e.span.start (operands.map (·.span)) e.span.stop) :
    Seated (.compound e operands) where
  laid := by
    show Laid e
    refine .intro hwritten ?_ hplain ?_
    · rw [hparts, List.map_map]
      exact row h hrow
    · rw [hparts]
      intro part hpart
      obtain ⟨o, ho, rfl⟩ := List.mem_map.mp hpart
      exact (h o ho).laid
  start := Nat.le_refl _
  stop := Nat.le_refl _

/-- A sign and its operand. -/
theorem unary (h : Seated o) {op : UnaryOperator} {start : Nat} (hstart : start < o.span.start) :
    Seated (.unary op start o) := by
  have := h.written
  refine compound (by simpa using h) rfl trivial ?_ ?_
  · show start < o.span.stop
    omega
  · show Row start [o.span] o.span.stop
    simp only [Row.cons_iff, Row.nil_iff]
    omega

/-- Two operands and the operator between them. -/
theorem binary {left right : Operand} {op : BinaryOperator} (hleft : Seated left)
    (hright : Seated right) (hle : left.span.stop ≤ right.span.start) :
    Seated (.binary op left right) := by
  have := hleft.written
  have := hright.written
  refine compound (by simpa using ⟨hleft, hright⟩) rfl trivial ?_ ?_
  · show left.span.start < right.span.stop
    omega
  · show Row left.span.start [left.span, right.span] right.span.stop
    simp only [Row.cons_iff, Row.nil_iff]
    omega

/-- A test and two branches. -/
theorem conditional {test consequent alternate : Operand} (htest : Seated test)
    (hconsequent : Seated consequent) (halternate : Seated alternate)
    (hle : test.span.stop ≤ consequent.span.start)
    (hle' : consequent.span.stop ≤ alternate.span.start) :
    Seated (.conditional test consequent alternate) := by
  have := htest.written
  have := hconsequent.written
  have := halternate.written
  refine compound (by simpa using ⟨htest, hconsequent, halternate⟩) rfl trivial ?_ ?_
  · show test.span.start < alternate.span.stop
    omega
  · show Row test.span.start [test.span, consequent.span, alternate.span] alternate.span.stop
    simp only [Row.cons_iff, Row.nil_iff]
    omega

/-- An object and the name of its member. -/
theorem member {object : Operand} (h : Seated object) {name : Text} {stop : Nat} {optional : Bool}
    (hstop : object.span.stop ≤ stop) : Seated (.member object name stop optional) := by
  have := h.written
  refine compound (by simpa using h) rfl trivial ?_ ?_
  · show object.span.start < stop
    omega
  · show Row object.span.start [object.span] stop
    simp only [Row.cons_iff, Row.nil_iff]
    omega

/-- An object and a computed position. -/
theorem index {object position : Operand} (h : Seated object) (h' : Seated position) {stop : Nat}
    {optional : Bool} (hle : object.span.stop ≤ position.span.start)
    (hstop : position.span.stop ≤ stop) : Seated (.index object position stop optional) := by
  have := h.written
  have := h'.written
  refine compound (by simpa using ⟨h, h'⟩) rfl trivial ?_ ?_
  · show object.span.start < stop
    omega
  · show Row object.span.start [object.span, position.span] stop
    simp only [Row.cons_iff, Row.nil_iff]
    omega

/-- What is called, and the arguments. -/
theorem call {callee : Operand} {arguments : List Operand} (h : Seated callee)
    (hall : ∀ o ∈ arguments, Seated o) {stop : Nat}
    (hrow : Row callee.span.stop (arguments.map (·.span)) stop) :
    Seated (.call callee arguments stop) := by
  have := h.written
  have := hrow.le
  refine compound (by simpa using ⟨h, hall⟩) rfl trivial ?_ ?_
  · show callee.span.start < stop
    omega
  · exact ⟨Nat.le_refl _, h.written, hrow⟩

/-- The elements between brackets. -/
theorem array {elements : List Operand} (hall : ∀ o ∈ elements, Seated o) {s : Span}
    (hwritten : s.start < s.stop) (hrow : Row s.start (elements.map (·.span)) s.stop) :
    Seated (.array elements s) :=
  compound hall rfl trivial hwritten hrow

end Seated

/-! ## Operations that wait for an operand -/

/-- Operations in front of a byte, the innermost first, with their operands in a row behind another
byte. -/
def Stacked (start : Nat) : List Frame → Nat → Prop
  | [], stop => start ≤ stop
  | .unary _ place :: frames, stop => place < stop ∧ Stacked start frames place
  | .binary _ left :: frames, stop =>
    Seated left ∧ left.span.stop ≤ stop ∧ Stacked start frames left.span.start
  | .alternate test consequent :: frames, stop =>
    Seated test ∧ Seated consequent ∧ test.span.stop ≤ consequent.span.start ∧
      consequent.span.stop ≤ stop ∧ Stacked start frames test.span.start
  | _ :: _, _ => False

namespace Stacked

variable {start stop stop' : Nat} {frames : List Frame} {last : Operand}

theorem widen (h : Stacked start frames stop) (hstop : stop ≤ stop') :
    Stacked start frames stop' := by
  cases frames with
  | nil => exact Nat.le_trans h hstop
  | cons frame frames =>
    cases frame with
    | unary op place => exact ⟨h.1.trans_le hstop, h.2⟩
    | binary op left => exact ⟨h.1, h.2.1.trans hstop, h.2.2⟩
    | alternate test consequent => exact ⟨h.1, h.2.1, h.2.2.1, h.2.2.2.1.trans hstop, h.2.2.2.2⟩
    | _ => exact h.elim

/-- Completing operations keeps the row. -/
theorem settle (h : Stacked start frames stop) (hlast : Seated last) (hle : stop ≤ last.span.start)
    (next : Nat) :
    Seated (settle next frames last).2 ∧ (settle next frames last).2.span.stop = last.span.stop ∧
      Stacked start (settle next frames last).1 (settle next frames last).2.span.start := by
  induction frames generalizing last stop with
  | nil => exact ⟨hlast, rfl, Nat.le_trans h hle⟩
  | cons frame frames ih =>
    cases frame with
    | unary op place =>
      obtain ⟨hplace, hrest⟩ := h
      exact ih hrest (hlast.unary (by omega)) (Nat.le_refl _)
    | binary op left =>
      obtain ⟨hleft, hstop, hrest⟩ := h
      rw [Expression.settle]
      split
      · exact ih hrest (.binary hleft hlast (by omega)) (Nat.le_refl _)
      · exact ⟨hlast, rfl, hleft, hstop.trans hle, hrest⟩
    | alternate test consequent => exact ⟨hlast, rfl, h.widen hle⟩
    | _ => exact h.elim

/-- Completing all operations leaves one operand from the first byte on. -/
theorem close (h : Stacked start frames stop) (hlast : Seated last) (hle : stop ≤ last.span.start) :
    Seated (close frames last).2 ∧ (close frames last).2.span.stop = last.span.stop ∧
      start ≤ (close frames last).2.span.start := by
  induction frames generalizing last stop with
  | nil => exact ⟨hlast, rfl, Nat.le_trans h hle⟩
  | cons frame frames ih =>
    cases frame with
    | unary op place =>
      obtain ⟨hplace, hrest⟩ := h
      exact ih hrest (hlast.unary (by omega)) (Nat.le_refl _)
    | binary op left =>
      obtain ⟨hleft, hstop, hrest⟩ := h
      exact ih hrest (.binary hleft hlast (by omega)) (Nat.le_refl _)
    | alternate test consequent =>
      obtain ⟨htest, hconsequent, hle', hstop, hrest⟩ := h
      exact ih hrest (.conditional htest hconsequent hlast hle' (by omega)) (Nat.le_refl _)
    | _ => exact h.elim

end Stacked

/-! ## Phrases -/

/-- Tokens in a row between two bytes, with words that have no dot. -/
structure Spread (start : Nat) (w : List Token) (stop : Nat) : Prop where
  row : Row start (w.map (·.span)) stop
  words : ∀ token ∈ w, ∀ x, token.shape = .word x → '.' ∉ x

namespace Spread

variable {start stop : Nat} {shape : Shape} {s : Span} {w v : List Token}

theorem cons (h : Spread start (⟨shape, s⟩ :: w) stop) :
    start ≤ s.start ∧ s.start < s.stop ∧ Spread s.stop w stop :=
  ⟨h.row.1, h.row.2.1, h.row.2.2, fun t ht => h.words t (List.mem_cons_of_mem _ ht)⟩

theorem append (h : Spread start (w ++ v) stop) :
    ∃ middle, Spread start w middle ∧ Spread middle v stop := by
  obtain ⟨row, words⟩ := h
  rw [List.map_append, Row.append_iff] at row
  obtain ⟨middle, hw, hv⟩ := row
  exact ⟨middle, ⟨hw, fun t ht => words t (List.mem_append_left _ ht)⟩,
    ⟨hv, fun t ht => words t (List.mem_append_right _ ht)⟩⟩

/-- Tokens and one more behind them. -/
theorem concat (h : Spread start (w ++ [⟨shape, s⟩]) stop) :
    ∃ middle, Spread start w middle ∧ middle ≤ s.start ∧ s.start < s.stop ∧ s.stop ≤ stop := by
  obtain ⟨middle, hw, hlast⟩ := h.append
  exact ⟨middle, hw, hlast.row.1, hlast.row.2.1, hlast.row.2.2⟩

end Spread

/-- A phrase lies between two bytes. -/
def Lies (start stop : Nat) : Phrase → Prop
  | .primary o | .whole o => Seated o ∧ start ≤ o.span.start ∧ o.span.stop ≤ stop
  | .pending frames => Stacked start frames stop
  | .items elements | .bracket elements =>
    (∀ o ∈ elements, Seated o) ∧ Row start (elements.reverse.map (·.span)) stop

/-- A word is an operand that lies where it stands. -/
theorem lies_word {x : Text} {s : Span} {o : Operand} (admitted : wordOperand? x s = some o)
    (hdot : '.' ∉ x) (hwritten : s.start < s.stop) : Lies s.start s.stop (.primary o) := by
  obtain ⟨-, rfl⟩ | ⟨-, rfl⟩ | ⟨hfree, rfl⟩ := wordOperand?_eq_some admitted
  · exact ⟨.leaf hwritten trivial rfl, Nat.le_refl _, Nat.le_refl _⟩
  · exact ⟨.leaf hwritten trivial rfl, Nat.le_refl _, Nat.le_refl _⟩
  · have hthis : x ≠ Expr.thisName := by
      rintro rfl
      revert hfree
      decide
    exact ⟨.leaf hwritten ⟨hthis, hdot⟩ rfl, Nat.le_refl _, Nat.le_refl _⟩

/-- Another item of a bracket. -/
theorem Lies.item {start middle stop : Nat} {elements : List Operand} {o : Operand}
    (h : Lies start middle (.items elements)) (ho : Lies middle stop (.whole o)) :
    Lies start stop (.items (o :: elements)) := by
  obtain ⟨hall, hrow⟩ := h
  obtain ⟨hseated, hleft, hright⟩ := ho
  refine ⟨by simpa using ⟨hseated, hall⟩, ?_⟩
  simp only [List.reverse_cons, List.map_append, List.map_cons, List.map_nil, Row.append_iff,
    Row.cons_iff, Row.nil_iff]
  exact ⟨middle, hrow, hleft, hseated.written, hright⟩

/-- **A phrase lies where its tokens are.** -/
theorem Reads.lies {phrase : Phrase} {w : List Token} (h : Reads phrase w) {start stop : Nat}
    (hspread : Spread start w stop) : Lies start stop phrase := by
  -- the tokens of a part are spread over a part of the range, of which its marks leave something over
  induction h generalizing start stop with
  | @word x s o admitted =>
    obtain ⟨hstart, hpos, hend⟩ := hspread.cons
    obtain ⟨hseated, hleft, hright⟩ :=
      lies_word admitted (hspread.words _ (List.mem_singleton_self _) x rfl) hpos
    exact ⟨hseated, hstart.trans hleft, hright.trans hend.row⟩
  | literal =>
    obtain ⟨hstart, hpos, hend⟩ := hspread.cons
    exact ⟨.leaf hpos trivial rfl, hstart, hend.row⟩
  | @parenthesized o w s e inner ih =>
    obtain ⟨hstart, hopen, hrest⟩ := hspread.cons
    obtain ⟨middle, hinner, hle, hclose, hstop⟩ := hrest.concat
    obtain ⟨⟨hlaid, hleft, hright⟩, hleft', hright'⟩ := ih hinner
    refine ⟨⟨hlaid, ?_, ?_⟩, hstart, hstop⟩
    · show s.start ≤ o.expr.span.start
      omega
    · show o.expr.span.stop ≤ e.stop
      omega
  | member head set ih =>
    obtain ⟨middle, hobject, hrest⟩ := hspread.append
    obtain ⟨hle, hmark, hrest⟩ := hrest.cons
    obtain ⟨middle', hremarks, hle', hname, hstop⟩ := hrest.concat
    obtain ⟨hseated, hleft, hright⟩ := ih hobject
    have := hremarks.row.le
    exact ⟨hseated.member (by omega), hleft, hstop⟩
  | index head linked set inner ih ih' =>
    obtain ⟨m₁, hobject, hrest⟩ := hspread.append
    obtain ⟨m₂, hlink, hrest⟩ := hrest.append
    obtain ⟨m₃, hremarks, hrest⟩ := hrest.append
    obtain ⟨m₄, hposition, hle, hclose, hstop⟩ := hrest.concat
    obtain ⟨hseated, hleft, hright⟩ := ih hobject
    obtain ⟨hseated', hleft', hright'⟩ := ih' hposition
    have := hlink.row.le
    have := hremarks.row.le
    exact ⟨hseated.index hseated' (by omega) (by omega), hleft, hstop⟩
  | call head await inner ih ih' =>
    obtain ⟨m₁, hcallee, hrest⟩ := hspread.append
    obtain ⟨hle, hopen, hrest⟩ := hrest.cons
    obtain ⟨m₂, harguments, hle', hclose, hstop⟩ := hrest.concat
    obtain ⟨hseated, hleft, hright⟩ := ih hcallee
    obtain ⟨hall, hrow⟩ := ih' harguments
    refine ⟨hseated.call ?_ (hrow.widen ?_ ?_), hleft, hstop⟩
    · simpa using hall
    · omega
    · omega
  | @array v elements s e inner ih =>
    obtain ⟨hstart, hopen, hrest⟩ := hspread.cons
    obtain ⟨middle, helements, hle, hclose, hstop⟩ := hrest.concat
    obtain ⟨hall, hrow⟩ := ih helements
    have := helements.row.le
    refine ⟨.array (by simpa using hall) ?_ (hrow.widen ?_ ?_), hstart, hstop⟩
    · show s.start < e.stop
      omega
    · exact Nat.le_of_lt hopen
    · show middle ≤ e.stop
      omega
  | noItems => exact ⟨nofun, hspread.row⟩
  | elision front ih =>
    obtain ⟨middle, hfront, hle, hcomma, hstop⟩ := hspread.concat
    obtain ⟨hall, hrow⟩ := ih hfront
    exact ⟨hall, hrow.widen (Nat.le_refl _) (by omega)⟩
  | item front last ih ih' =>
    obtain ⟨middle, hfront, hrest⟩ := hspread.append
    obtain ⟨middle', hlast, hle, hcomma, hstop⟩ := hrest.concat
    obtain ⟨hall, hrow⟩ := Lies.item (ih hfront) (ih' hlast)
    exact ⟨hall, hrow.widen (Nat.le_refl _) (by omega)⟩
  | closed front ih => exact ih hspread
  | closedBehind front last ih ih' =>
    obtain ⟨middle, hfront, hlast⟩ := hspread.append
    exact Lies.item (ih hfront) (ih' hlast)
  | nothing => exact hspread.row
  | unary front operator ih =>
    obtain ⟨middle, hfront, hle, hsign, hstop⟩ := hspread.concat
    exact ⟨hsign.trans_le hstop, Stacked.widen (ih hfront) hle⟩
  | @binary frames last w v op s front operand await ih ih' =>
    obtain ⟨middle, hfront, hrest⟩ := hspread.append
    obtain ⟨middle', hoperand, hle, hoperator, hstop⟩ := hrest.concat
    obtain ⟨hseated, hleft, hright⟩ := ih' hoperand
    -- the operations that are completed end where the operand does
    obtain ⟨hdone, hsame, hrest⟩ := Stacked.settle (ih hfront) hseated hleft op.rank
    exact ⟨hdone, by omega, hrest⟩
  | conditional front operand set inner ih ih' ih'' =>
    obtain ⟨m₁, hfront, hrest⟩ := hspread.append
    obtain ⟨m₂, htest, hrest⟩ := hrest.append
    obtain ⟨hle, hquestion, hrest⟩ := hrest.cons
    obtain ⟨m₃, hremarks, hrest⟩ := hrest.append
    obtain ⟨m₄, hinner, hle', hcolon, hstop⟩ := hrest.concat
    obtain ⟨hseated, hleft, hright⟩ := ih' htest
    obtain ⟨hseated', hleft', hright'⟩ := ih'' hinner
    obtain ⟨hdone, hsame, hrest⟩ := Stacked.settle (ih hfront) hseated hleft 0
    have := hremarks.row.le
    exact ⟨hdone, hseated', by omega, by omega, hrest⟩
  | remark front ih =>
    obtain ⟨middle, hfront, hle, hremark, hstop⟩ := hspread.concat
    exact Stacked.widen (ih hfront) (by omega)
  | whole front operand ih ih' =>
    obtain ⟨middle, hfront, hoperand⟩ := hspread.append
    obtain ⟨hseated, hleft, hright⟩ := ih' hoperand
    obtain ⟨hdone, hsame, hstart⟩ := Stacked.close (ih hfront) hseated hleft
    exact ⟨hdone, hstart, by omega⟩

/-! ## Accepted texts -/

/-- The tokens of a text are in a row. -/
theorem Lexed.row {position : Nat} {now : Expecting} {wide : Bool} {t : Text} {tokens : List Token}
    (h : Lexed position now wide t tokens) :
    Row position (tokens.map (·.span)) (position + Text.byteLength t) := by
  induction h with
  | done => exact Nat.le_add_right _ _
  | @token position start stop _ _ _ g w t _ _ _ head hstart hstop _ ih =>
    have hpos := Text.byteLength_pos head.ne_nil
    refine ⟨?_, ?_, ih.widen (Nat.le_refl _) ?_⟩
    · show position ≤ start
      omega
    · show start < stop
      omega
    · rw [Text.byteLength_append, Text.byteLength_append]
      omega

/-- **The expression of an accepted text is laid, inside the text.** -/
theorem laid_of_parse {t : Text} {e : Expr} (h : parse t = .ok e) :
    Laid e ∧ e.span.stop ≤ Text.byteLength t := by
  obtain ⟨-, w, o, htokens, hreads, -, rfl⟩ := Synthesis.parse_eq_ok_iff.mp h
  have hlexed : Lexed 0 .operand true t w := tokensFrom_iff.mp htokens
  have hspread : Spread 0 w (0 + Text.byteLength t) :=
    ⟨hlexed.row, fun token htoken x hx => (hlexed.words token htoken x hx).wordTail.dot_notMem⟩
  obtain ⟨hseated, -, hstop⟩ := hreads.lies hspread
  have := hseated.stop
  exact ⟨hseated.laid, by omega⟩

end Expression
end DataBinding
