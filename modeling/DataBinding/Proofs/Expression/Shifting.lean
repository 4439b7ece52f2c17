/-
# Expressions at another place

Where a text stands further to the right, its tokens have later spans, and so have the operands that
are read from them.  Nothing else of them changes.

* `Expr.shift`    : an expression read that many bytes later.
* `Lexed.shift`   : the tokens of a text that starts later.
* `Reads.shift`   : later tokens stand for later phrases.
-/
import DataBinding.Proofs.Expression.Lexing
import DataBinding.Proofs.Expression.Derivation

namespace DataBinding

/-- A stretch that many bytes later. -/
def Span.shift (k : Nat) (s : Span) : Span :=
  ⟨s.start + k, s.stop + k⟩

namespace Expr

mutual

/-- An expression with all its spans that many bytes later. -/
def shift (k : Nat) : Expr → Expr
  | identifier s name => identifier (s.shift k) name
  | this s => this (s.shift k)
  | literal s raw => literal (s.shift k) raw
  | member s object property optional => member (s.shift k) (shift k object) property optional
  | index s object position optional =>
    index (s.shift k) (shift k object) (shift k position) optional
  | call s callee arguments => call (s.shift k) (shift k callee) (shiftAll k arguments)
  | unary s op argument => unary (s.shift k) op (shift k argument)
  | binary s op left right => binary (s.shift k) op (shift k left) (shift k right)
  | conditional s test consequent alternate =>
    conditional (s.shift k) (shift k test) (shift k consequent) (shift k alternate)
  | array s elements => array (s.shift k) (shiftAll k elements)

/-- Several expressions that many bytes later. -/
def shiftAll (k : Nat) : List Expr → List Expr
  | [] => []
  | e :: es => shift k e :: shiftAll k es

end

theorem shiftAll_eq (k : Nat) (es : List Expr) : shiftAll k es = es.map (shift k) := by
  induction es with
  | nil => rfl
  | cons e es ih => rw [shiftAll, ih, List.map_cons]

theorem span_shift (k : Nat) (e : Expr) : (e.shift k).span = e.span.shift k := by
  cases e <;> rfl

end Expr

namespace Expression

variable {k : Nat}

/-- A token that many bytes later. -/
def Token.shift (k : Nat) (token : Token) : Token :=
  ⟨token.shape, token.span.shift k⟩

/-- An operand that many bytes later. -/
def Operand.shift (k : Nat) (o : Operand) : Operand :=
  ⟨o.expr.shift k, o.span.shift k, o.levels⟩

/-- A construct that was started that many bytes later. -/
def Frame.shift (k : Nat) : Frame → Frame
  | .unary op start => .unary op (start + k)
  | .binary op left => .binary op (left.shift k)
  | .consequent test => .consequent (test.shift k)
  | .alternate test branch => .alternate (test.shift k) (branch.shift k)
  | .paren start => .paren (start + k)
  | .array start elements => .array (start + k) (elements.map (.shift k))
  | .arguments callee passed => .arguments (callee.shift k) (passed.map (.shift k))
  | .index object optional => .index (object.shift k) optional

/-- A phrase that many bytes later. -/
def Phrase.shift (k : Nat) : Phrase → Phrase
  | .primary o => .primary (o.shift k)
  | .whole o => .whole (o.shift k)
  | .pending frames => .pending (frames.map (.shift k))
  | .items elements => .items (elements.map (.shift k))
  | .bracket elements => .bracket (elements.map (.shift k))

/-! ## Operands -/

namespace Operand

/-- Levels do not depend on the place. -/
theorem above_shift (parts : List Operand) : above (parts.map (·.shift k)) = above parts := by
  rw [above, above, List.foldl_map]
  rfl

theorem shift_compound (e : Expr) (parts : List Operand) :
    (compound e parts).shift k = compound (e.shift k) (parts.map (·.shift k)) := by
  rw [compound, compound, above_shift, Expr.span_shift]
  rfl

theorem shift_exprs (parts : List Operand) :
    Expr.shiftAll k (parts.map (·.expr)) = (parts.map (·.shift k)).map (·.expr) := by
  rw [Expr.shiftAll_eq, List.map_map, List.map_map]
  rfl

theorem shift_call (callee : Operand) (arguments : List Operand) (stop : Nat) :
    (call callee arguments stop).shift k =
      call (callee.shift k) (arguments.map (·.shift k)) (stop + k) := by
  rw [call, call, shift_compound, Expr.shift, shift_exprs]
  rfl

theorem shift_array (elements : List Operand) (s : Span) :
    (array elements s).shift k = array (elements.map (·.shift k)) (s.shift k) := by
  rw [array, array, shift_compound, Expr.shift, shift_exprs]

/-- The bare word `await` is one at every place. -/
theorem isAwait_shift (o : Operand) : (o.shift k).isAwait = o.isAwait := by
  obtain ⟨expr, span, levels⟩ := o
  cases expr with
  | identifier s name =>
    have hspan : (span.shift k == s.shift k) = (span == s) := by
      rw [Bool.eq_iff_iff, beq_iff_eq, beq_iff_eq]
      constructor
      · intro h
        obtain ⟨hstart, hstop⟩ := Span.mk.inj h
        cases span
        cases s
        rw [Span.mk.injEq]
        exact ⟨Nat.add_right_cancel hstart, Nat.add_right_cancel hstop⟩
      · exact congrArg _
    show (name == "await".toList && span.shift k == s.shift k) = _
    rw [hspan]
    rfl
  | _ => rfl

end Operand

/-! ## Operations -/

theorem settle_shift (next : Nat) (frames : List Frame) (last : Operand) :
    settle next (frames.map (.shift k)) (last.shift k) =
      ((settle next frames last).1.map (.shift k), (settle next frames last).2.shift k) := by
  induction frames generalizing last with
  | nil => rfl
  | cons frame frames ih =>
    cases frame with
    | unary op start => exact ih (.unary op start last)
    | binary op left =>
      simp only [List.map_cons, Frame.shift, settle]
      split
      · exact ih (.binary op left last)
      · rfl
    | _ => rfl

theorem close_shift (frames : List Frame) (last : Operand) :
    close (frames.map (.shift k)) (last.shift k) =
      ((close frames last).1.map (.shift k), (close frames last).2.shift k) := by
  induction frames generalizing last with
  | nil => rfl
  | cons frame frames ih =>
    cases frame with
    | unary op start => exact ih (.unary op start last)
    | binary op left => exact ih (.binary op left last)
    | alternate test consequent => exact ih (.conditional test consequent last)
    | _ => rfl

/-! ## Derivations -/

theorem map_shift_cons (shape : Shape) (s : Span) (w : List Token) :
    List.map (Token.shift k) (⟨shape, s⟩ :: w) = ⟨shape, s.shift k⟩ :: w.map (.shift k) :=
  rfl

theorem Remarks.shift {w : List Token} (h : Remarks w) : Remarks (w.map (.shift k)) := by
  intro later hlater
  obtain ⟨token, htoken, rfl⟩ := List.mem_map.mp hlater
  exact h token htoken

theorem Link.shift {object : Operand} {optional : Bool} {link : List Token}
    (h : Link object optional link) : Link (object.shift k) optional (link.map (.shift k)) := by
  cases h with
  | plain await => exact .plain (by rw [Operand.isAwait_shift, await])
  | optional set =>
    rw [map_shift_cons, List.map_append, map_shift_cons]
    exact .optional set.shift

/-- A word is the same operand at every place. -/
theorem wordOperand?_shift (x : Text) (s : Span) :
    wordOperand? x (s.shift k) = (wordOperand? x s).map (·.shift k) := by
  unfold wordOperand?
  split_ifs <;> rfl

/-- **Later tokens stand for later phrases.** -/
theorem Reads.shift {phrase : Phrase} {w : List Token} (h : Reads phrase w) (k : Nat) :
    Reads (phrase.shift k) (w.map (.shift k)) := by
  -- the same constructor applies to the later tokens; where it does not read off their spans, they
  -- are given
  induction h with
  | @word x s o admitted =>
    refine .word ?_
    rw [wordOperand?_shift, admitted]
    rfl
  | literal => exact .literal
  | @parenthesized o w s e _ ih =>
    rw [map_shift_cons, List.map_append, map_shift_cons]
    exact .parenthesized (s := s.shift k) (e := e.shift k) ih
  | @member object w remarks name optional s e _ set ih =>
    rw [List.map_append, map_shift_cons, List.map_append, map_shift_cons]
    exact .member (s := s.shift k) (e := e.shift k) ih set.shift
  | @index object position w link remarks v optional s _ linked set _ ih ih' =>
    rw [List.map_append, List.map_append, List.map_append, List.map_append, map_shift_cons]
    exact .index (s := s.shift k) ih linked.shift set.shift ih'
  | @call callee w v arguments s e _ await _ ih ih' =>
    rw [List.map_append, map_shift_cons, List.map_append, map_shift_cons, Phrase.shift,
      Operand.shift_call, List.map_reverse]
    exact .call (s := s.shift k) (e := e.shift k) ih (by rw [Operand.isAwait_shift, await]) ih'
  | @array v elements s e _ ih =>
    rw [map_shift_cons, List.map_append, map_shift_cons, Phrase.shift, Operand.shift_array,
      List.map_reverse]
    exact .array (s := s.shift k) (e := e.shift k) ih
  | noItems => exact .noItems
  | elision _ ih =>
    rw [List.map_append, map_shift_cons]
    exact .elision ih
  | item _ _ ih ih' =>
    rw [List.map_append, List.map_append, map_shift_cons]
    exact .item ih ih'
  | closed _ ih => exact .closed ih
  | closedBehind _ _ ih ih' =>
    rw [List.map_append]
    exact .closedBehind ih ih'
  | nothing => exact .nothing
  | @unary frames w m op s _ operator ih =>
    rw [List.map_append, map_shift_cons]
    exact .unary (s := s.shift k) ih operator
  | @binary frames last _ _ op s _ _ await ih ih' =>
    have hread := Reads.binary (s := s.shift k) ih ih' (by rw [Operand.isAwait_shift, await])
    rw [settle_shift] at hread
    rw [List.map_append, List.map_append, map_shift_cons]
    exact hread
  | @conditional frames last _ _ _ _ _ s e _ _ set _ ih ih' ih'' =>
    have hset := set.shift (k := k)
    have hread := Reads.conditional (s := s.shift k) (e := e.shift k) ih ih' hset ih''
    rw [settle_shift] at hread
    simp only [List.map_append, map_shift_cons]
    exact hread
  | remark _ ih =>
    rw [List.map_append, map_shift_cons]
    exact .remark ih
  | whole _ _ ih ih' =>
    have hread := Reads.whole ih ih'
    rw [close_shift] at hread
    rw [List.map_append]
    exact hread

/-! ## Texts -/

/-- The tokens of a text that starts later. -/
theorem Lexed.shift {position : Nat} {now : Expecting} {wide : Bool} {t : Text}
    {tokens : List Token} (h : Lexed position now wide t tokens) (k : Nat) :
    Lexed (position + k) now wide t (tokens.map (.shift k)) := by
  induction h with
  | done gap => exact .done gap
  | token gap head hstart hstop _ ih =>
    rw [map_shift_cons]
    refine .token gap head ?_ ?_ ih
    · rw [hstart, Nat.add_right_comm]
    · rw [hstop, Nat.add_right_comm]

end Expression
end DataBinding
