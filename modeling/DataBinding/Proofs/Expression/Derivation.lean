/-
# Derivations of expressions

The reading of expressions keeps a stack of started constructs.  This file says without a stack which
stretches of tokens a construct consists of, and shows that the reading goes along these derivations
and nowhere else.

* `Reads`             : a stretch of tokens stands for an operand, for the operations in front of one,
  or for the items between brackets.
* `Reads.runs`        : over the tokens of a derivation the reading arrives at what they stand for.
* `stands_of_run`     : wherever the reading arrives, derivations account for the tokens behind it.
* `parse?_eq_some_iff` : a token list is read as an operand exactly if a derivation gives it.
-/
import DataBinding.Expression.Parser

namespace DataBinding.Expression

/-! ## Derivations -/

/-- What a stretch of tokens can stand for: an operand that no operation around it can take apart, a
whole expression, the operations that wait in front of an operand, and the items of a bracket, last
first, up to a place where an item may follow and up to the closing mark. -/
inductive Phrase where
  | primary (o : Operand)
  | whole (o : Operand)
  | pending (frames : List Frame)
  | items (elements : List Operand)
  | bracket (elements : List Operand)

/-- Nothing but lines set aside. -/
def Remarks (w : List Token) : Prop :=
  ∀ token ∈ w, token.shape = .remark

/-- The operator that a mark is in front of an operand. -/
def prefixOperator? : Mark → Option UnaryOperator
  | .unary op => some op
  | .binary op => signOperator? op
  | _ => none

/-- The mark between an object and the name of its member. -/
def accessMark (optional : Bool) : Mark :=
  if optional then .chain else .dot

/-- The tokens between an object and a computed position. -/
inductive Link : Operand → Bool → List Token → Prop
  | plain {object : Operand} {s : Span} (await : object.isAwait = false) :
      Link object false [⟨.mark .openBracket, s⟩]
  | optional {object : Operand} {s e : Span} {remarks : List Token} (set : Remarks remarks) :
      Link object true (⟨.mark .chain, s⟩ :: (remarks ++ [⟨.mark .openBracket, e⟩]))

/-- A stretch of tokens stands for a phrase. -/
inductive Reads : Phrase → List Token → Prop
  | word {name : Text} {s : Span} {o : Operand} (admitted : wordOperand? name s = some o) :
      Reads (.primary o) [⟨.word name, s⟩]
  | literal {raw : Text} {s : Span} :
      Reads (.primary (.leaf (.literal s raw))) [⟨.literal raw, s⟩]
  | parenthesized {o : Operand} {w : List Token} {s e : Span} (inner : Reads (.whole o) w) :
      Reads (.primary (.parenthesized ⟨s.start, e.stop⟩ o))
        (⟨.mark .openParen, s⟩ :: (w ++ [⟨.mark .closeParen, e⟩]))
  | member {object : Operand} {w remarks : List Token} {name : Text} {optional : Bool} {s e : Span}
      (head : Reads (.primary object) w) (set : Remarks remarks) :
      Reads (.primary (.member object name e.stop optional))
        (w ++ (⟨.mark (accessMark optional), s⟩ :: (remarks ++ [⟨.word name, e⟩])))
  | index {object position : Operand} {w link remarks v : List Token} {optional : Bool} {s : Span}
      (head : Reads (.primary object) w) (linked : Link object optional link)
      (set : Remarks remarks) (inner : Reads (.whole position) v) :
      Reads (.primary (.index object position s.stop optional))
        (w ++ (link ++ (remarks ++ (v ++ [⟨.mark .closeBracket, s⟩]))))
  | call {callee : Operand} {w v : List Token} {arguments : List Operand} {s e : Span}
      (head : Reads (.primary callee) w) (await : callee.isAwait = false)
      (inner : Reads (.bracket arguments) v) :
      Reads (.primary (.call callee arguments.reverse e.stop))
        (w ++ (⟨.mark .openParen, s⟩ :: (v ++ [⟨.mark .closeParen, e⟩])))
  | array {v : List Token} {elements : List Operand} {s e : Span}
      (inner : Reads (.bracket elements) v) :
      Reads (.primary (.array elements.reverse ⟨s.start, e.stop⟩))
        (⟨.mark .openBracket, s⟩ :: (v ++ [⟨.mark .closeBracket, e⟩]))
  | noItems : Reads (.items []) []
  | elision {elements : List Operand} {w : List Token} {s : Span} (front : Reads (.items elements) w) :
      Reads (.items elements) (w ++ [⟨.mark .comma, s⟩])
  | item {elements : List Operand} {o : Operand} {w v : List Token} {s : Span}
      (front : Reads (.items elements) w) (last : Reads (.whole o) v) :
      Reads (.items (o :: elements)) (w ++ (v ++ [⟨.mark .comma, s⟩]))
  | closed {elements : List Operand} {w : List Token} (front : Reads (.items elements) w) :
      Reads (.bracket elements) w
  | closedBehind {elements : List Operand} {o : Operand} {w v : List Token}
      (front : Reads (.items elements) w) (last : Reads (.whole o) v) :
      Reads (.bracket (o :: elements)) (w ++ v)
  | nothing : Reads (.pending []) []
  | unary {frames : List Frame} {w : List Token} {m : Mark} {op : UnaryOperator} {s : Span}
      (front : Reads (.pending frames) w) (operator : prefixOperator? m = some op) :
      Reads (.pending (.unary op s.start :: frames)) (w ++ [⟨.mark m, s⟩])
  | binary {frames : List Frame} {last : Operand} {w v : List Token} {op : BinaryOperator} {s : Span}
      (front : Reads (.pending frames) w) (operand : Reads (.primary last) v)
      (await : (last.isAwait && startsOperand (.binary op)) = false) :
      Reads (.pending (.binary op (settle op.rank frames last).2 :: (settle op.rank frames last).1))
        (w ++ (v ++ [⟨.mark (.binary op), s⟩]))
  | conditional {frames : List Frame} {last consequent : Operand} {w v remarks u : List Token}
      {s e : Span} (front : Reads (.pending frames) w) (operand : Reads (.primary last) v)
      (set : Remarks remarks) (inner : Reads (.whole consequent) u) :
      Reads (.pending (.alternate (settle 0 frames last).2 consequent :: (settle 0 frames last).1))
        (w ++ (v ++ (⟨.mark .question, s⟩ :: (remarks ++ (u ++ [⟨.mark .colon, e⟩])))))
  | remark {frame : Frame} {frames : List Frame} {w : List Token} {s : Span}
      (front : Reads (.pending (frame :: frames)) w) :
      Reads (.pending (frame :: frames)) (w ++ [⟨.remark, s⟩])
  | whole {frames : List Frame} {last : Operand} {w v : List Token}
      (front : Reads (.pending frames) w) (operand : Reads (.primary last) v) :
      Reads (.whole (close frames last).2) (w ++ v)

/-! ## Operations that wait for an operand -/

/-- The construct is an operation, which is completed by the operand behind it. -/
def Frame.isPending : Frame → Bool
  | .unary _ _ | .binary _ _ | .alternate _ _ => true
  | _ => false

/-- The innermost construct is none that an operand completes. -/
def Barred (frames : List Frame) : Prop :=
  ∀ frame ∈ frames.head?, frame.isPending = false

theorem barred_nil : Barred [] := by
  intro frame h
  cases h

theorem barred_cons {frame : Frame} {frames : List Frame} :
    Barred (frame :: frames) ↔ frame.isPending = false := by
  simp [Barred]

variable {frames base : List Frame} {last : Operand}

/-- Completing operations stops at a bar. -/
theorem settle_barred (h : Barred base) (next : Nat) : settle next base last = (base, last) := by
  cases base with
  | nil => rfl
  | cons frame rest =>
    rw [barred_cons] at h
    cases frame <;> first | rfl | cases h

/-- Completing all operations stops at a bar. -/
theorem close_barred (h : Barred base) : close base last = (base, last) := by
  cases base with
  | nil => rfl
  | cons frame rest =>
    rw [barred_cons] at h
    cases frame <;> first | rfl | cases h

/-- Completing operations above a bar. -/
theorem settle_append (hframes : ∀ frame ∈ frames, frame.isPending = true) (h : Barred base)
    (next : Nat) :
    settle next (frames ++ base) last =
      ((settle next frames last).1 ++ base, (settle next frames last).2) := by
  induction frames generalizing last with
  | nil => exact settle_barred h next
  | cons frame frames ih =>
    have hrest := fun f hf => hframes f (List.mem_cons_of_mem _ hf)
    cases frame with
    | unary op start => exact ih hrest
    | binary op left =>
      simp only [List.cons_append, settle]
      split
      · exact ih hrest
      · rfl
    | alternate test consequent => rfl
    | _ => cases hframes _ (List.mem_cons_self ..)

/-- Completing all operations above a bar leaves the bar. -/
theorem close_append (hframes : ∀ frame ∈ frames, frame.isPending = true) (h : Barred base) :
    close (frames ++ base) last = (base, (close frames last).2) := by
  induction frames generalizing last with
  | nil => exact close_barred h
  | cons frame frames ih =>
    have hrest := fun f hf => hframes f (List.mem_cons_of_mem _ hf)
    cases frame with
    | unary op start => exact ih hrest
    | binary op left => exact ih hrest
    | alternate test consequent => exact ih hrest
    | _ => cases hframes _ (List.mem_cons_self ..)

/-- What is left of completed operations are operations. -/
theorem isPending_settle (hframes : ∀ frame ∈ frames, frame.isPending = true) (next : Nat) :
    ∀ frame ∈ (settle next frames last).1, frame.isPending = true := by
  induction frames generalizing last with
  | nil => exact hframes
  | cons frame frames ih =>
    have hrest := fun f hf => hframes f (List.mem_cons_of_mem _ hf)
    cases frame with
    | unary op start => exact ih hrest
    | binary op left =>
      simp only [settle]
      split
      · exact ih hrest
      · exact hframes
    | alternate test consequent => exact hframes
    | _ => cases hframes _ (List.mem_cons_self ..)

/-- Stretches of waiting operations hold nothing else. -/
theorem Reads.isPending {w : List Token} (h : Reads (.pending frames) w) :
    ∀ frame ∈ frames, frame.isPending = true := by
  generalize hphrase : Phrase.pending frames = phrase at h
  induction h generalizing frames with
  | nothing =>
    cases hphrase
    simp
  | unary _ _ ih =>
    cases hphrase
    simpa [Frame.isPending] using ih rfl
  | binary _ _ _ ih =>
    cases hphrase
    simpa [Frame.isPending] using isPending_settle (ih rfl) _
  | conditional _ _ _ _ ih =>
    cases hphrase
    simpa [Frame.isPending] using isPending_settle (ih rfl) _
  | remark _ ih => exact ih hphrase
  | _ => cases hphrase

/-! ## Reading along a derivation -/

/-- Reading tokens from a state. -/
def run (state : State) (w : List Token) : Option State :=
  w.foldlM step state

theorem run_append (state : State) (w v : List Token) :
    run state (w ++ v) = (run state w).bind fun next => run next v :=
  List.foldlM_append

theorem run_cons (state : State) (token : Token) (w : List Token) :
    run state (token :: w) = (step state token).bind fun next => run next w :=
  List.foldlM_cons

/-- Tokens read one stretch after the other. -/
theorem run_trans {state middle final : State} {w v : List Token} (hw : run state w = some middle)
    (hv : run middle v = some final) : run state (w ++ v) = some final := by
  rw [run_append, hw]
  exact hv

/-- One token and then the others. -/
theorem run_step {state m final : State} {token : Token} {w : List Token}
    (htoken : step state token = some m) (hw : run m w = some final) :
    run state (token :: w) = some final := by
  rw [run_cons, htoken]
  exact hw

/-- One token alone. -/
theorem run_singleton (state : State) (token : Token) : run state [token] = step state token := by
  rw [run_cons]
  cases step state token <;> rfl

/-- Lines set aside that a state passes over. -/
theorem run_remarks {state : State} {w : List Token} (hw : Remarks w)
    (hstate : ∀ token : Token, token.shape = .remark → step state token = some state) :
    run state w = some state := by
  induction w with
  | nil => rfl
  | cons token w ih =>
    exact run_step (hstate token (hw token (List.mem_cons_self ..)))
      (ih fun t ht => hw t (List.mem_cons_of_mem _ ht))

/-- The constructs that collect items. -/
def Collects (list : List Operand → Frame) : Prop :=
  (∃ start, list = Frame.array start) ∨ ∃ callee, list = Frame.arguments callee

/-- Reading the tokens of a phrase arrives at what they stand for, whatever surrounds them. -/
def Runs : Phrase → List Token → Prop
  | .primary o, w => ∀ frames, run (.operand frames) w = some (.operator frames o)
  | .whole o, w =>
    ∀ base, Barred base →
      ∃ frames last, run (.operand base) w = some (.operator frames last) ∧
        close frames last = (base, o)
  | .pending frames, w =>
    ∀ base, Barred base → run (.operand base) w = some (.operand (frames ++ base))
  | .items elements, w =>
    ∀ list base, Collects list →
      run (.operand (list [] :: base)) w = some (.operand (list elements :: base))
  | .bracket elements, w =>
    (∀ start base s, run (.operand (.array start [] :: base)) (w ++ [⟨.mark .closeBracket, s⟩]) =
      some (.operator base (.array elements.reverse ⟨start, s.stop⟩))) ∧
    ∀ callee base s, run (.operand (.arguments callee [] :: base)) (w ++ [⟨.mark .closeParen, s⟩]) =
      some (.operator base (.call callee elements.reverse s.stop))

/-- A collecting construct is a bar. -/
theorem Collects.barred {list : List Operand → Frame} (h : Collects list) (elements : List Operand) :
    Barred (list elements :: base) := by
  rcases h with ⟨start, rfl⟩ | ⟨callee, rfl⟩ <;> exact barred_cons.mpr rfl

/-- The tokens of a link lead before the computed position. -/
theorem Link.run {object : Operand} {optional : Bool} {link : List Token}
    (h : Link object optional link) (frames : List Frame) :
    run (.operator frames object) link = some (.operand (.index object optional :: frames)) := by
  cases h with
  | plain await =>
    rw [run_singleton]
    simp [step, await, stepMark]
  | optional set =>
    refine run_step (m := .chain frames object) ?_ (run_trans (run_remarks set ?_) ?_)
    · simp [step, startsOperand, stepMark]
    · intro token htoken
      simp [step, htoken]
    · rfl

/-- A mark behind a whole expression, which completes the operations above the bar. -/
theorem Runs.mark {o : Operand} {w : List Token} (h : Runs (.whole o) w) (hbase : Barred base)
    {m : Mark} (hm : startsOperand m = false) {s : Span} {next : State}
    (hnext : ∀ frames last, close frames last = (base, o) → stepMark frames last m s = some next) :
    run (.operand base) (w ++ [⟨.mark m, s⟩]) = some next := by
  obtain ⟨frames, last, hrun, hclose⟩ := h base hbase
  refine run_trans hrun ?_
  rw [run_singleton]
  simpa [step, hm] using hnext frames last hclose

/-- Parentheses around a whole expression. -/
theorem Runs.parenthesized {o : Operand} {w : List Token} (h : Runs (.whole o) w) (s e : Span) :
    Runs (.primary (.parenthesized ⟨s.start, e.stop⟩ o))
      (⟨.mark .openParen, s⟩ :: (w ++ [⟨.mark .closeParen, e⟩])) := by
  intro frames
  refine run_step rfl (h.mark (barred_cons.mpr rfl) rfl fun above last hclose => ?_)
  simp [stepMark, hclose]

/-- A member behind its object. -/
theorem Runs.member {object : Operand} {w remarks : List Token} (h : Runs (.primary object) w)
    (set : Remarks remarks) (name : Text) (optional : Bool) (s e : Span) :
    Runs (.primary (.member object name e.stop optional))
      (w ++ (⟨.mark (accessMark optional), s⟩ :: (remarks ++ [⟨.word name, e⟩]))) := by
  intro frames
  refine run_trans (h frames) ?_
  cases optional with
  | false =>
    refine run_step (m := .property frames object false) ?_ (run_trans (run_remarks set ?_) rfl)
    · simp [step, startsOperand, stepMark, accessMark]
    · intro token htoken
      simp [step, htoken]
  | true =>
    refine run_step (m := .chain frames object) ?_ (run_trans (run_remarks set ?_) rfl)
    · simp [step, startsOperand, stepMark, accessMark]
    · intro token htoken
      simp [step, htoken]

/-- A computed position behind its object. -/
theorem Runs.index {object position : Operand} {w link remarks v : List Token} {optional : Bool}
    (h : Runs (.primary object) w) (linked : Link object optional link) (set : Remarks remarks)
    (hinner : Runs (.whole position) v) (s : Span) :
    Runs (.primary (.index object position s.stop optional))
      (w ++ (link ++ (remarks ++ (v ++ [⟨.mark .closeBracket, s⟩])))) := by
  intro frames
  refine run_trans (h frames) (run_trans (linked.run frames) (run_trans (run_remarks set ?_)
    (hinner.mark (barred_cons.mpr rfl) rfl fun above last hclose => ?_)))
  · intro token htoken
    simp [step, stepOperand, htoken, allowsRemark]
  · simp [stepMark, hclose]

/-- One more item and the comma behind it. -/
theorem Runs.item {elements : List Operand} {o : Operand} {w v : List Token}
    (h : Runs (.items elements) w) (hlast : Runs (.whole o) v) (s : Span) :
    Runs (.items (o :: elements)) (w ++ (v ++ [⟨.mark .comma, s⟩])) := by
  intro list base hlist
  refine run_trans (h list base hlist) (hlast.mark (hlist.barred elements) rfl
    fun above last hclose => ?_)
  rcases hlist with ⟨start, rfl⟩ | ⟨callee, rfl⟩ <;> simp [stepMark, hclose]

/-- A last item with no comma behind it. -/
theorem Runs.closedBehind {elements : List Operand} {o : Operand} {w v : List Token}
    (h : Runs (.items elements) w) (hlast : Runs (.whole o) v) :
    Runs (.bracket (o :: elements)) (w ++ v) := by
  constructor
  · intro start base s
    rw [List.append_assoc]
    refine run_trans (h _ base (.inl ⟨start, rfl⟩)) (hlast.mark (barred_cons.mpr rfl) rfl
      fun above last hclose => ?_)
    simp [stepMark, hclose]
  · intro callee base s
    rw [List.append_assoc]
    refine run_trans (h _ base (.inr ⟨callee, rfl⟩)) (hlast.mark (barred_cons.mpr rfl) rfl
      fun above last hclose => ?_)
    simp [stepMark, hclose]

/-- The first half of a conditional, which waits for the other one. -/
theorem Runs.conditional {last consequent : Operand} {w v remarks u : List Token}
    (hframes : ∀ frame ∈ frames, frame.isPending = true) (h : Runs (.pending frames) w)
    (hoperand : Runs (.primary last) v) (set : Remarks remarks)
    (hinner : Runs (.whole consequent) u) (s e : Span) :
    Runs (.pending (.alternate (settle 0 frames last).2 consequent :: (settle 0 frames last).1))
      (w ++ (v ++ (⟨.mark .question, s⟩ :: (remarks ++ (u ++ [⟨.mark .colon, e⟩]))))) := by
  intro base hbase
  let inside := .consequent (settle 0 frames last).2 :: ((settle 0 frames last).1 ++ base)
  have hinside : Barred inside := barred_cons.mpr rfl
  refine run_trans (h base hbase) (run_trans (hoperand (frames ++ base))
    (run_step (m := .operand inside) ?_ (run_trans (run_remarks set ?_)
      (hinner.mark hinside rfl fun above final hclose => ?_))))
  · simp [step, startsOperand, stepMark, settle_append hframes hbase, inside]
  · intro token htoken
    simp [step, stepOperand, htoken, allowsRemark, inside]
  · simp [stepMark, hclose, inside]

/-- **Reading goes along derivations.**  By induction on the derivation: a phrase is read on top of any
stack, as far as no operation that waits there would take part in it. -/
theorem Reads.runs {phrase : Phrase} {w : List Token} (h : Reads phrase w) : Runs phrase w := by
  induction h with
  | word admitted =>
    intro frames
    rw [run_singleton]
    simp [step, stepOperand, admitted]
  | literal =>
    intro frames
    rfl
  | parenthesized _ ih => exact ih.parenthesized _ _
  | member _ set ih => exact ih.member set _ _ _ _
  | index _ linked set _ ih ihinner => exact ih.index linked set ihinner _
  | @call callee w v arguments s s' head await inner ih ihinner =>
    intro frames
    refine run_trans (ih frames) (run_step (m := .operand (.arguments callee [] :: frames)) ?_
      (ihinner.2 callee frames s'))
    simp [step, await, stepMark]
  | @array v elements s s' inner ih =>
    intro frames
    exact run_step rfl (ih.1 s.start frames s')
  | noItems =>
    intro list base _
    rfl
  | elision front ih =>
    intro list base hlist
    refine run_trans (ih list base hlist) ?_
    rcases hlist with ⟨start, rfl⟩ | ⟨callee, rfl⟩ <;> rfl
  | item _ _ ih ihlast => exact ih.item ihlast _
  | closed front ih =>
    constructor
    · intro start base s
      exact run_trans (ih _ base (.inl ⟨start, rfl⟩)) rfl
    · intro callee base s
      exact run_trans (ih _ base (.inr ⟨callee, rfl⟩)) rfl
  | closedBehind _ _ ih ihlast => exact ih.closedBehind ihlast
  | nothing =>
    intro base _
    rfl
  | @unary frames w m op s front operator ih =>
    intro base hbase
    refine run_trans (ih base hbase) ?_
    rw [run_singleton]
    cases m <;> simp_all [prefixOperator?, step, stepOperand]
  | @binary frames last w v op s front operand await ih ihoperand =>
    intro base hbase
    refine run_trans (ih base hbase) (run_trans (ihoperand (frames ++ base)) ?_)
    rw [run_singleton]
    simp only [step, await, Bool.false_eq_true, if_false, stepMark,
      settle_append front.isPending hbase, List.cons_append]
  | conditional front _ set _ ih ihoperand ihinner =>
    exact ih.conditional front.isPending ihoperand set ihinner _ _
  | @remark frame frames w s front ih =>
    intro base hbase
    refine run_trans (ih base hbase) ?_
    -- lines are set aside behind an operation, and only such constructs wait here
    have hframe := front.isPending frame (List.mem_cons_self ..)
    cases frame <;> first | rfl | cases hframe
  | @whole frames last w v front operand ih ihoperand =>
    intro base hbase
    exact ⟨frames ++ base, last, run_trans (ih base hbase) (ihoperand _),
      close_append front.isPending hbase⟩

/-! ## Derivations of what was read -/

/-- The tokens that opened a stack of constructs: each opening stands behind the operations that wait
for what it opens. -/
inductive Opened : List Frame → List Token → Prop
  | bottom : Opened [] []
  | paren {base frames : List Frame} {u w : List Token} {s : Span} (below : Opened base u)
      (front : Reads (.pending frames) w) :
      Opened (.paren s.start :: (frames ++ base)) (u ++ w ++ [⟨.mark .openParen, s⟩])
  | array {base frames : List Frame} {elements : List Operand} {u w v : List Token} {s : Span}
      (below : Opened base u) (front : Reads (.pending frames) w) (inner : Reads (.items elements) v) :
      Opened (.array s.start elements :: (frames ++ base))
        (u ++ w ++ (⟨.mark .openBracket, s⟩ :: v))
  | arguments {base frames : List Frame} {callee : Operand} {arguments : List Operand}
      {u w v x : List Token} {s : Span} (below : Opened base u) (front : Reads (.pending frames) w)
      (head : Reads (.primary callee) v) (await : callee.isAwait = false)
      (inner : Reads (.items arguments) x) :
      Opened (.arguments callee arguments :: (frames ++ base))
        (u ++ w ++ (v ++ (⟨.mark .openParen, s⟩ :: x)))
  | index {base frames : List Frame} {object : Operand} {optional : Bool}
      {u w v link remarks : List Token} (below : Opened base u) (front : Reads (.pending frames) w)
      (head : Reads (.primary object) v) (linked : Link object optional link)
      (set : Remarks remarks) :
      Opened (.index object optional :: (frames ++ base)) (u ++ w ++ (v ++ (link ++ remarks)))
  | consequent {base frames : List Frame} {last : Operand} {u w v remarks : List Token} {s : Span}
      (below : Opened base u) (front : Reads (.pending frames) w)
      (operand : Reads (.primary last) v) (set : Remarks remarks) :
      Opened (.consequent (settle 0 frames last).2 :: ((settle 0 frames last).1 ++ base))
        (u ++ w ++ (v ++ (⟨.mark .question, s⟩ :: remarks)))

/-- An opened stack has a bar on top. -/
theorem Opened.barred {u : List Token} (h : Opened base u) : Barred base := by
  cases h with
  | bottom => exact barred_nil
  | _ => exact barred_cons.mpr rfl

/-- Derivations account for the tokens that were read before an operand. -/
def Awaits (frames : List Frame) (w : List Token) : Prop :=
  ∃ base above u v, frames = above ++ base ∧ w = u ++ v ∧ Opened base u ∧ Reads (.pending above) v

/-- Derivations account for the tokens that were read up to a state. -/
def Stands : State → List Token → Prop
  | .operand frames, w => Awaits frames w
  | .operator frames last, w =>
    ∃ u v, w = u ++ v ∧ Awaits frames u ∧ Reads (.primary last) v
  | .property frames object optional, w =>
    ∃ u v s remarks, w = u ++ (v ++ (⟨.mark .dot, s⟩ :: remarks)) ∧ Awaits frames u ∧
      Reads (.primary object) v ∧ Remarks remarks ∧ optional = false
  | .chain frames object, w =>
    ∃ u v s remarks, w = u ++ (v ++ (⟨.mark .chain, s⟩ :: remarks)) ∧ Awaits frames u ∧
      Reads (.primary object) v ∧ Remarks remarks

/-- A freshly opened stack awaits an operand. -/
theorem Opened.awaits {u w : List Token} (h : Opened base u) (hw : w = u) : Awaits base w :=
  ⟨base, [], u, [], rfl, by rw [hw, List.append_nil], h, .nothing⟩

theorem Remarks.nil : Remarks [] := by
  intro token h
  cases h

theorem Remarks.concat {w : List Token} (h : Remarks w) (s : Span) : Remarks (w ++ [⟨.remark, s⟩]) := by
  intro token ht
  rcases List.mem_append.mp ht with ht | ht
  · exact h token ht
  · rw [List.mem_singleton.mp ht]

/-- Operations that wait are never on top of a stack with a bar on top. -/
theorem Awaits.opened {frame : Frame} {w : List Token} (h : Awaits (frame :: frames) w)
    (hframe : frame.isPending = false) : Opened (frame :: frames) w := by
  obtain ⟨base, above, u, v, hframes, rfl, hopened, habove⟩ := h
  cases above with
  | nil =>
    cases habove
    rw [List.append_nil]
    exact hframes ▸ hopened
  | cons f above =>
    rw [List.cons_append, List.cons.injEq] at hframes
    have := habove.isPending f (List.mem_cons_self ..)
    rw [← hframes.1, hframe] at this
    cases this

/-- Derivations still account for the tokens behind one more line set aside. -/
theorem Awaits.remark {w : List Token} (h : Awaits frames w) (hallows : allowsRemark frames = true)
    (s : Span) : Awaits frames (w ++ [⟨.remark, s⟩]) := by
  obtain ⟨base, above, u, v, rfl, rfl, hopened, habove⟩ := h
  cases above with
  | cons f above => exact ⟨base, _, u, _, rfl, List.append_assoc .., hopened, habove.remark⟩
  | nil =>
    cases habove
    cases hopened with
    | index below front head linked set =>
      exact (Opened.index below front head linked (set.concat s)).awaits (by simp)
    | @consequent _ _ _ _ _ _ _ s' below front operand set =>
      exact (Opened.consequent (s := s') below front operand (set.concat s)).awaits (by simp)
    | _ => cases hallows

section Empty

variable {w : List Token} {s : Span} {next : State}

/-- A comma where an item may come. -/
theorem stands_elision (h : Awaits frames w)
    (hstep : stepOperand frames ⟨.mark .comma, s⟩ = some next) :
    Stands next (w ++ [⟨.mark .comma, s⟩]) := by
  simp only [stepOperand] at hstep
  split at hstep
  · cases hstep
    cases h.opened rfl with
    | array below front inner =>
      exact (Opened.array below front (inner.elision (s := s))).awaits (by simp)
  · cases hstep
    cases h.opened rfl with
    | @arguments _ _ _ _ _ _ _ _ s' below front head await inner =>
      exact (Opened.arguments (s := s') below front head await (inner.elision (s := s))).awaits
        (by simp)
  · cases hstep

/-- A closing parenthesis where an argument may come. -/
theorem stands_lastArgument (h : Awaits frames w)
    (hstep : stepOperand frames ⟨.mark .closeParen, s⟩ = some next) :
    Stands next (w ++ [⟨.mark .closeParen, s⟩]) := by
  simp only [stepOperand] at hstep
  split at hstep
  · cases hstep
    cases h.opened rfl with
    | @arguments _ _ _ _ _ _ _ _ s' below front head await inner =>
      refine ⟨_, _, ?_, ⟨_, _, _, _, rfl, rfl, below, front⟩,
        head.call await (.closed inner) (s := s') (e := s)⟩
      simp
  · cases hstep

/-- A closing bracket where an element may come. -/
theorem stands_lastElement (h : Awaits frames w)
    (hstep : stepOperand frames ⟨.mark .closeBracket, s⟩ = some next) :
    Stands next (w ++ [⟨.mark .closeBracket, s⟩]) := by
  simp only [stepOperand] at hstep
  split at hstep
  · cases hstep
    cases h.opened rfl with
    | array below front inner =>
      refine ⟨_, _, ?_, ⟨_, _, _, _, rfl, rfl, below, front⟩, .array (.closed inner) (e := s)⟩
      simp
  · cases hstep

end Empty

/-- A token where an operand must come. -/
theorem stands_stepOperand {w : List Token} {token : Token} {next : State} (h : Awaits frames w)
    (hstep : stepOperand frames token = some next) : Stands next (w ++ [token]) := by
  obtain ⟨shape, s⟩ := token
  -- a sign is a prefix here, though the same mark stands between operands elsewhere
  have hprefix : ∀ m op, prefixOperator? m = some op →
      Awaits (.unary op s.start :: frames) (w ++ [⟨.mark m, s⟩]) := by
    intro m op hop
    obtain ⟨base, above, u, v, rfl, rfl, hopened, habove⟩ := h
    exact ⟨base, _, u, _, rfl, List.append_assoc .., hopened, habove.unary hop⟩
  cases shape with
  | word name =>
    simp only [stepOperand, Option.map_eq_some_iff] at hstep
    obtain ⟨o, ho, rfl⟩ := hstep
    exact ⟨w, _, rfl, h, .word ho⟩
  | literal raw =>
    cases hstep
    exact ⟨w, _, rfl, h, .literal⟩
  | remark =>
    simp only [stepOperand] at hstep
    split at hstep
    · rename_i hallows
      cases hstep
      exact h.remark hallows s
    · cases hstep
  | mark m =>
    cases m with
    | unary op =>
      cases hstep
      exact hprefix _ op rfl
    | binary op =>
      simp only [stepOperand, Option.map_eq_some_iff] at hstep
      obtain ⟨sign, hsign, rfl⟩ := hstep
      exact hprefix _ sign hsign
    | openParen =>
      cases hstep
      obtain ⟨base, above, u, v, rfl, rfl, hopened, habove⟩ := h
      exact (Opened.paren hopened habove).awaits rfl
    | openBracket =>
      cases hstep
      obtain ⟨base, above, u, v, rfl, rfl, hopened, habove⟩ := h
      exact (Opened.array hopened habove .noItems).awaits rfl
    | comma => exact stands_elision h hstep
    | closeParen => exact stands_lastArgument h hstep
    | closeBracket => exact stands_lastElement h hstep
    | _ => cases hstep

section Closing

variable {u v : List Token} {o : Operand} {s : Span} {next : State}

/-- A comma behind an item. -/
theorem stands_comma (hopened : Opened base u) (hwhole : Reads (.whole o) v)
    (hclose : close frames last = (base, o)) (hstep : stepMark frames last .comma s = some next) :
    Stands next (u ++ (v ++ [⟨.mark .comma, s⟩])) := by
  simp only [stepMark, hclose] at hstep
  split at hstep
  · cases hstep
    rename_i heq
    cases heq
    cases hopened with
    | array below front inner =>
      exact (Opened.array below front (inner.item hwhole (s := s))).awaits (by simp)
  · cases hstep
    rename_i heq
    cases heq
    cases hopened with
    | @arguments _ _ _ _ _ _ _ _ s' below front head await inner =>
      exact (Opened.arguments (s := s') below front head await (inner.item hwhole (s := s))).awaits
        (by simp)
  · cases hstep

/-- A colon behind the first half of a conditional. -/
theorem stands_colon (hopened : Opened base u) (hwhole : Reads (.whole o) v)
    (hclose : close frames last = (base, o)) (hstep : stepMark frames last .colon s = some next) :
    Stands next (u ++ (v ++ [⟨.mark .colon, s⟩])) := by
  simp only [stepMark, hclose] at hstep
  split at hstep
  · cases hstep
    rename_i heq
    cases heq
    cases hopened with
    | @consequent _ _ _ _ _ _ _ s' below front operand set =>
      refine ⟨_, _, _, _, rfl, ?_, below,
        front.conditional operand set hwhole (s := s') (e := s)⟩
      simp
  · cases hstep

/-- A closing parenthesis behind an expression in parentheses or behind a last argument. -/
theorem stands_closeParen (hopened : Opened base u) (hwhole : Reads (.whole o) v)
    (hclose : close frames last = (base, o))
    (hstep : stepMark frames last .closeParen s = some next) :
    Stands next (u ++ (v ++ [⟨.mark .closeParen, s⟩])) := by
  simp only [stepMark, hclose] at hstep
  split at hstep
  · cases hstep
    rename_i heq
    cases heq
    cases hopened with
    | paren below front =>
      refine ⟨_, _, ?_, ⟨_, _, _, _, rfl, rfl, below, front⟩, .parenthesized hwhole (e := s)⟩
      simp
  · cases hstep
    rename_i heq
    cases heq
    cases hopened with
    | @arguments _ _ _ _ _ _ _ _ s' below front head await inner =>
      refine ⟨_, _, ?_, ⟨_, _, _, _, rfl, rfl, below, front⟩,
        head.call await (.closedBehind inner hwhole) (s := s') (e := s)⟩
      simp
  · cases hstep

/-- A closing bracket behind a last element or behind a computed position. -/
theorem stands_closeBracket (hopened : Opened base u) (hwhole : Reads (.whole o) v)
    (hclose : close frames last = (base, o))
    (hstep : stepMark frames last .closeBracket s = some next) :
    Stands next (u ++ (v ++ [⟨.mark .closeBracket, s⟩])) := by
  simp only [stepMark, hclose] at hstep
  split at hstep
  · cases hstep
    rename_i heq
    cases heq
    cases hopened with
    | array below front inner =>
      refine ⟨_, _, ?_, ⟨_, _, _, _, rfl, rfl, below, front⟩,
        .array (.closedBehind inner hwhole) (e := s)⟩
      simp
  · cases hstep
    rename_i heq
    cases heq
    cases hopened with
    | index below front head linked set =>
      refine ⟨_, _, ?_, ⟨_, _, _, _, rfl, rfl, below, front⟩,
        head.index linked set hwhole (s := s)⟩
      simp
  · cases hstep

end Closing

/-- A mark behind an operand. -/
theorem stands_stepMark {u v : List Token} {m : Mark} {s : Span} {next : State}
    (h : Awaits frames u) (hlast : Reads (.primary last) v)
    (hawait : (last.isAwait && startsOperand m) = false)
    (hstep : stepMark frames last m s = some next) : Stands next (u ++ v ++ [⟨.mark m, s⟩]) := by
  obtain ⟨base, above, x, w, rfl, rfl, hopened, habove⟩ := h
  -- a mark that closes something takes the operations above the bar with the operand
  have hwhole := habove.whole hlast
  have hclose := @close_append _ _ last habove.isPending hopened.barred
  have hassoc : x ++ w ++ v ++ [⟨.mark m, s⟩] = x ++ (w ++ v ++ [⟨.mark m, s⟩]) := by
    simp only [List.append_assoc]
  have hsettle := @settle_append _ _ last habove.isPending hopened.barred
  cases m with
  | dot =>
    cases hstep
    exact ⟨_, v, s, [], by simp, ⟨base, above, x, w, rfl, rfl, hopened, habove⟩, hlast, .nil, rfl⟩
  | chain =>
    cases hstep
    exact ⟨_, v, s, [], by simp, ⟨base, above, x, w, rfl, rfl, hopened, habove⟩, hlast, .nil⟩
  | comma => exact hassoc ▸ stands_comma hopened hwhole hclose hstep
  | colon => exact hassoc ▸ stands_colon hopened hwhole hclose hstep
  | closeParen => exact hassoc ▸ stands_closeParen hopened hwhole hclose hstep
  | closeBracket => exact hassoc ▸ stands_closeBracket hopened hwhole hclose hstep
  | question =>
    simp only [stepMark, hsettle] at hstep
    cases hstep
    exact (Opened.consequent (s := s) hopened habove hlast .nil).awaits (by simp)
  | openParen =>
    cases hstep
    have hnot : last.isAwait = false := by simpa [startsOperand] using hawait
    exact (Opened.arguments (s := s) hopened habove hlast hnot .noItems).awaits (by simp)
  | openBracket =>
    cases hstep
    have hnot : last.isAwait = false := by simpa [startsOperand] using hawait
    exact (Opened.index hopened habove hlast (.plain hnot (s := s)) .nil).awaits (by simp)
  | unary op => cases hstep
  | binary op =>
    simp only [stepMark, hsettle] at hstep
    cases hstep
    exact ⟨base, _, x, _, rfl, by simp, hopened, habove.binary hlast hawait (s := s)⟩

/-- One token keeps the account. -/
theorem stands_step {state next : State} {w : List Token} {token : Token} (h : Stands state w)
    (hstep : step state token = some next) : Stands next (w ++ [token]) := by
  cases state with
  | operand frames => exact stands_stepOperand h hstep
  | operator frames last =>
    obtain ⟨shape, s⟩ := token
    obtain ⟨u, v, rfl, hfront, hlast⟩ := h
    cases shape with
    | mark m =>
      simp only [step] at hstep
      split at hstep
      · cases hstep
      · rename_i hawait
        exact stands_stepMark hfront hlast (by simpa using hawait) hstep
    | _ => cases hstep
  | property frames object optional =>
    obtain ⟨shape, s⟩ := token
    obtain ⟨u, v, s', remarks, rfl, hfront, hobject, hset, rfl⟩ := h
    cases shape with
    | word name =>
      cases hstep
      exact ⟨u, _, by simp [accessMark], hfront, hobject.member hset (s := s') (e := s)⟩
    | remark =>
      cases hstep
      exact ⟨u, v, s', _, by simp, hfront, hobject, hset.concat s, rfl⟩
    | _ => cases hstep
  | chain frames object =>
    obtain ⟨shape, s⟩ := token
    obtain ⟨u, v, s', remarks, rfl, hfront, hobject, hset⟩ := h
    cases shape with
    | word name =>
      cases hstep
      exact ⟨u, _, by simp [accessMark], hfront, hobject.member hset (s := s') (e := s)⟩
    | remark =>
      cases hstep
      exact ⟨u, v, s', _, by simp, hfront, hobject, hset.concat s⟩
    | mark m =>
      simp only [step] at hstep
      split at hstep
      · rename_i hm
        cases hm
      · rename_i hm
        cases hm
        cases hstep
        -- behind the mark of an optional access a bracket opens instead of a name
        obtain ⟨base, above, x, y, rfl, rfl, hopened, habove⟩ := hfront
        exact (Opened.index hopened habove hobject (.optional hset (s := s') (e := s)) .nil).awaits
          (by simp)
      · rename_i hm
        cases hm
      · cases hstep
    | literal raw => cases hstep

/-- Wherever the reading arrives, derivations account for the tokens behind it. -/
theorem stands_of_run {state final : State} {w v : List Token} (h : Stands state w)
    (hrun : run state v = some final) : Stands final (w ++ v) := by
  induction v generalizing state w with
  | nil =>
    cases hrun
    rwa [List.append_nil]
  | cons token v ih =>
    rw [run_cons, Option.bind_eq_some_iff] at hrun
    obtain ⟨next, hstep, hrest⟩ := hrun
    simpa using ih (stands_step h hstep) hrest

/-- **A token list is read as an operand exactly if a derivation gives it.** -/
theorem parse?_eq_some_iff {tokens : List Token} {o : Operand} :
    parse? tokens = some o ↔ Reads (.whole o) tokens := by
  constructor
  · intro h
    rw [parse?, Option.bind_eq_some_iff] at h
    obtain ⟨final, hrun, hfinish⟩ := h
    have hstart : Stands (.operand []) [] := Opened.bottom.awaits rfl
    have hstands := stands_of_run hstart hrun
    cases final with
    | operator frames last =>
      obtain ⟨u, v, htokens, ⟨base, above, x, w, rfl, rfl, hopened, habove⟩, hlast⟩ := hstands
      simp only [State.finish?, close_append habove.isPending hopened.barred] at hfinish
      split at hfinish
      · rename_i heq
        cases heq
        cases hfinish
        -- no bracket is open at the end, or the frames would not have been completed
        cases hopened
        rw [List.nil_append, List.nil_append] at htokens
        rw [htokens]
        exact habove.whole hlast
      · cases hfinish
    | _ => cases hfinish
  · intro h
    obtain ⟨frames, last, hrun, hclose⟩ := h.runs [] barred_nil
    rw [parse?]
    show (run (.operand []) tokens).bind State.finish? = some o
    rw [hrun]
    simp [State.finish?, hclose]

end DataBinding.Expression
