/-
# Accepted texts in parentheses

An accepted text can stand in parentheses inside a longer text: there it is read as the same
expression, further to the right, and it does not touch what surrounds it.  A pair of parentheses
counts as one level of nesting, so only the limit of levels can be in the way.

* `Lexed.enclosed`  : the tokens of a text in parentheses, in front of others.
* `read?_enclosed`  : a text in parentheses is read as the same expression.
* `read?_sum`       : two texts in parentheses, with a sign between them.
* `parse_sum`       : the sum of two accepted texts.
-/
import DataBinding.Proofs.Expression.Enclosing
import DataBinding.Proofs.Expression.Shifting
import DataBinding.Proofs.Synthesis.Replacement

namespace DataBinding.Expression

variable {t u r : Text}

/-! ## Marks -/

/-- Parentheses and commas are marks whatever stands around them. -/
theorem Lexed.mark {position : Nat} {now : Expecting} {wide : Bool} {c : Char} {mark : Mark}
    {tokens : List Token} (hmark : (c, mark) ∈ [('(', .openParen), (')', .closeParen), (',', .comma)])
    (h : Lexed (position + 1) (now.next (.mark mark)) true t tokens) :
    Lexed position now wide (c :: t) (⟨.mark mark, position, position + 1⟩ :: tokens) := by
  have hhead : Heads now wide [c] t (.mark mark) ∧ Text.byteLength [c] = 1 := by
    simp only [List.mem_cons, Prod.mk.injEq, List.not_mem_nil, or_false] at hmark
    rcases hmark with ⟨rfl, rfl⟩ | ⟨rfl, rfl⟩ | ⟨rfl, rfl⟩
    · exact ⟨⟨by decide, rfl, by cases now <;> cases wide <;> rfl⟩, rfl⟩
    · exact ⟨⟨by decide, rfl, by cases now <;> cases wide <;> rfl⟩, rfl⟩
    · exact ⟨⟨by decide, rfl, by cases now <;> cases wide <;> rfl⟩, rfl⟩
  exact .token (g := []) (w := [c]) .nil hhead.1 rfl (congrArg _ hhead.2).symm h

/-- A sign with a blank behind it. -/
theorem heads_add (wide : Bool) (t : Text) :
    Heads .operator wide ['+'] (' ' :: t) (.mark (.binary .add)) where
  tight := by decide
  plain := rfl
  read := by cases wide <;> rfl

/-! ## Texts in parentheses -/

/-- A text in parentheses. -/
def enclosed (t : Text) : Text :=
  '(' :: (t ++ [')'])

theorem byteLength_enclosed (t : Text) : Text.byteLength (enclosed t) = Text.byteLength t + 2 := by
  rw [enclosed, Text.byteLength, Text.byteLength_append]
  show 1 + (_ + 1) = _
  omega

/-- Tokens further to the right, between parentheses around a text of the given length. -/
def enclosedTokens (position length : Nat) (w : List Token) : List Token :=
  ⟨.mark .openParen, position, position + 1⟩ :: (w.map (.shift (position + 1)) ++
    [⟨.mark .closeParen, position + length + 1, position + length + 2⟩])

/-- An operand further to the right, in parentheses around a text of the given length. -/
def Operand.enclosed (position length : Nat) (o : Operand) : Operand :=
  .parenthesized ⟨position, position + length + 2⟩ (o.shift (position + 1))

/-- Between parentheses a text has the tokens that it has alone, further to the right. -/
theorem Lexed.enclosed {position stop : Nat} {wide : Bool} {w rest : List Token} {o : Operand}
    (htokens : tokens? t = some w) (hreads : Reads (.whole o) w)
    (hstop : stop = position + Text.byteLength t + 2)
    (hrest : Lexed stop .operator true r rest) :
    Lexed position .operand wide (enclosed t ++ r)
      (enclosedTokens position (Text.byteLength t) w ++ rest) := by
  have hinner : Lexed (position + 1) .operand true t (w.map (.shift (position + 1))) := by
    have hshift := (tokensFrom_iff.mp htokens).shift (position + 1)
    rwa [Nat.zero_add] at hshift
  have hleads := (hreads.shift (position + 1)).leads
  have htext : Expression.enclosed t ++ r = '(' :: (t ++ ')' :: r) := by
    simp [Expression.enclosed]
  have hsplit : enclosedTokens position (Text.byteLength t) w ++ rest =
      ⟨.mark .openParen, position, position + 1⟩ :: (w.map (.shift (position + 1)) ++
        ⟨.mark .closeParen, position + Text.byteLength t + 1, stop⟩ :: rest) := by
    simp [enclosedTokens, hstop]
  subst hstop
  rw [htext, hsplit]
  refine .mark (by decide) (hinner.close hleads fun wide => ?_)
  rw [Nat.add_right_comm position]
  exact .mark (by decide) hrest

/-- They stand for the operand, further to the right and one level deeper. -/
theorem Reads.enclosed {w : List Token} {o : Operand} (h : Reads (.whole o) w)
    (position length : Nat) :
    Reads (.primary (o.enclosed position length)) (enclosedTokens position length w) :=
  .parenthesized (s := ⟨position, position + 1⟩) (e := ⟨position + length + 1, position + length + 2⟩)
    (h.shift (position + 1))

/-- A text is read as an operand if its tokens stand for it. -/
theorem read?_eq_some_iff {o : Operand} :
    read? t = some o ↔ ∃ w, tokens? t = some w ∧ Reads (.whole o) w := by
  rw [read?, Option.bind_eq_some_iff]
  simp only [parse?_eq_some_iff]

/-- **A text in parentheses is read as the same expression, one byte later and one level deeper.** -/
theorem read?_enclosed {o : Operand} (h : read? t = some o) :
    read? (enclosed t) = some (o.enclosed 0 (Text.byteLength t)) := by
  obtain ⟨w, htokens, hreads⟩ := read?_eq_some_iff.mp h
  have hlexed : Lexed 0 .operand true (enclosed t ++ []) _ :=
    .enclosed htokens hreads rfl (.done .nil)
  rw [List.append_nil, List.append_nil] at hlexed
  exact read?_eq_some_iff.mpr ⟨_, tokensFrom_iff.mpr hlexed, .whole .nothing (hreads.enclosed 0 _)⟩

/-! ## Sums -/

/-- Two texts in parentheses with a sign between them. -/
def sum (t u : Text) : Text :=
  enclosed t ++ (" + ".toList ++ enclosed u)

theorem byteLength_sum (t u : Text) :
    Text.byteLength (sum t u) = Text.byteLength t + Text.byteLength u + 7 := by
  have hsign : Text.byteLength " + ".toList = 3 := by decide
  rw [sum, Text.byteLength_append, Text.byteLength_append, byteLength_enclosed, byteLength_enclosed,
    hsign]
  omega

/-- **The sum of two texts is read as an addition of what they are read as alone.** -/
theorem read?_sum {o p : Operand} (ht : read? t = some o) (hu : read? u = some p) :
    read? (sum t u) = some (.binary .add (o.enclosed 0 (Text.byteLength t))
      (p.enclosed (Text.byteLength t + 5) (Text.byteLength u))) := by
  obtain ⟨w, htokens, hreads⟩ := read?_eq_some_iff.mp ht
  obtain ⟨v, htokens', hreads'⟩ := read?_eq_some_iff.mp hu
  have hright : Lexed (Text.byteLength t + 5) .operand true (enclosed u ++ [])
      (enclosedTokens (Text.byteLength t + 5) (Text.byteLength u) v ++ []) :=
    .enclosed htokens' hreads' rfl (.done .nil)
  rw [List.append_nil, List.append_nil] at hright
  have hsign : Lexed (0 + Text.byteLength t + 2) .operator true (" + ".toList ++ enclosed u)
      (⟨.mark (.binary .add), Text.byteLength t + 3, Text.byteLength t + 4⟩ ::
        enclosedTokens (Text.byteLength t + 5) (Text.byteLength u) v) := by
    refine .blank (by decide) (.token (g := []) (w := ['+']) .nil (heads_add _ _) ?_ rfl
      (.blank (by decide) hright))
    show _ = 0 + Text.byteLength t + 2 + 1 + 0
    omega
  have hlexed : Lexed 0 .operand true (sum t u) _ := .enclosed htokens hreads rfl hsign
  -- in parentheses `await` is no keyword that takes what follows as its operand
  have hawait : (o.enclosed 0 (Text.byteLength t)).isAwait = false :=
    isAwait_parenthesized (hreads.shift 1) hlexed.ordered.1.left
  have hfront : Reads (.pending [.binary .add (o.enclosed 0 (Text.byteLength t))])
      ([] ++ (enclosedTokens 0 (Text.byteLength t) w ++
        [⟨.mark (.binary .add), Text.byteLength t + 3, Text.byteLength t + 4⟩])) :=
    .binary .nothing (hreads.enclosed 0 (Text.byteLength t))
      (Bool.and_eq_false_iff.mpr (.inl hawait))
  have hwhole := hfront.whole (hreads'.enclosed (Text.byteLength t + 5) (Text.byteLength u))
  rw [List.nil_append, List.append_assoc, List.singleton_append] at hwhole
  exact read?_eq_some_iff.mpr ⟨_, tokensFrom_iff.mpr hlexed, hwhole⟩

/-! ## Accepted texts -/

/-- A text that is read is refused for its nesting only. -/
theorem parse_of_read? {o : Operand} (hblank : t.allBlank = false) (h : read? t = some o) :
    parse t = if o.levels ≤ maxLevels then .ok o.expr else .error ⟨.tooDeep, t, none⟩ := by
  rw [parse, hblank, if_neg Bool.false_ne_true, h]

/-- An accepted text is read. -/
theorem read?_of_parse {e : Expr} (h : parse t = .ok e) :
    ∃ o, read? t = some o ∧ o.levels ≤ maxLevels ∧ o.expr = e := by
  obtain ⟨-, w, o, htokens, hreads, hlevels, he⟩ := Synthesis.parse_eq_ok_iff.mp h
  exact ⟨o, read?_eq_some_iff.mpr ⟨w, htokens, hreads⟩, hlevels, he⟩

/-- A text that is read is accepted if its levels are not too many. -/
theorem accepted_iff {o : Operand} (hblank : t.allBlank = false) (h : read? t = some o) :
    (∃ e, parse t = .ok e) ↔ o.levels ≤ maxLevels := by
  rw [parse_of_read? hblank h]
  by_cases hlevels : o.levels ≤ maxLevels
  · rw [if_pos hlevels]
    exact ⟨fun _ => hlevels, fun _ => ⟨o.expr, rfl⟩⟩
  · rw [if_neg hlevels]
    constructor
    · rintro ⟨e, he⟩
      cases he
    · exact fun h => absurd h hlevels

/-- **An accepted text is self-contained.**  In parentheses two accepted texts are the operands of the
sign between them, or the whole is nested too deeply; it is not exactly if each text can stand in two
pairs of parentheses. -/
theorem parse_sum {e f : Expr} (ht : parse t = .ok e) (hu : parse u = .ok f) :
    (parse (sum t u) = .ok (.binary ⟨0, Text.byteLength (sum t u)⟩ .add (e.shift 1)
        (f.shift (Text.byteLength t + 6))) ∨
      parse (sum t u) = .error ⟨.tooDeep, sum t u, none⟩) ∧
    ((∃ g, parse (sum t u) = .ok g) ↔
      (∃ g, parse (enclosed (enclosed t)) = .ok g) ∧
        ∃ g, parse (enclosed (enclosed u)) = .ok g) := by
  obtain ⟨o, hread, -, rfl⟩ := read?_of_parse ht
  obtain ⟨p, hread', -, rfl⟩ := read?_of_parse hu
  have hsum := read?_sum hread hread'
  have hlength : Text.byteLength t + 5 + Text.byteLength u + 2 = Text.byteLength (sum t u) := by
    rw [byteLength_sum]
    omega
  constructor
  · rw [parse_of_read? rfl hsum]
    split
    · refine .inl (congrArg Except.ok ?_)
      rw [← hlength]
      rfl
    · exact .inr rfl
  · rw [accepted_iff rfl hsum, accepted_iff rfl (read?_enclosed (read?_enclosed hread)),
      accepted_iff rfl (read?_enclosed (read?_enclosed hread'))]
    show max (max 0 (o.levels + 1)) (p.levels + 1) + 1 ≤ maxLevels ↔
      o.levels + 2 ≤ maxLevels ∧ p.levels + 2 ≤ maxLevels
    omega

/-- A name between a blank and a comment that holds a closing parenthesis. -/
def remarkedText : Text :=
  " a/* ) */".toList

/-- A member with a line comment behind it. -/
def lineText : Text :=
  "b.c // )\n".toList

/-- The comments close no parenthesis and hide nothing: the sum is read as an addition. -/
theorem parse_sum_remarkedText :
    parse remarkedText = .ok (.identifier ⟨1, 2⟩ ['a']) ∧
      parse lineText = .ok (.member ⟨0, 3⟩ (.identifier ⟨0, 1⟩ ['b']) ['c'] false) ∧
      parse (sum remarkedText lineText) =
        .ok (.binary ⟨0, 25⟩ .add (.identifier ⟨2, 3⟩ ['a'])
          (.member ⟨15, 18⟩ (.identifier ⟨15, 16⟩ ['b']) ['c'] false)) := by
  have hread : read? remarkedText = some ⟨.identifier ⟨1, 2⟩ ['a'], ⟨1, 2⟩, 0⟩ :=
    read?_eq_some_iff.mpr ⟨[⟨.word ['a'], 1, 2⟩], by decide +kernel, parse?_eq_some_iff.mp rfl⟩
  have hread' : read? lineText =
      some ⟨.member ⟨0, 3⟩ (.identifier ⟨0, 1⟩ ['b']) ['c'] false, ⟨0, 3⟩, 1⟩ :=
    read?_eq_some_iff.mpr ⟨[⟨.word ['b'], 0, 1⟩, ⟨.mark .dot, 1, 2⟩, ⟨.word ['c'], 2, 3⟩],
      by decide +kernel, parse?_eq_some_iff.mp rfl⟩
  have hleft := (parse_of_read? (by decide) hread).trans (if_pos (by decide))
  have hright := (parse_of_read? (by decide) hread').trans (if_pos (by decide))
  obtain ⟨hsum, haccepted⟩ := parse_sum hleft hright
  obtain ⟨g, hg⟩ := haccepted.mpr
    ⟨(accepted_iff rfl (read?_enclosed (read?_enclosed hread))).mpr (by decide),
      (accepted_iff rfl (read?_enclosed (read?_enclosed hread'))).mpr (by decide)⟩
  refine ⟨hleft, hright, hsum.resolve_right fun herror => ?_⟩
  cases hg.symm.trans herror

end DataBinding.Expression
