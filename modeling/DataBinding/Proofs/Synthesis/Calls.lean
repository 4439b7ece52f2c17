/-
# Generated calls are read as calls

The text that replaces a computation is the name of its function and the passed paths in parentheses.
It is read back as the call of that name with exactly these paths as arguments, so that it is
evaluated natively.

* `readBack_of_parse` : a path of an accepted text is read back as itself.
* `readItems`         : paths with commas between them are read as the items of a bracket.
* `read?_callText`    : a generated call is read as the call of its name with its paths.
-/
import DataBinding.Binding.Kind
import DataBinding.Proofs.Binding.Swapping
import DataBinding.Proofs.Expression.Nesting
import DataBinding.Proofs.Lexeme.Identifiers
import DataBinding.Proofs.Synthesis.Soundness

namespace DataBinding.Synthesis

open Expression
open Lexeme (Word WordTail Halts)

variable {r path name x : Text} {paths : List Text} {wide : Bool} {position : Nat}
  {rest : Nat → List Token}

/-! ## Marks -/

/-- The dot in front of a name is that of a member. -/
theorem heads_dot (wide : Bool) (hx : Word x) (t : Text) :
    Heads .operator wide ['.'] (x ++ t) (.mark .dot) where
  tight := by decide
  plain := rfl
  read := by
    obtain ⟨c, u, rfl, hc, -⟩ := startsOperand_of_word hx
    have hdigit := Lexeme.isDigit_of_startsOperand hc
    have hnumber : Lexeme.number? ('.' :: c :: (u ++ t)) = none := by
      rw [Lexeme.number?_eq_none_iff]
      refine ⟨by decide, fun _ d hd => ?_⟩
      obtain rfl := Option.some.inj hd
      exact hdigit
    have hmark : markAt? ('.' :: c :: (u ++ t)) = some (.dot, 1) := rfl
    show shapeAt? .operator wide ('.' :: c :: (u ++ t)) = _
    have hword : Lexeme.word? ('.' :: c :: (u ++ t)) = none := rfl
    have hquotation : Lexeme.quotation? ('.' :: c :: (u ++ t)) = none := rfl
    simp [shapeAt?, hnumber, hquotation, hword, hmark]

/-- A mark ends a word. -/
theorem halts_mark {c : Char} (hpart : Lexeme.isWordPart c = false) (hne : c ≠ '\\') (t : Text) :
    Halts (c :: t) :=
  ⟨hpart, fun h => absurd h hne⟩

/-! ## Paths -/

/-- A text is lexed with the given tokens up to a position, where a text follows that may stand behind
an operand. -/
def LexedUpTo (position : Nat) (wide : Bool) (t : Text) (tokens : List Token) (stop : Nat) : Prop :=
  ∀ (r : Text) (rest : List Token), Halts r → Lexed stop .operator true r rest →
    Lexed position .operand wide (t ++ r) (tokens ++ rest)

/-- A path is read as itself wherever it stands. -/
def ReadBack (path : Text) : Prop :=
  ∀ (wide : Bool) (position : Nat), ∃ w o stop, LexedUpTo position wide path w stop ∧
    Reads (.primary o) w ∧ o.expr.path? = some path

/-- A word that is read as a path is read back. -/
theorem ReadBack.word (hx : Word x) (hadmitted : x = Expr.thisName ∨ Lexeme.isReserved x = false) :
    ReadBack x := by
  intro wide position
  have hshape : wordShape .operand x = .word x := by
    rcases hadmitted with rfl | hfree
    · rfl
    · exact wordShape_of_free hfree
  obtain ⟨o, ho, hpath⟩ : ∃ o, wordOperand? x ⟨position, position + Text.byteLength x⟩ = some o ∧
      o.expr.path? = some x := by
    rcases hadmitted with rfl | hfree
    · exact ⟨_, rfl, rfl⟩
    · exact ⟨_, wordOperand?_of_free hfree _, rfl⟩
  refine ⟨_, o, position + Text.byteLength x, fun r rest hhalts hrest => ?_, .word ho, hpath⟩
  have hheads : Heads .operand wide x r (.word x) := hshape ▸ heads_of_word hx hhalts
  exact .token (g := []) .nil hheads rfl rfl hrest

/-- A member of a path that is read back is read back. -/
theorem ReadBack.member {head : Text} (h : ReadBack head) (hx : Word x) :
    ReadBack (head ++ '.' :: x) := by
  intro wide position
  obtain ⟨w, o, p, hlexed, hreads, hpath⟩ := h wide position
  have hmember : Reads (.primary (.member o x (p + 1 + Text.byteLength x) false))
      (w ++ (⟨.mark (accessMark false), p, p + 1⟩ ::
        ([] ++ [⟨.word x, p + 1, p + 1 + Text.byteLength x⟩]))) :=
    .member (s := ⟨p, p + 1⟩) (e := ⟨p + 1, p + 1 + Text.byteLength x⟩) hreads
      (fun _ h => absurd h List.not_mem_nil)
  refine ⟨_, _, p + 1 + Text.byteLength x, fun r rest hhalts hrest => ?_, hmember, ?_⟩
  · have hname : Lexed p .operator true ('.' :: (x ++ r))
        (⟨.mark .dot, p, p + 1⟩ :: ⟨.word x, p + 1, p + 1 + Text.byteLength x⟩ :: rest) :=
      .token (g := []) (w := ['.']) .nil (heads_dot true hx r) rfl rfl
        (.token (g := []) .nil (heads_of_word hx hhalts) rfl rfl hrest)
    have hall := hlexed _ _ (halts_mark (by decide) (by decide) _) hname
    rw [List.append_assoc, List.append_assoc]
    exact hall
  · show (o.expr.path?).map _ = _
    rw [hpath]
    rfl

/-- **A path of an accepted text is read back as itself.** -/
theorem readBack_of_parse {t : Text} {e : Expr} (h : parse t = .ok e) {reference : Reference}
    (hr : reference ∈ e.references) : ReadBack reference.path :=
  spelled_of_parse (fun _ hx hadmitted => .word hx hadmitted) (fun _ _ hhead hx => hhead.member hx) h hr

/-! ## Arguments -/

/-- **Paths with commas between them are read as the items of a bracket**, behind the items in front
of them. -/
theorem readItems {elements : List Operand} {w : List Token} (hpaths : ∀ path ∈ paths, ReadBack path)
    (hne : paths ≠ []) (hfront : Reads (.items elements) w) (wide : Bool) (position : Nat) :
    ∃ v elements' stop, LexedUpTo position wide (Text.join [','] paths) v stop ∧
      Reads (.bracket elements') (w ++ v) ∧
      elements'.reverse.map (·.expr.path?) =
        elements.reverse.map (·.expr.path?) ++ paths.map some := by
  induction paths generalizing elements w wide position with
  | nil => exact absurd rfl hne
  | cons path paths ih =>
    rw [List.forall_mem_cons] at hpaths
    obtain ⟨u, o, p, hlexed, hreads, hpath⟩ := hpaths.1 wide position
    have hitem : Reads (.whole o) ([] ++ u) := .whole .nothing hreads
    -- the last item stands in front of the bracket, and each other one in front of a comma
    cases paths with
    | nil =>
      refine ⟨u, o :: elements, p, hlexed, .closedBehind hfront hitem, ?_⟩
      simp [hpath]
    | cons next paths =>
      obtain ⟨v, elements', stop, hlexed', hreads', helements⟩ :=
        ih hpaths.2 (List.cons_ne_nil _ _) (.item (s := ⟨p, p + 1⟩) hfront hitem) true (p + 1)
      refine ⟨u ++ ⟨.mark .comma, p, p + 1⟩ :: v, elements', stop, fun r rest hhalts hrest => ?_, ?_, ?_⟩
      · have hcomma : Lexed p .operator true (',' :: (Text.join [','] (next :: paths) ++ r))
            (⟨.mark .comma, p, p + 1⟩ :: (v ++ rest)) :=
          .mark (by decide) (hlexed' r rest hhalts hrest)
        have hall := hlexed _ _ (halts_mark (by decide) (by decide) _) hcomma
        simpa [Text.join] using hall
      · simpa using hreads'
      · rw [helements]
        simp [hpath]

/-! ## Calls -/

/-- Paths in parentheses are read as the arguments of a call. -/
theorem readArguments (hpaths : ∀ path ∈ paths, ReadBack path) (wide : Bool) (position : Nat) :
    ∃ v arguments stop, Reads (.bracket arguments) v ∧
      arguments.reverse.map (·.expr.path?) = paths.map some ∧
      Lexed position .operand wide (Text.join [','] paths ++ [')'])
        (v ++ [⟨.mark .closeParen, stop, stop + 1⟩]) := by
  by_cases hne : paths = []
  · subst hne
    exact ⟨[], [], position, .closed .noItems, rfl, .mark (by decide) (.done .nil)⟩
  · obtain ⟨v, arguments, stop, hlexed, hreads, harguments⟩ :=
      readItems hpaths hne .noItems wide position
    have hclose : Lexed stop .operator true [')'] [⟨.mark .closeParen, stop, stop + 1⟩] :=
      .mark (by decide) (.done .nil)
    exact ⟨v, arguments, stop, hreads, harguments,
      hlexed _ _ (halts_mark (by decide) (by decide) _) hclose⟩

/-- **A generated call is read as the call of its name with its paths.** -/
theorem read?_callText (hword : Word name) (hfree : Lexeme.isReserved name = false)
    (hawait : name ≠ awaitName) (hpaths : ∀ path ∈ paths, ReadBack path) :
    ∃ o s s' arguments, read? (callText name paths) = some o ∧
      o.expr = .call s (.identifier s' name) arguments ∧
      arguments.map Expr.path? = paths.map some := by
  obtain ⟨v, arguments, stop, hbracket, hpath, hlexed⟩ :=
    readArguments hpaths true (Text.byteLength name + 1)
  have hname : Reads (.primary (.leaf (.identifier ⟨0, Text.byteLength name⟩ name)))
      [⟨.word name, 0, Text.byteLength name⟩] :=
    .word (wordOperand?_of_free hfree _)
  have hcallee : (Operand.leaf (.identifier ⟨0, Text.byteLength name⟩ name)).isAwait = false :=
    Bool.and_eq_false_iff.mpr (.inl (beq_eq_false_iff_ne.mpr hawait))
  have hcall := Reads.call (s := ⟨Text.byteLength name, Text.byteLength name + 1⟩)
    (e := ⟨stop, stop + 1⟩) hname hcallee hbracket
  have htext : callText name paths = name ++ ('(' :: (Text.join [','] paths ++ [')'])) := by
    simp [callText]
  have hparen : Lexed (Text.byteLength name) .operator true ('(' :: (Text.join [','] paths ++ [')']))
      (⟨.mark .openParen, Text.byteLength name, Text.byteLength name + 1⟩ ::
        (v ++ [⟨.mark .closeParen, stop, stop + 1⟩])) :=
    .mark (by decide) hlexed
  -- the name is no operator, since it is not reserved
  have hhead : Heads .operand true name ('(' :: (Text.join [','] paths ++ [')'])) (.word name) :=
    wordShape_of_free hfree ▸ heads_of_word hword (halts_mark (by decide) (by decide) _)
  have hwhole : Lexed 0 .operand true (callText name paths) ([⟨.word name, 0, Text.byteLength name⟩] ++
      (⟨.mark .openParen, Text.byteLength name, Text.byteLength name + 1⟩ ::
        (v ++ [⟨.mark .closeParen, stop, stop + 1⟩]))) := by
    rw [htext]
    exact .token (g := []) .nil hhead rfl (Nat.zero_add _).symm hparen
  refine ⟨.call (.leaf (.identifier ⟨0, Text.byteLength name⟩ name)) arguments.reverse (stop + 1), _, _,
    arguments.reverse.map (·.expr), ?_, rfl, ?_⟩
  · exact read?_eq_some_iff.mpr ⟨_, tokensFrom_iff.mpr hwhole, .whole .nothing hcall⟩
  · rw [List.map_map]
    exact hpath

/-! ## Names of functions -/

/-- The words that are no names of functions hold no digit. -/
theorem isDigit_of_mem_reservedWords :
    ∀ x ∈ awaitName :: Lexeme.reservedWords, ∀ c ∈ x, c.isDigit = false := by
  decide

/-- **The names of generated functions are words**, and none of those with a meaning of their own. -/
theorem word_functionName {scope : Scope} (hident : scope.functionPrefix.isIdentifier = true) (n : Nat) :
    Word (scope.functionName n) ∧ Lexeme.isReserved (scope.functionName n) = false ∧
      scope.functionName n ≠ awaitName := by
  have hdigits : ∀ c ∈ Scope.numeral n, c.isDigit = true := fun c hc =>
    Nat.isDigit_of_mem_toDigits (by decide) (by decide) hc
  obtain ⟨c, hc⟩ := List.exists_mem_of_ne_nil (Scope.numeral n) Nat.toDigits_ne_nil
  have hother : scope.functionName n ∉ awaitName :: Lexeme.reservedWords := by
    intro hmem
    have hdigit := isDigit_of_mem_reservedWords _ hmem c (List.mem_append_right _ hc)
    rw [hdigits c hc] at hdigit
    cases hdigit
  rw [List.mem_cons, not_or] at hother
  refine ⟨(Lexeme.word_of_isIdentifier hident).1.append (Lexeme.wordTail_of_parts fun c hc =>
    Lexeme.isWordPart_of_isDigit (hdigits c hc)), ?_, hother.1⟩
  rw [Lexeme.isReserved, Bool.eq_false_iff]
  exact fun h => hother.2 (List.contains_iff_mem.mp h)

/-! ## Characters of calls -/

section Characters

/- What a call consists of: words, and the marks between them. -/
variable {Q : Text → Prop} (hnil : Q []) (happend : ∀ {s t}, Q s → Q t → Q (s ++ t))
  (hword : ∀ {x}, Word x → Q x) (hmark : ∀ c ∈ ['.', ',', '(', ')'], Q [c])
include happend hword hmark

theorem Dotted.of_parts (h : Dotted path) : Q path := by
  induction h with
  | name word => exact hword word
  | @member head x _ word ih =>
    rw [← List.singleton_append]
    exact happend ih (happend (hmark '.' (by decide)) (hword word))

include hnil

/-- What holds of words and marks and goes over to longer texts holds of generated calls. -/
theorem callText_of_parts (hname : Word name) (hpaths : ∀ path ∈ paths, Dotted path) :
    Q (callText name paths) := by
  have hjoin : Q (Text.join [','] paths) := by
    induction paths with
    | nil => exact hnil
    | cons path paths ih =>
      rw [List.forall_mem_cons] at hpaths
      have hpath : Q path := hpaths.1.of_parts happend hword hmark
      cases paths with
      | nil => exact hpath
      | cons next paths => exact happend (happend hpath (hmark ',' (by decide))) (ih hpaths.2)
  exact happend (happend (happend (hword hname) (hmark '(' (by decide))) hjoin) (hmark ')' (by decide))

end Characters

/-- Words hold no other marks than those of character codes, and the other characters of a call are
its own marks. -/
theorem notMem_callText {c : Char} (hpart : Lexeme.isWordPart c = false)
    (hhex : Lexeme.isHexDigit c = false) (hother : c ∉ ['u', '\x7b', '\x7d', '\\'])
    (hmarks : c ∉ ['.', ',', '(', ')']) (hname : Word name) (hpaths : ∀ path ∈ paths, Dotted path) :
    c ∉ callText name paths := by
  refine callText_of_parts (Q := (c ∉ ·)) List.not_mem_nil (fun hs ht => ?_)
    (fun hx => hx.wordTail.notMem hpart hhex hother) (fun _ hd hmem => ?_) hname hpaths
  · rw [List.mem_append, not_or]
    exact ⟨hs, ht⟩
  · rw [List.mem_singleton] at hmem
    exact hmarks (hmem ▸ hd)

/-- No two equal braces stand next to each other, and no brace comes first. -/
structure Steady (t : Text) : Prop where
  apart : t.IsChain Occurrence.Apart
  head : ∀ c ∈ t.head?, c ≠ '\x7b' ∧ c ≠ '\x7d'

namespace Steady

variable {s t : Text}

theorem nil : Steady [] :=
  ⟨.nil, fun _ h => by cases h⟩

/-- A character that is no brace in front of a text. -/
theorem cons {c : Char} (hc : c ≠ '\x7b' ∧ c ≠ '\x7d') (h : t.IsChain Occurrence.Apart) :
    Steady (c :: t) :=
  ⟨List.isChain_cons.mpr ⟨fun _ _ _ => hc, h⟩, fun _ he => Option.some.inj he ▸ hc⟩

/-- Characters that are no braces in front of a text. -/
theorem append_of_forall (hs : ∀ c ∈ s, c ≠ '\x7b' ∧ c ≠ '\x7d') (h : t.IsChain Occurrence.Apart) :
    (s ++ t).IsChain Occurrence.Apart := by
  induction s with
  | nil => exact h
  | cons c s ih =>
    rw [List.forall_mem_cons] at hs
    exact (cons hs.1 (ih hs.2)).apart

theorem append (hs : Steady s) (ht : Steady t) : Steady (s ++ t) := by
  constructor
  · refine List.isChain_append.mpr ⟨hs.apart, ht.apart, ?_⟩
    rintro c - e he rfl
    exact ht.head c he
  · cases s with
    | nil => exact ht.head
    | cons c s => exact hs.head

end Steady

/-- A hexadecimal digit is no brace. -/
theorem ne_brace_of_isHexDigit {c : Char} (h : Lexeme.isHexDigit c = true) :
    c ≠ '\x7b' ∧ c ≠ '\x7d' := by
  constructor <;> rintro rfl <;> exact absurd h (by decide)

/-- The braces in a word are those of character codes, around digits. -/
theorem steady_of_wordTail {x : Text} (h : WordTail x) : Steady x := by
  induction h with
  | nil => exact .nil
  | @part c w part _ ih =>
    refine .cons ?_ ih.apart
    constructor <;> rintro rfl <;> exact absurd part (by decide)
  | @code code w escaped _ ih =>
    refine .cons (by decide) ?_
    cases escaped with
    | @braced digits nonempty hex =>
      -- there is a digit between the braces of a code, and a part of a word or another code behind it
      rw [List.all_eq_true] at hex
      have hclose : ('\x7d' :: w).IsChain Occurrence.Apart :=
        List.isChain_cons.mpr ⟨fun e he heq => absurd heq.symm (ih.head e he).2, ih.apart⟩
      have hdigits := Steady.append_of_forall (fun c hc => ne_brace_of_isHexDigit (hex c hc)) hclose
      have hopen : ('\x7b' :: (digits ++ '\x7d' :: w)).IsChain Occurrence.Apart := by
        refine List.isChain_cons.mpr ⟨fun e he heq => ?_, hdigits⟩
        obtain ⟨c, rest, rfl⟩ := List.exists_cons_of_ne_nil nonempty
        obtain rfl := Option.some.inj he
        exact absurd heq.symm (ne_brace_of_isHexDigit (hex _ List.mem_cons_self)).1
      simpa using (Steady.cons (c := 'u') (by decide) hopen).apart
    | plain hex =>
      rw [List.all_eq_true] at hex
      refine Steady.append_of_forall (fun e he => ?_) ih.apart
      rcases List.mem_cons.mp he with rfl | he
      · decide
      · exact ne_brace_of_isHexDigit (hex e he)

/-- No two equal braces stand next to each other in a generated call. -/
theorem steady_callText (hname : Word name) (hpaths : ∀ path ∈ paths, Dotted path) :
    Steady (callText name paths) := by
  refine callText_of_parts .nil .append (fun hx => steady_of_wordTail hx.wordTail) ?_ hname hpaths
  intro c hc
  refine .cons ?_ .nil
  revert c
  decide

end DataBinding.Synthesis
