/-
# Accepted texts inside longer ones

An accepted text has no comment, line or bracket that is left open.  In front of a closing parenthesis
it is therefore cut into the same tokens as alone, whatever follows the parenthesis.

* `shapeAt?_close` : a token is the same before a closing parenthesis.
* `Reads.leads`    : the tokens of an expression may follow each other.
* `Lexed.close`    : the tokens of a text before a closing parenthesis.
-/
import DataBinding.Proofs.Expression.Pieces
import DataBinding.Proofs.Lexeme.Closing

namespace DataBinding.Expression

open Lexeme (Comment isSpacing isWide)

variable {now final : Expecting} {wide wide' : Bool} {g w t r : Text} {shape : Shape}

/-! ## Tokens before a closing parenthesis -/

/-- The parenthesis is a mark of its own. -/
theorem closeParen_of_mem_markTable : ∀ entry ∈ markTable, ')' ∉ entry.1.tail := by
  decide

/-- A mark is the same before a closing parenthesis. -/
theorem markAt?_close (ht : t ≠ []) : markAt? (t ++ ')' :: r) = markAt? t := by
  obtain ⟨c, t, rfl⟩ := List.exists_cons_of_ne_nil ht
  have hfind : (markTable.find? fun entry => Text.startsWith (c :: t ++ ')' :: r) entry.1) =
      markTable.find? fun entry => Text.startsWith (c :: t) entry.1 := by
    refine List.find?_congr fun entry hentry => ?_
    have htail := closeParen_of_mem_markTable entry hentry
    cases hspelling : entry.1 with
    | nil => rfl
    | cons l lead =>
      rw [hspelling, List.tail_cons] at htail
      rw [List.cons_append, startsWith_cons, startsWith_cons, Lexeme.startsWith_close htail]
  by_cases hquestion : c = '?' ∧ ∃ u, t = '.' :: u
  · obtain ⟨rfl, u, rfl⟩ := hquestion
    cases u with
    | nil => rfl
    | cons d u => rfl
  · rw [List.cons_append, markAt?_eq_find?, markAt?_eq_find?, ← List.cons_append, hfind]
    · rintro ⟨d, u, hc, rfl⟩
      exact hquestion ⟨hc, _, rfl⟩
    · rintro ⟨d, u, hc, hsplit⟩
      cases t with
      | nil => cases hsplit
      | cons x t =>
        obtain ⟨rfl, -⟩ := List.cons.inj hsplit
        exact hquestion ⟨hc, _, rfl⟩

/-- A line is set aside before a closing parenthesis as it is without, if the text goes on behind it. -/
theorem setAside?_close {n : Nat} (h : setAside? now wide t = some n) (hn : n < t.length) :
    setAside? now wide (t ++ ')' :: r) = some n := by
  obtain ⟨happlies, hread⟩ := Option.ite_none_right_eq_some.mp h
  rw [setAside?, if_pos happlies]
  exact Lexeme.markupRemark?_local hread hn _

/-- A closing parenthesis lets no line be set aside. -/
theorem setAside?_close_none (h : setAside? now wide t = none) :
    setAside? now wide (t ++ ')' :: r) = none := by
  unfold setAside? at h ⊢
  split at h
  · rename_i happlies
    rw [if_pos happlies]
    exact Lexeme.markupRemark?_close_none h
  · rename_i happlies
    rw [if_neg happlies]

/-- **A token is the same before a closing parenthesis.** -/
theorem shapeAt?_close {n : Nat} (h : shapeAt? now wide t = some (shape, n)) :
    shapeAt? now wide (t ++ ')' :: r) = some (shape, n) := by
  obtain ⟨hpos, hle⟩ := shapeAt?_le h
  have hne : t ≠ [] := List.length_pos_iff.mp (hpos.trans_le hle)
  have htake : (t ++ ')' :: r).take n = t.take n := List.take_append_of_le_length hle
  have hnumber : Lexeme.number? (t ++ ')' :: r) = Lexeme.number? t := Lexeme.number?_close t
  obtain ⟨c, u, rfl⟩ := List.exists_cons_of_ne_nil hne
  -- each reader reads the same before the parenthesis, so that the same one is the first to read
  rw [shapeAt?_eq_some_iff] at h ⊢
  cases h with
  | remark line further =>
    refine .remark (setAside?_close line further) ?_
    rw [List.length_append]
    omega
  | number line number =>
    rw [← htake]
    exact .number (setAside?_close_none line) (hnumber.trans number)
  | quotation line number quotation =>
    rw [← htake]
    refine .quotation (setAside?_close_none line) (hnumber.trans number) ?_
    obtain ⟨w, v, hsplit, rfl⟩ : ∃ w v, c :: u = w ++ v ∧ n = w.length :=
      ⟨_, _, (List.take_append_drop n (c :: u)).symm, (List.length_take_of_le hle).symm⟩
    rw [hsplit] at quotation ⊢
    rw [List.append_assoc]
    exact Lexeme.quotation?_local quotation _
  | word line number quotation word =>
    rw [← htake]
    exact .word (setAside?_close_none line) (hnumber.trans number) (quotation?_of_word? word _)
      (Lexeme.word?_close.trans word)
  | mark line number quotation word mark conditional =>
    obtain ⟨hquotation, hword⟩ := readers_of_markAt? mark (u ++ ')' :: r)
    exact .mark (setAside?_close_none line) (hnumber.trans number) hquotation hword
      ((markAt?_close hne).trans mark) conditional

/-! ## Texts before a closing parenthesis -/

/-- A token stays one before a closing parenthesis, unless it opens a block comment. -/
theorem Heads.close (h : Heads now wide w t shape) (hblock : ∀ u, w ++ t ≠ '/' :: '*' :: u) :
    Heads now wide w (t ++ ')' :: r) shape where
  tight := h.tight
  plain := by
    rw [← List.append_assoc]
    exact Lexeme.comment?_close_none h.plain hblock
  read := by
    rw [← List.append_assoc]
    exact shapeAt?_close h.read

/-- A gap stays one before a closing parenthesis, since no comment in it is left open. -/
theorem Gap.close (h : Gap wide g t wide') : Gap wide g (t ++ ')' :: r) wide' := by
  induction h with
  | nil => exact .nil
  | blank blank _ ih => exact .blank blank ih
  | @comment _ _ w g t comment closed _ ih =>
    have hend : g ++ t = [] → w.startsWith ['/', '/'] = false := by
      intro hnil
      rw [hnil, List.append_nil, isOpenComment, beq_self_eq_true, Bool.and_true] at closed
      exact closed
    refine .comment ?_ ?_ ih
    · rw [← List.append_assoc]
      exact comment.close hend
    · have hlonger : (w.length == (w ++ (g ++ (t ++ ')' :: r))).length) = false := by
        rw [beq_eq_false_iff_ne]
        simp only [List.length_append, List.length_cons]
        omega
      rw [isOpenComment, hlonger, Bool.and_false]

/-- A gap in front changes no token. -/
theorem Gap.lexed {position : Nat} {tokens : List Token} (h : Gap wide g t wide')
    (hlexed : Lexed (position + Text.byteLength g) now wide' t tokens) :
    Lexed position now wide (g ++ t) tokens := by
  rw [← tokensFrom_iff, tokensFrom_gap h]
  exact tokensFrom_iff.mpr hlexed

/-- Slots in which nothing is replaced hold tokens that stay. -/
theorem eq_keepAll {slots : List Slot} (h : slots.filterMap Slot.reference? = []) :
    slots = Slot.keepAll (slots.flatMap Slot.tokens) := by
  induction slots with
  | nil => rfl
  | cons slot slots ih =>
    cases slot with
    | keep token =>
      rw [List.flatMap_cons, Slot.tokens_keep, Slot.keepAll_append]
      exact congrArg (Slot.keep token :: ·) (ih h)
    | swap written r => cases h

/-- The tokens of an expression may follow each other, up to where an operator may come. -/
theorem Reads.leads {o : Operand} {w : List Token} (h : Reads (.whole o) w) :
    Leads .operand (Slot.keepAll w) .operator := by
  have hcovered : Covered (fun _ => false) id (.whole o) w := h.covered fun _ _ _ => rfl
  obtain ⟨slots, hcovers⟩ := hcovered .value
  obtain ⟨-, rfl, hleads⟩ := hcovers.leads
  have hswapped := hcovers.swapped
  rw [List.filter_false] at hswapped
  rwa [eq_keepAll hswapped, hcovers.tokens] at hleads

/-- **The tokens of a text before a closing parenthesis** are its own, and those from the parenthesis
on. -/
theorem Lexed.close {position : Nat} {tokens rest : List Token}
    (h : Lexed position now wide t tokens) (hleads : Leads now (Slot.keepAll tokens) final)
    (hrest : ∀ wide, Lexed (position + Text.byteLength t) final wide (')' :: r) rest) :
    Lexed position now wide (t ++ ')' :: r) (tokens ++ rest) := by
  induction h with
  | done gap =>
    cases hleads
    have hgap := gap.close (r := r)
    exact hgap.lexed (hrest _)
  | @token position start stop now wide wide' g w t shape tokens gap head hstart hstop hlexed ih =>
    cases hleads with
    | cons fits hleads =>
      have hlexed' : Lexed stop (now.next shape) true t
          ((Slot.keepAll tokens).flatMap Slot.tokens) := by
        rwa [Slot.tokens_keepAll]
      obtain ⟨s, hpieced⟩ := exists_pieced (fun _ => false) id hlexed' hleads
      rw [List.append_assoc, List.append_assoc, List.cons_append]
      refine .token ?_ (head.close (hpieced.no_block head)) hstart hstop (ih hleads fun wide => ?_)
      · rw [← List.append_assoc]
        exact gap.close
      · have hplace : position + Text.byteLength (g ++ (w ++ t)) = stop + Text.byteLength t := by
          rw [hstop, hstart, Text.byteLength_append, Text.byteLength_append]
          omega
        rw [← hplace]
        exact hrest wide

end DataBinding.Expression
