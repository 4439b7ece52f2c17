/-
# The body of a generated function

The body is the text of the binding with each passed reference replaced by the name of its parameter.
All else, the references that are not passed included, stays as written.

* `Replaced`             : a text, the references in it from left to right, and the body.
* `exists_slots`         : the tokens of an accepted text in slots.
* `exists_replaced`      : the references of an accepted text can be replaced.
* `replaced_renamedBody` : the body that is generated for an accepted text.
-/
import DataBinding.Expression.Diagnosis
import DataBinding.Proofs.Expression.Pieces
import DataBinding.Proofs.Synthesis.ParameterNames
import DataBinding.Proofs.Synthesis.Splicing
import DataBinding.Synthesis.Basic

namespace DataBinding.Synthesis

open Expression

/-! ## Replacing references -/

/-- A text that starts at a byte, the references in it from left to right, and the text in which names
stand for the references that are kept as parameters. -/
inductive Replaced (kept : Reference → Bool) (name : Text → Text) :
    Nat → Text → List Reference → Text → Prop
  | done {position : Nat} : Replaced kept name position [] [] []
  | copy {position : Nat} {c : Char} {t s : Text} {references : List Reference}
      (rest : Replaced kept name (position + c.utf8Size) t references s) :
      Replaced kept name position (c :: t) references (c :: s)
  | pass {position : Nat} {u t s : Text} {r : Reference} {references : List Reference}
      (written : u ≠ []) (span : r.span = ⟨position, position + Text.byteLength u⟩)
      (passed : kept r = true)
      (rest : Replaced kept name (position + Text.byteLength u) t references s) :
      Replaced kept name position (u ++ t) (r :: references) (name r.path ++ s)
  | leave {position : Nat} {u t s : Text} {r : Reference} {references : List Reference}
      (written : u ≠ []) (span : r.span = ⟨position, position + Text.byteLength u⟩)
      (free : kept r = false)
      (rest : Replaced kept name (position + Text.byteLength u) t references s) :
      Replaced kept name position (u ++ t) (r :: references) (u ++ s)

section Replaced

variable {kept : Reference → Bool} {name : Text → Text} {position : Nat} {t s : Text}
  {references : List Reference}

/-- A stretch that is copied in front. -/
theorem Replaced.copyAll {lead : Text}
    (h : Replaced kept name (position + Text.byteLength lead) t references s) :
    Replaced kept name position (lead ++ t) references (lead ++ s) := by
  induction lead generalizing position with
  | nil => exact h
  | cons c lead ih =>
    refine .copy (ih ?_)
    rw [Text.byteLength] at h
    rwa [Nat.add_assoc]

/-- Replacing references is renaming their spans. -/
theorem Replaced.spliced (h : Replaced kept name position t references s) :
    Renaming.Spliced position t
      ((references.filter kept).map fun r => ⟨r.span, name r.path⟩) s := by
  induction h with
  | done => exact .nil
  | copy _ ih => exact .keep ih
  | pass written span passed _ ih =>
    rw [List.filter_cons_of_pos passed, List.map_cons, span]
    exact .swap written ih
  | leave _ _ free _ ih =>
    rw [List.filter_cons_of_neg (by rw [free]; decide)]
    exact ih.keepAll

/-- Where the references of a text in slots are replaced, only these are. -/
theorem replaced_of_pieced {now : Expecting} {wide : Bool} {slots : List Slot}
    (h : Pieced kept name position now wide t slots s) :
    Replaced kept name position t (slots.filterMap Slot.reference?) s := by
  induction h with
  | @done _ _ _ _ g _ =>
    rw [← List.append_nil g]
    exact Replaced.done.copyAll
  | keep _ _ _ hstart hstop _ ih =>
    refine .copyAll (.copyAll ?_)
    rwa [← hstart, ← hstop]
  | @swap _ _ _ _ _ g u t s _ r slots _ stretch writes hstart hstop _ ih =>
    obtain ⟨hspan, -⟩ := stretch.span writes
    obtain ⟨c, v, rfl, -⟩ := stretch.starts writes
    refine .copyAll ?_
    rw [← hstart]
    rw [hstop] at ih
    cases hkept : kept r with
    | true =>
      rw [replacement, hkept, if_pos rfl]
      exact .pass (List.cons_ne_nil c v) hspan hkept ih
    | false =>
      rw [replacement, hkept, if_neg Bool.false_ne_true]
      exact .leave (List.cons_ne_nil c v) hspan hkept ih

end Replaced

/-! ## Accepted texts -/

/-- A text is accepted if it has tokens that stand for an operand of no more levels than are
allowed. -/
theorem parse_eq_ok_iff {t : Text} {e : Expr} :
    parse t = .ok e ↔ t.allBlank = false ∧ ∃ w o, tokens? t = some w ∧ Reads (.whole o) w ∧
      o.levels ≤ maxLevels ∧ o.expr = e := by
  constructor
  · intro h
    unfold parse at h
    split at h
    · cases h
    · rename_i hblank
      split at h
      · rename_i o hread
        split at h
        · rename_i hlevels
          obtain ⟨w, htokens, hparse⟩ := Option.bind_eq_some_iff.mp hread
          exact ⟨Bool.eq_false_iff.mpr hblank, w, o, htokens, parse?_eq_some_iff.mp hparse, hlevels,
            Except.ok.inj h⟩
        · cases h
      · cases h
  · rintro ⟨hblank, w, o, htokens, hreads, hlevels, rfl⟩
    have hread : read? t = some o := by
      rw [read?, htokens]
      exact parse?_eq_some_iff.mpr hreads
    rw [parse, hblank, if_neg Bool.false_ne_true, hread]
    exact if_pos hlevels

/-- A text is accepted if its tokens are read as an operand. -/
theorem parse_eq_ok {t : Text} {w : List Token} {o : Operand} (hblank : t.allBlank = false)
    (htokens : tokens? t = some w) (hread : parse? w = some o) (hlevels : o.levels ≤ maxLevels) :
    parse t = .ok o.expr :=
  parse_eq_ok_iff.mpr ⟨hblank, w, o, htokens, parse?_eq_some_iff.mp hread, hlevels, rfl⟩

/-- The tokens of an accepted text, in slots for the chosen references. -/
theorem exists_slots {t : Text} {e : Expr} (h : parse t = .ok e) (chosen : Reference → Bool)
    (hroot : Expr.DependsOnRoot chosen) (name : Text → Text) :
    ∃ o slots now, o.expr = e ∧ o.levels ≤ maxLevels ∧
      Lexed 0 .operand true t (slots.flatMap Slot.tokens) ∧ Leads .operand slots now ∧
      Reads (.whole o) (slots.flatMap Slot.tokens) ∧
      slots.filterMap Slot.reference? = e.references.filter chosen ∧
      ∀ w, Ordered w → Renamed name slots w →
        ∃ o', Twin chosen name .value o o' ∧ Reads (.whole o') w := by
  obtain ⟨-, w, o, htokens, hreads, hlevels, rfl⟩ := parse_eq_ok_iff.mp h
  have hcovered : Covered chosen name (.whole o) w := hreads.covered hroot
  obtain ⟨slots, hcovers⟩ := hcovered .value
  obtain ⟨now, -, hleads⟩ := hcovers.leads
  obtain rfl := hcovers.tokens
  exact ⟨o, slots, now, rfl, hlevels, tokensFrom_iff.mp htokens, hleads, hreads, hcovers.swapped,
    hcovers.renamed⟩

/-- A plain path is no reserved word. -/
theorem isReserved_of_plain {t : Text} {e : Expr} (h : parse t = .ok e) {r : Reference}
    (hr : r ∈ e.references) (hplain : '.' ∉ r.path) : Lexeme.isReserved r.path = false := by
  obtain ⟨o, slots, now, -, -, -, hleads, -, hreferences, -⟩ :=
    exists_slots h always (fun _ _ _ => rfl) id
  obtain ⟨written, -, hwrites⟩ := hleads.writes r (by
    rw [hreferences]
    exact List.mem_filter.mpr ⟨hr, rfl⟩)
  exact (hwrites.plain_or_dotted.resolve_right hplain).2

/-- Whether a reference is passed depends on its root. -/
theorem isKept_dependsOnRoot (scope : Scope) (repeats : List Text) :
    Expr.DependsOnRoot (isKept scope repeats) := by
  intro r r' hroot
  rw [isKept, isKept, hroot]

/-- An accepted text with its references replaced, those that are kept. -/
theorem exists_replaced {t : Text} {e : Expr} (h : parse t = .ok e) (kept : Reference → Bool)
    (name : Text → Text) : ∃ s, Replaced kept name 0 t e.references s := by
  obtain ⟨o, slots, now, -, -, hlexed, hleads, -, hreferences, -⟩ :=
    exists_slots h always (fun _ _ _ => rfl) id
  obtain ⟨s, hpieced⟩ := exists_pieced kept name hlexed hleads
  have hreplaced := replaced_of_pieced hpieced
  rw [hreferences, show e.references.filter always = e.references from
    List.filter_true _] at hreplaced
  exact ⟨s, hreplaced⟩

/-- **The body that is generated for an accepted text**: names stand for the passed references, and
nothing else changes. -/
theorem replaced_renamedBody {t : Text} {e : Expr} (h : parse t = .ok e) (scope : Scope)
    (repeats : List Text) :
    Replaced (isKept scope repeats)
      (ParameterNames.nameOf (parameters scope repeats e.references)) 0 t e.references
      (renamedBody scope repeats e.references t) := by
  obtain ⟨s, hreplaced⟩ := exists_replaced h (isKept scope repeats)
    (ParameterNames.nameOf (parameters scope repeats e.references))
  have hbody : renamedBody scope repeats e.references t = s := by
    rw [renamedBody, Renaming.applyAll_spliced hreplaced.spliced]
    rfl
  rwa [hbody]

end DataBinding.Synthesis
