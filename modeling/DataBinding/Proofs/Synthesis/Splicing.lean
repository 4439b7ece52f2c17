/-
# Renaming spans is splicing texts

Renamings are applied to bytes, from the last span to the first.  When the spans follow each other in
a text and cut no character apart, the outcome is the text with each span replaced, read from left to
right.

* `Spliced`           : a text, the renamings in it from left to right, and the text they lead to.
* `lastFirst_eq`      : renamings that follow each other are applied in reverse.
* `applyAll_spliced`  : applying the renamings succeeds and gives the spliced text.
-/
import DataBinding.Proofs.Text.Utf8
import DataBinding.Synthesis.Rename

namespace DataBinding.Renaming

/-- A text that starts at a byte, the renamings of spans of it in their order, and the text with the
spans replaced. -/
inductive Spliced : Nat → Text → List Renaming → Text → Prop
  | nil {position : Nat} : Spliced position [] [] []
  | keep {position : Nat} {c : Char} {t s : Text} {renamings : List Renaming}
      (rest : Spliced (position + c.utf8Size) t renamings s) :
      Spliced position (c :: t) renamings (c :: s)
  | swap {position : Nat} {written name t s : Text} {renamings : List Renaming}
      (nonempty : written ≠ [])
      (rest : Spliced (position + Text.byteLength written) t renamings s) :
      Spliced position (written ++ t)
        (⟨⟨position, position + Text.byteLength written⟩, name⟩ :: renamings) (name ++ s)

namespace Spliced

variable {position : Nat} {t s : Text} {renamings : List Renaming}

/-- A stretch without renamings in front. -/
theorem keepAll {lead : Text} (h : Spliced (position + Text.byteLength lead) t renamings s) :
    Spliced position (lead ++ t) renamings (lead ++ s) := by
  induction lead generalizing position with
  | nil => exact h
  | cons c lead ih =>
    refine keep (ih ?_)
    rw [Text.byteLength] at h
    rwa [Nat.add_assoc]

/-- No renaming starts before the text. -/
theorem start_le (h : Spliced position t renamings s) :
    ∀ r ∈ renamings, position ≤ r.span.start := by
  induction h with
  | nil => simp
  | keep _ ih =>
    intro r hr
    have := ih r hr
    omega
  | swap _ _ ih =>
    intro r hr
    rcases List.mem_cons.mp hr with rfl | hr
    · exact Nat.le_refl _
    · have := ih r hr
      omega

/-- Each renaming starts before those behind it. -/
theorem pairwise (h : Spliced position t renamings s) :
    renamings.Pairwise fun r r' => r.span.start < r'.span.start := by
  induction h with
  | nil => exact List.Pairwise.nil
  | keep _ ih => exact ih
  | swap nonempty rest ih =>
    refine List.Pairwise.cons (fun r hr => ?_) ih
    exact Nat.lt_of_lt_of_le (Nat.lt_add_of_pos_right (Text.byteLength_pos nonempty))
      (rest.start_le r hr)

end Spliced

/-! ## The order of application -/

/-- A renaming goes behind those that start later. -/
theorem insert_eq_append {r : Renaming} {renamings : List Renaming}
    (h : ∀ s ∈ renamings, r.span.start < s.span.start) :
    insert r renamings = renamings ++ [r] := by
  induction renamings with
  | nil => rfl
  | cons s rest ih =>
    have hs : ¬ s.span.start ≤ r.span.start := Nat.not_le.mpr (h s (List.mem_cons_self ..))
    rw [insert, if_neg hs, ih fun s' hs' => h s' (List.mem_cons_of_mem _ hs'), List.cons_append]

/-- Renamings that follow each other are applied in reverse. -/
theorem lastFirst_eq {renamings : List Renaming}
    (h : renamings.Pairwise fun r r' => r.span.start < r'.span.start) :
    lastFirst renamings = renamings.reverse := by
  induction h with
  | nil => rfl
  | @cons r rest hr _ ih =>
    show insert r (lastFirst rest) = (r :: rest).reverse
    rw [ih, List.reverse_cons]
    exact insert_eq_append fun s hs => hr s (List.mem_reverse.mp hs)

/-! ## Application -/

/-- Replacing the span of a part of a text. -/
theorem apply_encode (before written after name : Text) :
    apply (Text.encode (before ++ (written ++ after)))
        ⟨⟨Text.byteLength before, Text.byteLength before + Text.byteLength written⟩, name⟩ =
      Text.encode (before ++ (name ++ after)) := by
  rw [apply, ← Text.byteLength_append]
  simp only [← Text.length_encode, Text.encode_append, List.take_left]
  rw [← List.append_assoc (Text.encode before) (Text.encode written), List.drop_left,
    List.append_assoc]

/-- Splices applied behind a text that stays. -/
theorem foldr_apply_spliced {position : Nat} {t s : Text} {renamings : List Renaming}
    (h : Spliced position t renamings s) (before : Text) (hbefore : Text.byteLength before = position) :
    renamings.foldr (fun r bytes => apply bytes r) (Text.encode (before ++ t)) =
      Text.encode (before ++ s) := by
  induction h generalizing before with
  | nil => rfl
  | @keep position c t s renamings _ ih =>
    have hnext : Text.byteLength (before ++ [c]) = position + c.utf8Size := by
      rw [Text.byteLength_append, hbefore]
      rfl
    simpa using ih (before ++ [c]) hnext
  | @swap position written name t s renamings _ _ ih =>
    have hnext : Text.byteLength (before ++ written) = position + Text.byteLength written := by
      rw [Text.byteLength_append, hbefore]
    have hrest := ih (before ++ written) hnext
    rw [List.append_assoc, List.append_assoc] at hrest
    rw [List.foldr_cons, hrest, ← hbefore]
    exact apply_encode before written s name

/-- **Applying renamings that follow each other gives the spliced text.** -/
theorem applyAll_spliced {t s : Text} {renamings : List Renaming} (h : Spliced 0 t renamings s) :
    applyAll t renamings = .ok s := by
  have hbytes := foldr_apply_spliced h [] rfl
  rw [List.nil_append, List.nil_append] at hbytes
  rw [applyAll, lastFirst_eq h.pairwise, List.foldl_reverse, hbytes, Text.decode_encode]

end DataBinding.Renaming
