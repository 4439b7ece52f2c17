/-
# Bindings that can be decoded

The bindings of markup text stand where those of a value stand, and their expressions are decoded.  So
they are found exactly if none of these expressions holds a reference with too many digits.

* `scanFrom_raw`            : the scan of markup text, and the scan of the same text as a value;
* `exists_find_iff`         : the texts whose bindings are found;
* `exists_overlong?_longBinding` : a binding that cannot be decoded.
-/
import DataBinding.Proofs.Binding.Swapping
import DataBinding.Proofs.Markup.Decoding

namespace DataBinding.Occurrence

variable {d : Direction} {raw : Bool} {t u : Text}

/-! ## Two scans -/

/-- A binding of a value as one of markup text. -/
def decoded (o : Occurrence) : Occurrence :=
  { o with expression := Markup.unescape o.expression }

/-- Scanning markup text finds the bindings of a value, and decodes them. -/
theorem scanFrom_raw (d : Direction) (skip place : Nat) (t : Text) :
    scanFrom d true skip place t = (scanFrom d false skip place t).map decoded := by
  induction t generalizing skip place with
  | nil => cases skip <;> rfl
  | cons c t ih =>
    cases skip with
    | succ skip => exact ih skip (place + 1)
    | zero =>
      rw [scanFrom, scanFrom]
      split
      · rw [List.map_cons, ih]
        rfl
      · exact ih 0 (place + 1)

/-- A found binding is found by the scan of its direction. -/
theorem mem_found_iff {o : Occurrence} : o ∈ found raw t ↔ ∃ d, o ∈ scanFrom d raw 0 0 t := by
  rw [found, mem_merge]
  constructor
  · exact Or.rec (⟨_, ·⟩) (⟨_, ·⟩)
  · rintro ⟨d, h⟩
    cases d
    · exact .inl h
    · exact .inr h

/-- A binding of markup text is a decoded binding of the text as a value. -/
theorem mem_found_raw_iff {o : Occurrence} :
    o ∈ found true t ↔ ∃ o' ∈ found false t, o'.decoded = o := by
  simp only [mem_found_iff, scanFrom_raw, List.mem_map]
  constructor
  · rintro ⟨d, o', ho', rfl⟩
    exact ⟨o', ⟨d, ho'⟩, rfl⟩
  · rintro ⟨o', ⟨d, ho'⟩, rfl⟩
    exact ⟨d, o', ho', rfl⟩

/-! ## What is found -/

/-- The bindings of a value are found. -/
theorem find_value (t : Text) : find false t = .ok (found false t) :=
  rfl

/-- Nothing is overlong in markup text if the expressions of its bindings are not. -/
theorem overlong?_eq_none_iff :
    overlong? true t = none ↔ ∀ o ∈ found false t, ¬ Markup.Overlong o.expression := by
  rw [overlong?, if_pos rfl, List.findSome?_eq_none_iff]
  simp only [List.mem_append, Markup.overlong?_eq_none_iff, found, mem_merge]

/-- **The bindings of markup text are found** exactly if the expression of none of them is overlong. -/
theorem exists_find_iff :
    (∃ os, find true t = .ok os) ↔ ∀ o ∈ found false t, ¬ Markup.Overlong o.expression := by
  simp only [find_eq_ok_iff, overlong?_eq_none_iff, exists_and_left, exists_eq', and_true]

/-! ## One binding alone -/

/-- A text in brackets is read up to their end if nothing in it closes them. -/
theorem innerLength?_alone (hne : t ≠ []) (hopen : ∀ c ∈ t, c ≠ d.closer ∧ c ≠ '\n') :
    innerLength? d (d.opening ++ (t ++ d.closing)) = some t.length := by
  have hclosing : untilClosing? d d.closing = some 0 := by cases d <;> rfl
  cases t with
  | nil => exact absurd rfl hne
  | cons c t =>
    rw [List.forall_mem_cons] at hopen
    show innerLength? d (d.opener :: d.opener :: c :: (t ++ d.closing)) = _
    rw [innerLength?, if_pos (by simpa using hopen.1.2), untilClosing?_append hopen.2, hclosing]
    simp

/-- A text in brackets is a binding if nothing in it closes them. -/
theorem mem_found_alone (hne : t ≠ []) (hopen : ∀ c ∈ t, c ≠ d.closer ∧ c ≠ '\n') (raw : Bool) :
    ofInner d raw 0 t ∈ found raw (d.opening ++ (t ++ d.closing)) := by
  refine mem_found_iff.mpr ⟨d, ?_⟩
  have hread := innerLength?_alone hne hopen
  have hsplit : d.opening ++ (t ++ d.closing) = d.opener :: (d.opener :: (t ++ d.closing)) := rfl
  rw [hsplit] at hread ⊢
  rw [scanFrom, hread]
  dsimp only
  rw [List.drop_succ_cons, List.drop_zero, List.take_left]
  exact List.mem_cons_self

/-- A binding of a reference that has a digit too much. -/
def longBinding (d : Direction) : Text :=
  d.opening ++ (Markup.longReference ++ d.closing)

theorem longReference_ne_nil : Markup.longReference ≠ [] :=
  List.append_ne_nil_of_left_ne_nil (by decide) _

/-- No character of it is a colon, closes a binding, or ends a line. -/
theorem plain_of_mem_longReference {c : Char} (h : c ∈ Markup.longReference) (d : Direction) :
    c ≠ ':' ∧ c ≠ d.closer ∧ c ≠ '\n' := by
  have hplain : ∀ c ∈ ['&', '#', '0', '6', '5', ';'], c ≠ ':' ∧ c ≠ d.closer ∧ c ≠ '\n' := by
    cases d <;> simp [Direction.closer]
  refine hplain c ?_
  rcases List.mem_append.mp h with h | h
  · exact List.mem_append_left _ h
  · rcases List.mem_append.mp h with h | h
    · rw [List.eq_of_mem_replicate h]
      decide
    · exact List.mem_append_right ['&', '#', '0'] h

/-- In markup text it cannot be decoded. -/
theorem exists_overlong?_longBinding (d : Direction) :
    ∃ digits, overlong? true (longBinding d) = some digits := by
  refine Option.ne_none_iff_exists'.mp fun hnone => ?_
  refine overlong?_eq_none_iff.mp hnone _ (mem_found_alone longReference_ne_nil
    (fun c hc => (plain_of_mem_longReference hc d).2) false) ?_
  have hexpression : (splitEvent d Markup.longReference).1 = Markup.longReference := by
    cases d with
    | oneWay => rfl
    | twoWay =>
      rw [splitEvent]
      split
      · rename_i expression event hsplit
        obtain ⟨heq, -⟩ := Text.splitLast_eq_some (by decide) hsplit
        have hcolon : ':' ∈ Markup.longReference := heq ▸ by simp
        exact absurd rfl (plain_of_mem_longReference hcolon .twoWay).1
      · rfl
  show Markup.Overlong (splitEvent d Markup.longReference).1
  rw [hexpression]
  exact Markup.overlong_longReference

end DataBinding.Occurrence
