/-
# Small letters

Writing a text in small letters changes letters alone: no mark comes out of it that was not there.
-/
import Mathlib
import DataBinding.Text.LowerCase

namespace DataBinding.Text

/-- The small forms of the table are letters. -/
theorem le_small_of_mem_caseRuns : ∀ run ∈ caseRuns, 0x41 ≤ run.small := by
  decide +kernel

/-- A code point that the table changes becomes that of a letter. -/
theorem smallForm_eq_or_le {runs : List CaseRun} (h : ∀ run ∈ runs, 0x41 ≤ run.small) (n : Nat) :
    smallForm runs n = n ∨ 0x41 ≤ smallForm runs n := by
  induction runs with
  | nil => exact .inl rfl
  | cons run runs ih =>
    have hrun := h run (List.mem_cons_self ..)
    rw [smallForm]
    split
    · exact .inl rfl
    · split
      · right
        omega
      · exact ih fun r hr => h r (List.mem_cons_of_mem _ hr)

/-- A plain letter is made small, and every other character of plain text stays. -/
theorem toLower_eq_or_le (d : Char) : d.toLower = d ∨ 0x61 ≤ d.toLower.toNat := by
  unfold Char.toLower
  split
  · rename_i h
    right
    have hd : 65 ≤ d.val.toNat ∧ d.val.toNat ≤ 90 := h
    show 0x61 ≤ (d.val + ('a'.val - 'A'.val)).toNat
    have hsum : (d.val + ('a'.val - 'A'.val)).toNat = d.val.toNat + 32 := by
      rw [UInt32.toNat_add]
      show (d.val.toNat + 32) % 2 ^ 32 = d.val.toNat + 32
      omega
    omega
  · exact .inl rfl

/-- The character of a code point that is none is the first of all. -/
theorem toNat_ofNat (n : Nat) : (Char.ofNat n).toNat = n ∨ (Char.ofNat n).toNat = 0 := by
  unfold Char.ofNat
  split
  · exact .inl rfl
  · exact .inr rfl

/-- **Writing in small letters makes no marks.** -/
theorem mem_of_mem_lowerAfter {c : Char} (hpos : 0 < c.toNat) (hc : c.toNat < 0x41)
    {before t : Text} (h : c ∈ lowerAfter before t) : c ∈ t := by
  induction t generalizing before with
  | nil => cases h
  | cons d t ih =>
    rw [lowerAfter, List.mem_append] at h
    rcases h with h | h
    · have hne : ∀ x : Char, 0x41 ≤ x.toNat → c ≠ x := by
        rintro x hx rfl
        omega
      split_ifs at h
      · obtain rfl := List.mem_singleton.mp h
        rcases toLower_eq_or_le d with hd | hd
        · rw [hd]
          exact List.mem_cons_self ..
        · omega
      · simp only [List.mem_cons, List.not_mem_nil, or_false] at h
        rcases h with h | h <;> exact absurd h (hne _ (by decide))
      · exact absurd (List.mem_singleton.mp h) (hne _ (by decide))
      · exact absurd (List.mem_singleton.mp h) (hne _ (by decide))
      · obtain rfl := List.mem_singleton.mp h
        rcases toNat_ofNat (smallForm caseRuns d.toNat) with heq | heq
        · rcases smallForm_eq_or_le le_small_of_mem_caseRuns d.toNat with hd | hd
          · rw [hd, Char.ofNat_toNat]
            exact List.mem_cons_self ..
          · omega
        · omega
    · exact List.mem_cons_of_mem _ (ih h)

/-- A mark of a text in small letters is one of the text. -/
theorem mem_of_mem_lowerCase {c : Char} (hpos : 0 < c.toNat) (hc : c.toNat < 0x41) {t : Text}
    (h : c ∈ lowerCase t) : c ∈ t :=
  mem_of_mem_lowerAfter hpos hc h

/-- Plain text is written in small letters one by one. -/
theorem lowerAfter_of_plain {t : Text} (h : ∀ c ∈ t, c.toNat < 0x80) (before : Text) :
    lowerAfter before t = t.map Char.toLower := by
  induction t generalizing before with
  | nil => rfl
  | cons c t ih =>
    rw [List.forall_mem_cons] at h
    rw [lowerAfter, ih h.2, List.map_cons]
    simp [h.1]

/-- Plain text is written in small letters one by one. -/
theorem lowerCase_of_plain {t : Text} (h : ∀ c ∈ t, c.toNat < 0x80) :
    lowerCase t = t.map Char.toLower :=
  lowerAfter_of_plain h []

end DataBinding.Text
