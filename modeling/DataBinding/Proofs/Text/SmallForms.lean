/-
# Small letters stay small

Every character that writing in small letters puts in is a letter, no blank, and its own small form.
Hence a text in small letters is written in small letters as it stands, and its blanks and marks are
those of the text it comes from.

* `isSmall_of_mem_lowerAfter` : what is put in is a small letter;
* `lowerCase_lowerCase`       : small letters stay as they are.
-/
import Mathlib
import DataBinding.Proofs.Text.LowerCase
import DataBinding.Text.Blank

namespace DataBinding.Text

/-! ## The table of small forms -/

namespace CaseRun

/-- The last small form of a run. -/
def top (run : CaseRun) : Nat :=
  run.small + (run.last - run.first)

/-- No small form of a run lies in a range of code points. -/
def avoids (run : CaseRun) (range : Nat × Nat) : Bool :=
  run.top < range.1 || range.2 < run.small

theorem avoids_iff (run : CaseRun) (range : Nat × Nat) :
    run.avoids range = true ↔ run.small + (run.last - run.first) < range.1 ∨ range.2 < run.small := by
  rw [avoids, Bool.or_eq_true, decide_eq_true_eq, decide_eq_true_eq, top]

/-- No small form of a run is a capital of another: they lie in different places, or both go in steps
of two and never meet. -/
def keepsOff (run capitals : CaseRun) : Bool :=
  run.avoids (capitals.first, capitals.last) ||
    (capitals.step == 2 && (run.step == 2 || run.first == run.last) &&
      (run.small + capitals.first) % 2 == 1)

end CaseRun

/-- The code points that are no characters, those of blanks, and the two capitals outside the table. -/
def strangeRanges : List (Nat × Nat) :=
  [(0x80, 0xA0), (0x130, 0x130), (0x3A3, 0x3A3), (0x1680, 0x1680), (0x2000, 0x205F), (0x3000, 0x3000),
    (0xD800, 0xDFFF)]

/-- A run whose small forms are small letters. -/
def CaseRun.settles (run : CaseRun) : Bool :=
  0x61 ≤ run.small && run.top < 0x110000 && strangeRanges.all run.avoids && caseRuns.all run.keepsOff

/-- The small forms of the table are small letters. -/
theorem settles_of_mem_caseRuns : ∀ run ∈ caseRuns, run.settles = true := by
  decide +kernel

/-- A code point that the table changes becomes one of a run. -/
theorem smallForm_cases (runs : List CaseRun) (n : Nat) :
    smallForm runs n = n ∨ ∃ run ∈ runs, ∃ k ≤ run.last - run.first,
      k % run.step = 0 ∧ smallForm runs n = run.small + k := by
  induction runs with
  | nil => exact .inl rfl
  | cons run runs ih =>
    rw [smallForm]
    split
    · exact .inl rfl
    · split
      · rename_i h
        rw [Bool.and_eq_true, decide_eq_true_eq, beq_iff_eq] at h
        exact .inr ⟨run, List.mem_cons_self .., n - run.first, by omega, h.2, rfl⟩
      · rcases ih with h | ⟨r, hr, h⟩
        · exact .inl h
        · exact .inr ⟨r, List.mem_cons_of_mem _ hr, h⟩

/-- A code point outside all runs stays. -/
theorem smallForm_eq_self {runs : List CaseRun} {n : Nat}
    (h : ∀ run ∈ runs, run.first ≤ n → n ≤ run.last → (n - run.first) % run.step ≠ 0) :
    smallForm runs n = n := by
  induction runs with
  | nil => rfl
  | cons run runs ih =>
    rw [List.forall_mem_cons] at h
    rw [smallForm, ih h.2]
    split
    · rfl
    · split
      · rename_i hge hin
        rw [Bool.and_eq_true, decide_eq_true_eq, beq_iff_eq] at hin
        exact absurd hin.2 (h.1 (by omega) hin.1)
      · rfl

/-! ## Single characters -/

/-- The character is its own small form, wherever it stands. -/
def IsSmall (c : Char) : Prop :=
  if c.toNat < 0x80 then c.toLower = c
  else c ≠ '\u0130' ∧ c ≠ '\u03A3' ∧ smallForm caseRuns c.toNat = c.toNat

/-- A character that may come out of the table. -/
structure IsSmallLetter (c : Char) : Prop where
  le : 0x41 ≤ c.toNat
  notBlank : isBlank c = false
  small : IsSmall c

/-- A character outside the runs of plain capitals is its own small form. -/
theorem toLower_eq_self {c : Char} (h : 0x61 ≤ c.toNat) : c.toLower = c := by
  unfold Char.toLower
  split
  · rename_i hc
    have hle : c.toNat ≤ 90 := hc.2
    omega
  · rfl

/-- The code point of a character that is built from a code point. -/
theorem toNat_ofNat_of_valid {n : Nat} (h : n.isValidChar) : (Char.ofNat n).toNat = n := by
  unfold Char.ofNat
  rw [dif_pos h]
  rfl

/-- **What comes out of the table** is a small letter. -/
theorem isSmallLetter_of_run {run : CaseRun} (hrun : run ∈ caseRuns) {k : Nat}
    (hk : k ≤ run.last - run.first) (hstep : k % run.step = 0) :
    (run.small + k).isValidChar ∧ IsSmallLetter (Char.ofNat (run.small + k)) := by
  have hsettles := settles_of_mem_caseRuns run hrun
  simp only [CaseRun.settles, Bool.and_eq_true, decide_eq_true_eq] at hsettles
  obtain ⟨⟨⟨hlow, htop⟩, hstrange⟩, hoff⟩ := hsettles
  simp only [strangeRanges, List.all_cons, List.all_nil, CaseRun.avoids_iff, Bool.and_eq_true]
    at hstrange
  rw [List.all_eq_true] at hoff
  rw [CaseRun.top] at htop
  have hvalid : (run.small + k).isValidChar := by
    unfold Nat.isValidChar
    omega
  refine ⟨hvalid, ?_⟩
  have hnat := toNat_ofNat_of_valid hvalid
  generalize Char.ofNat (run.small + k) = c at hnat
  -- the table does not change the small form again
  have hsmall : smallForm caseRuns c.toNat = c.toNat := by
    refine smallForm_eq_self fun capitals hcapitals hfirst hlast hin => ?_
    have hkeeps := hoff capitals hcapitals
    simp only [CaseRun.keepsOff, CaseRun.avoids_iff, Bool.or_eq_true, Bool.and_eq_true,
      beq_iff_eq] at hkeeps
    rcases hkeeps with hkeeps | ⟨⟨htwo, hsteps⟩, hodd⟩
    · omega
    · rw [htwo] at hin
      rcases hsteps with hsteps | hsingle
      · rw [hsteps] at hstep
        omega
      · omega
  constructor
  · omega
  · simp only [isBlank, Bool.or_eq_false_iff, Bool.and_eq_false_iff, decide_eq_false_iff_not,
      beq_eq_false_iff_ne]
    omega
  · unfold IsSmall
    split
    · exact toLower_eq_self (by omega)
    · refine ⟨?_, ?_, hsmall⟩
      · rintro rfl
        have : (0x130 : Nat) = run.small + k := hnat
        omega
      · rintro rfl
        have : (0x3A3 : Nat) = run.small + k := hnat
        omega

/-- A plain capital moves to its small letter, and every other character of plain text stays. -/
theorem toLower_cases (d : Char) :
    d.toLower = d ∨ (65 ≤ d.toNat ∧ d.toNat ≤ 90 ∧ d.toLower.toNat = d.toNat + 32) := by
  by_cases hup : 65 ≤ d.toNat ∧ d.toNat ≤ 90
  · refine .inr ⟨hup.1, hup.2, ?_⟩
    unfold Char.toLower
    rw [dif_pos ⟨hup.1, hup.2⟩]
    show (d.val + ('a'.val - 'A'.val)).toNat = d.toNat + 32
    rw [UInt32.toNat_add]
    show (d.toNat + 32) % 2 ^ 32 = d.toNat + 32
    omega
  · left
    unfold Char.toLower
    rw [dif_neg (fun hc => hup ⟨hc.1, hc.2⟩)]

/-- A plain character in small letters is small, and no blank unless it was one. -/
theorem isSmall_toLower {d : Char} (h : d.toNat < 0x80) :
    IsSmall d.toLower ∧ (d.toLower = d ∨ IsSmallLetter d.toLower) := by
  rcases toLower_cases d with hd | ⟨hlow, hhigh, hnat⟩
  · rw [hd]
    refine ⟨?_, .inl rfl⟩
    rw [IsSmall, if_pos h]
    exact hd
  · have hsmall : IsSmall d.toLower := by
      rw [IsSmall, if_pos (by omega)]
      exact toLower_eq_self (by omega)
    refine ⟨hsmall, .inr ⟨by omega, ?_, hsmall⟩⟩
    simp only [isBlank, Bool.or_eq_false_iff, Bool.and_eq_false_iff, decide_eq_false_iff_not,
      beq_eq_false_iff_ne]
    omega

/-- A letter of plain text is one in small letters too. -/
theorem isAlpha_toLower {c : Char} (h : c.isAlpha = true) :
    c.toNat < 0x80 ∧ c.toLower.isAlpha = true := by
  have hbounds : ∀ d : Char, d.isAlpha = true ↔
      (65 ≤ d.toNat ∧ d.toNat ≤ 90) ∨ (97 ≤ d.toNat ∧ d.toNat ≤ 122) := by
    intro d
    simp only [Char.isAlpha, Char.isUpper, Char.isLower, Bool.or_eq_true, Bool.and_eq_true,
      decide_eq_true_eq, UInt32.le_iff_toNat_le, ge_iff_le]
    rfl
  have hc := (hbounds c).mp h
  refine ⟨by omega, ?_⟩
  rcases toLower_cases c with heq | ⟨hlow, hhigh, hnat⟩
  · rw [heq]
    exact h
  · rw [hbounds]
    omega

/-! ## Texts -/

/-- The letters of the two rules beyond the table are small. -/
theorem isSmallLetter_of_rule {c : Char} (h : c ∈ ['i', '\u0307', '\u03C2', '\u03C3']) :
    IsSmallLetter c := by
  obtain ⟨hle, hblank, hne, hne', hsmall⟩ : 0x61 ≤ c.toNat ∧ isBlank c = false ∧
      c ≠ '\u0130' ∧ c ≠ '\u03A3' ∧ smallForm caseRuns c.toNat = c.toNat := by
    simp only [List.mem_cons, List.not_mem_nil, or_false] at h
    rcases h with rfl | rfl | rfl | rfl <;> decide +kernel
  refine ⟨by omega, hblank, ?_⟩
  unfold IsSmall
  split
  · exact toLower_eq_self hle
  · exact ⟨hne, hne', hsmall⟩

/-- **Every character of a text in small letters is small**, and comes from the text or is a letter. -/
theorem isSmall_of_mem_lowerAfter {c : Char} {before t : Text} (h : c ∈ lowerAfter before t) :
    IsSmall c ∧ (c ∈ t ∨ IsSmallLetter c) := by
  induction t generalizing before with
  | nil => cases h
  | cons d t ih =>
    rw [lowerAfter, List.mem_append] at h
    rcases h with h | h
    · split_ifs at h with hplain hi hsigma hfinal
      · obtain rfl := List.mem_singleton.mp h
        obtain ⟨hsmall, hsame | hletter⟩ := isSmall_toLower hplain
        · exact ⟨hsmall, .inl (by rw [hsame]; exact List.mem_cons_self ..)⟩
        · exact ⟨hsmall, .inr hletter⟩
      · have hletter : IsSmallLetter c := by
          apply isSmallLetter_of_rule
          simp only [List.mem_cons, List.not_mem_nil, or_false] at h ⊢
          tauto
        exact ⟨hletter.small, .inr hletter⟩
      · have hletter : IsSmallLetter c := by
          apply isSmallLetter_of_rule
          simp [List.mem_singleton.mp h]
        exact ⟨hletter.small, .inr hletter⟩
      · have hletter : IsSmallLetter c := by
          apply isSmallLetter_of_rule
          simp [List.mem_singleton.mp h]
        exact ⟨hletter.small, .inr hletter⟩
      · -- every other character goes by the table
        obtain rfl := List.mem_singleton.mp h
        rcases smallForm_cases caseRuns d.toNat with hself | ⟨run, hrun, k, hk, hstep, heq⟩
        · rw [hself, Char.ofNat_toNat]
          refine ⟨?_, .inl (List.mem_cons_self ..)⟩
          rw [IsSmall, if_neg hplain]
          exact ⟨by simpa using hi, by simpa using hsigma, hself⟩
        · rw [heq]
          have hletter := (isSmallLetter_of_run hrun hk hstep).2
          exact ⟨hletter.small, .inr hletter⟩
    · obtain ⟨hsmall, hmem | hletter⟩ := ih h
      · exact ⟨hsmall, .inl (List.mem_cons_of_mem _ hmem)⟩
      · exact ⟨hsmall, .inr hletter⟩

/-- Small characters stay. -/
theorem lowerAfter_eq_self {t : Text} (h : ∀ c ∈ t, IsSmall c) (before : Text) :
    lowerAfter before t = t := by
  induction t generalizing before with
  | nil => rfl
  | cons c t ih =>
    rw [List.forall_mem_cons] at h
    have hc := h.1
    rw [lowerAfter, ih h.2]
    unfold IsSmall at hc
    by_cases hplain : c.toNat < 0x80
    · rw [if_pos hplain] at hc
      simp [hplain, hc]
    · rw [if_neg hplain] at hc
      obtain ⟨hi, hsigma, hself⟩ := hc
      simp [hplain, hi, hsigma, hself]

/-- **Small letters stay as they are.** -/
theorem lowerCase_lowerCase (t : Text) : (lowerCase t).lowerCase = lowerCase t :=
  lowerAfter_eq_self (fun _ hc => (isSmall_of_mem_lowerAfter hc).1) []

/-- The first character of a plain text in small letters. -/
theorem lowerCase_cons_of_plain {c : Char} (h : c.toNat < 0x80) (t : Text) :
    lowerCase (c :: t) = c.toLower :: lowerAfter [c] t := by
  simp [lowerCase, lowerAfter, h]

/-- Small letters are not lost. -/
theorem lowerCase_ne_nil {t : Text} (h : t ≠ []) : lowerCase t ≠ [] := by
  cases t with
  | nil => exact absurd rfl h
  | cons c t =>
    rw [lowerCase, lowerAfter]
    split_ifs <;> simp

end DataBinding.Text
