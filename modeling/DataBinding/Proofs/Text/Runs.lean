/-
# Runs of characters

A reader often goes over a run of characters of one kind, up to the first one of another kind.  The run
is known from what stands in it and what stands behind it, so that a proof about such a reader splits the
text once and computes no search.

* `exists_run`, `exists_run_until`                   : every text is a run with what stands behind it;
* `takeWhile_append_stop`, `takeWhile_append_until`  : such a run is what the search takes.
-/
import Mathlib.Data.List.TakeWhile
import DataBinding.Text.Basic

namespace DataBinding.Text

variable {p : Char → Bool} {t u r : Text}

/-- What follows a run of characters of one kind. -/
theorem drop_length_takeWhile (p : Char → Bool) (t : Text) :
    t.drop (t.takeWhile p).length = t.dropWhile p := by
  have h := List.takeWhile_append_dropWhile (p := p) (l := t)
  calc t.drop (t.takeWhile p).length
      = (t.takeWhile p ++ t.dropWhile p).drop (t.takeWhile p).length := by rw [h]
    _ = t.dropWhile p := List.drop_left ..

/-- Every text is a run of characters of one kind with what does not continue it. -/
theorem exists_run (p : Char → Bool) (t : Text) :
    ∃ u r, t = u ++ r ∧ (∀ c ∈ u, p c = true) ∧ ∀ c, r.head? = some c → p c = false := by
  refine ⟨t.takeWhile p, t.dropWhile p, List.takeWhile_append_dropWhile.symm,
    fun c hc => List.mem_takeWhile_imp hc, fun c hc => ?_⟩
  have hnot := List.head?_dropWhile_not p t
  rw [hc] at hnot
  simpa using hnot

/-- Every text is split in front of the first character of a kind. -/
theorem exists_run_until (p : Char → Bool) (t : Text) :
    ∃ u r, t = u ++ r ∧ (∀ c ∈ u, p c = false) ∧ ∀ c, r.head? = some c → p c = true := by
  simpa using exists_run (!p ·) t

/-- Characters of one kind in front of one of another kind are a run. -/
theorem takeWhile_append_stop (hu : ∀ c ∈ u, p c = true)
    (hr : ∀ c, r.head? = some c → p c = false) : (u ++ r).takeWhile p = u := by
  rw [List.takeWhile_append_of_pos hu]
  cases r with
  | nil => simp
  | cons c r => rw [List.takeWhile_cons_of_neg (by simp [hr c rfl]), List.append_nil]

/-- The characters in front of the first one of a kind. -/
theorem takeWhile_append_until (hu : ∀ c ∈ u, p c = false)
    (hr : ∀ c, r.head? = some c → p c = true) : (u ++ r).takeWhile (!p ·) = u :=
  takeWhile_append_stop (by simpa using hu) (by simpa using hr)

end DataBinding.Text
