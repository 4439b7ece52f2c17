/-
# Steps that may fail

A reading, a visit or a whole walk gives a value or a fault.  Where several steps follow each other, a
value at the end tells what each of them gave, and a fault is that of the first step that failed.
-/
import Mathlib.Logic.Basic

namespace DataBinding

variable {ε α β : Type}

/-- What gives a value as an option has come to the end. -/
theorem eq_ok_of_toOption {x : Except ε α} {a : α} (h : x.toOption = some a) : x = .ok a := by
  cases x with
  | error e => simp [Except.toOption] at h
  | ok b => exact congrArg Except.ok (Option.some.inj h)

/-- Two steps that come to the end are the first one, and then the second one. -/
theorem exists_of_bind_eq_ok {x : Except ε α} {f : α → Except ε β} {b : β}
    (h : (x >>= f) = .ok b) : ∃ a, x = .ok a ∧ f a = .ok b := by
  cases x with
  | error e => cases h
  | ok a => exact ⟨a, rfl, h⟩

/-- A fault of two steps is one of the first step or, behind it, one of the second step. -/
theorem cases_of_bind_eq_error {x : Except ε α} {f : α → Except ε β} {e : ε}
    (h : (x >>= f) = .error e) : x = .error e ∨ ∃ a, x = .ok a ∧ f a = .error e := by
  cases x with
  | error e' => exact .inl (congrArg Except.error (Except.error.inj h))
  | ok a => exact .inr ⟨a, rfl, h⟩

/-- Two runs end alike: with faults that are alike, or with values that are. -/
inductive EndAlike (Q : ε → ε → Prop) (R : α → α → Prop) : Except ε α → Except ε α → Prop
  | error {e e' : ε} (alike : Q e e') : EndAlike Q R (.error e) (.error e')
  | ok {a a' : α} (alike : R a a') : EndAlike Q R (.ok a) (.ok a')

/-- Steps that end alike where they start alike may follow runs that end alike. -/
theorem EndAlike.bind {Q : ε → ε → Prop} {R : α → α → Prop} {S : β → β → Prop} {x x' : Except ε α}
    {f f' : α → Except ε β} (h : EndAlike Q R x x') (hstep : ∀ a a', R a a' → EndAlike Q S (f a) (f' a')) :
    EndAlike Q S (x >>= f) (x' >>= f') := by
  cases h with
  | error halike => exact .error halike
  | ok halike => exact hstep _ _ halike

/-- What is made of runs that end alike ends alike. -/
theorem EndAlike.map {Q : ε → ε → Prop} {R : α → α → Prop} {S : β → β → Prop} {x x' : Except ε α}
    {f f' : α → β} (h : EndAlike Q R x x') (hstep : ∀ a a', R a a' → S (f a) (f' a')) :
    EndAlike Q S (x.map f) (x'.map f') := by
  cases h with
  | error halike => exact .error halike
  | ok halike => exact .ok (hstep _ _ halike)

/-- A value that is made of another one comes from it. -/
theorem exists_of_map_eq_ok {x : Except ε α} {f : α → β} {b : β} (h : x.map f = .ok b) :
    ∃ a, x = .ok a ∧ f a = b := by
  cases x with
  | error e => cases h
  | ok a => exact ⟨a, rfl, Except.ok.inj h⟩

end DataBinding
