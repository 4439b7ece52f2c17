/-
# Room for JSON values

Reading a JSON value breaks off where a bracket opens one level more than there is room for, and the
room decides nothing else.  So a text either is a JSON value or is none, whatever the room, and with
less room this may only stay open.

* `refines_after`          : more room changes no answer;
* `isJson_of_brackets_le`  : with room for all brackets of a text there is an answer;
* `isJson_eq_ok`           : every answer is the one that would be given with enough room;
* `isJson_replicate`       : too many brackets inside each other get no answer.
-/
import Mathlib.Data.List.DropRight
import DataBinding.Proofs.Results
import DataBinding.Text.Json

namespace DataBinding.Text

namespace Json

variable {fuel room room' : Nat} {goal : Goal} {t rest : Text} {bracket : Bracket}

/-! ## More room -/

/-- The second outcome is the first one, unless there was no room for that. -/
def Refines (first second : Except Fault Text) : Prop :=
  (∃ bracket, first = .error (.noRoom bracket)) ∨ first = second

theorem Refines.bind {first second : Except Fault Text} {f g : Text → Except Fault Text}
    (h : Refines first second) (hnext : ∀ t, Refines (f t) (g t)) :
    Refines (first >>= f) (second >>= g) := by
  rcases h with ⟨bracket, rfl⟩ | rfl
  · exact .inl ⟨bracket, rfl⟩
  · cases first with
    | error fault => exact .inr rfl
    | ok t => exact hnext t

/-- **More room changes no answer.** -/
theorem refines_after (hroom : room ≤ room') :
    Refines (after fuel room goal t) (after fuel room' goal t) := by
  induction fuel generalizing room room' goal t with
  | zero => exact .inr rfl
  | succ fuel ih =>
    cases goal with
    | value =>
      simp only [after]
      split
      · exact .inr rfl
      · -- an array needs room for itself
        cases room with
        | zero => exact .inl ⟨.array, rfl⟩
        | succ room =>
          obtain ⟨room', rfl⟩ := Nat.exists_eq_add_one_of_ne_zero (by omega : room' ≠ 0)
          dsimp only
          split
          · exact .inr rfl
          · exact ih (by omega)
      · cases room with
        | zero => exact .inl ⟨.object, rfl⟩
        | succ room =>
          obtain ⟨room', rfl⟩ := Nat.exists_eq_add_one_of_ne_zero (by omega : room' ≠ 0)
          dsimp only
          split
          · exact .inr rfl
          · exact ih (by omega)
      · exact .inr rfl
    | elements =>
      simp only [after]
      refine (ih hroom).bind fun t => ?_
      split
      · exact ih hroom
      · exact .inr rfl
      · exact .inr rfl
    | members =>
      simp only [after]
      split
      · refine Refines.bind (.inr rfl) fun t => ?_
        split
        · refine (ih hroom).bind fun t => ?_
          split
          · exact ih hroom
          · exact .inr rfl
          · exact .inr rfl
        · exact .inr rfl
      · exact .inr rfl

/-! ## What is left of a text -/

theorem suffix_skipSpace (t : Text) : skipSpace t <:+ t :=
  List.dropWhile_suffix _

theorem suffix_dropLead? {lead : Text} (h : dropLead? lead t = some rest) : rest <:+ t := by
  induction lead generalizing t with
  | nil =>
    cases h
    exact List.suffix_refl _
  | cons l lead ih =>
    cases t with
    | nil => cases h
    | cons c t =>
      rw [dropLead?] at h
      split at h
      · exact (ih h).trans (List.suffix_cons ..)
      · cases h

theorem suffix_afterString (h : afterString t = some rest) : rest <:+ t := by
  fun_induction afterString t with
  | case1 => cases h
  | case2 t =>
    cases h
    exact List.suffix_cons ..
  | case3 a b c d t _ ih => exact (ih h).trans ⟨['\\', 'u', a, b, c, d], rfl⟩
  | case4 => cases h
  | case5 c t _ _ ih => exact (ih h).trans ⟨['\\', c], rfl⟩
  | case6 => cases h
  | case7 => cases h
  | case8 c t _ _ _ _ ih => exact (ih h).trans (List.suffix_cons ..)

theorem suffix_afterDigits (h : afterDigits t = some rest) : rest <:+ t := by
  cases t with
  | nil => cases h
  | cons c t =>
    rw [afterDigits] at h
    split at h
    · cases h
      exact (List.dropWhile_suffix _).trans (List.suffix_cons ..)
    · cases h

theorem suffix_afterExponent? (h : afterExponent? t = some rest) : rest <:+ t := by
  unfold afterExponent? at h
  split at h
  · split at h
    · split at h
      · exact ((suffix_afterDigits h).trans (List.suffix_cons ..)).trans (List.suffix_cons ..)
      · exact ((suffix_afterDigits h).trans (List.suffix_cons ..)).trans (List.suffix_cons ..)
      · exact (suffix_afterDigits h).trans (List.suffix_cons ..)
    · cases h
  · cases h

theorem suffix_afterWhole {digits : Nat} (h : afterWhole digits t = some rest) : rest <:+ t := by
  unfold afterWhole at h
  split at h
  · rename_i r hfraction
    have hbehind : r <:+ t := by
      unfold afterFraction? at hfraction
      split at hfraction
      · exact (suffix_afterDigits hfraction).trans (List.suffix_cons ..)
      · cases hfraction
    refine List.IsSuffix.trans ?_ hbehind
    rw [← Option.some.inj h]
    cases hexponent : afterExponent? r with
    | none => exact List.suffix_refl _
    | some u => exact suffix_afterExponent? hexponent
  · split at h
    · rename_i hexponent
      rw [← Option.some.inj h]
      exact suffix_afterExponent? hexponent
    · split at h
      · cases h
        exact List.suffix_refl _
      · cases h

theorem suffix_afterUnsigned (h : afterUnsigned t = some rest) : rest <:+ t := by
  unfold afterUnsigned at h
  split at h
  · exact (suffix_afterWhole h).trans (List.suffix_cons ..)
  · obtain ⟨r, hr, h⟩ := Option.bind_eq_some_iff.mp h
    exact (suffix_afterWhole h).trans (suffix_afterDigits hr)

theorem suffix_afterScalar (h : afterScalar t = some rest) : rest <:+ t := by
  unfold afterScalar at h
  split at h
  · rename_i hword
    obtain ⟨word, -, hfound⟩ := List.exists_of_findSome?_eq_some hword
    rw [← Option.some.inj h]
    exact suffix_dropLead? hfound
  · split at h
    · exact (suffix_afterUnsigned h).trans (List.suffix_cons ..)
    · exact suffix_afterUnsigned h

theorem orInvalid_eq_ok {found : Option Text} : orInvalid found = .ok rest ↔ found = some rest := by
  cases found <;> simp [orInvalid]

/-- What is left behind a value stands at the end of the text. -/
theorem suffix_after (h : after fuel room goal t = .ok rest) : rest <:+ t := by
  induction fuel generalizing room goal t rest with
  | zero => cases h
  | succ fuel ih =>
    have hskip : ∀ {c : Char} {r u : Text}, skipSpace u = c :: r → r <:+ u := fun {c r u} hu =>
      (List.suffix_cons c r).trans (hu ▸ suffix_skipSpace u)
    cases goal with
    | value =>
      simp only [after] at h
      split at h
      · exact (suffix_afterString (orInvalid_eq_ok.mp h)).trans (List.suffix_cons ..)
      · split at h
        · cases h
        · split at h
          · rename_i hclose
            cases h
            exact (hskip hclose).trans (List.suffix_cons ..)
          · exact ((ih h).trans (suffix_skipSpace _)).trans (List.suffix_cons ..)
      · split at h
        · cases h
        · split at h
          · rename_i hclose
            cases h
            exact (hskip hclose).trans (List.suffix_cons ..)
          · exact ((ih h).trans (suffix_skipSpace _)).trans (List.suffix_cons ..)
      · exact suffix_afterScalar (orInvalid_eq_ok.mp h)
    | elements =>
      simp only [after] at h
      obtain ⟨u, hvalue, h⟩ := exists_of_bind_eq_ok h
      refine List.IsSuffix.trans ?_ (ih hvalue)
      split at h
      · rename_i hcomma
        exact ((ih h).trans (suffix_skipSpace _)).trans (hskip hcomma)
      · rename_i hclose
        cases h
        exact hskip hclose
      · cases h
    | members =>
      simp only [after] at h
      split at h
      · obtain ⟨u, hname, h⟩ := exists_of_bind_eq_ok h
        refine List.IsSuffix.trans ?_
          ((suffix_afterString (orInvalid_eq_ok.mp hname)).trans (List.suffix_cons ..))
        split at h
        · rename_i hcolon
          obtain ⟨v, hvalue, h⟩ := exists_of_bind_eq_ok h
          refine List.IsSuffix.trans ?_
            (((ih hvalue).trans (suffix_skipSpace _)).trans (hskip hcolon))
          split at h
          · rename_i hcomma
            exact ((ih h).trans (suffix_skipSpace _)).trans (hskip hcomma)
          · rename_i hclose
            cases h
            exact hskip hclose
          · cases h
        · cases h
      · cases h

/-! ## Enough room -/

/-- The character opens an array or an object. -/
def opensValue (c : Char) : Bool :=
  c == '[' || c == '{'

/-- The number of opening brackets in a text. -/
def brackets (t : Text) : Nat :=
  t.countP opensValue

theorem brackets_le_of_suffix (h : rest <:+ t) : brackets rest ≤ brackets t :=
  h.sublist.countP_le

theorem orInvalid_ne_noRoom {found : Option Text} : orInvalid found ≠ .error (.noRoom bracket) := by
  cases found <;> simp [orInvalid]

/-- **With room for all brackets of a text** reading it does not break off. -/
theorem after_ne_noRoom (hroom : brackets t ≤ room) :
    after fuel room goal t ≠ .error (.noRoom bracket) := by
  induction fuel generalizing room goal t with
  | zero => exact nofun
  | succ fuel ih =>
    -- a bracket takes one place of the room, and what stands behind it holds one bracket less
    have hinner : ∀ {c : Char} {u : Text}, opensValue c = true →
        brackets (c :: u) ≤ room → ∃ more, room = more + 1 ∧ brackets (skipSpace u) ≤ more := by
      intro c u hc hu
      rw [brackets, List.countP_cons_of_pos hc] at hu
      have hskip : brackets (skipSpace u) ≤ u.countP opensValue :=
        brackets_le_of_suffix (suffix_skipSpace u)
      exact ⟨room - 1, by omega, by omega⟩
    have hrest : ∀ {u v : Text}, v <:+ u → brackets u ≤ room → brackets v ≤ room := fun hv hu =>
      (brackets_le_of_suffix hv).trans hu
    have hskip : ∀ {c : Char} {r u : Text}, skipSpace u = c :: r → skipSpace r <:+ u :=
      fun {c r u} hu => ((suffix_skipSpace r).trans (List.suffix_cons c r)).trans
        (hu ▸ suffix_skipSpace u)
    intro h
    cases goal with
    | value =>
      simp only [after] at h
      split at h
      · exact orInvalid_ne_noRoom h
      · obtain ⟨more, rfl, hmore⟩ := hinner (by decide) hroom
        dsimp only at h
        split at h
        · cases h
        · exact ih hmore h
      · obtain ⟨more, rfl, hmore⟩ := hinner (by decide) hroom
        dsimp only at h
        split at h
        · cases h
        · exact ih hmore h
      · exact orInvalid_ne_noRoom h
    | elements =>
      simp only [after] at h
      rcases cases_of_bind_eq_error h with h | ⟨u, hvalue, h⟩
      · exact ih hroom h
      · split at h
        · rename_i hcomma
          exact ih (hrest ((hskip hcomma).trans (suffix_after hvalue)) hroom) h
        · cases h
        · cases h
    | members =>
      simp only [after] at h
      split at h
      · have hbehind := hrest (List.suffix_cons ..) hroom
        rcases cases_of_bind_eq_error h with h | ⟨u, hname, h⟩
        · exact orInvalid_ne_noRoom h
        · have hu := hrest (suffix_afterString (orInvalid_eq_ok.mp hname)) hbehind
          split at h
          · rename_i hcolon
            have hv := hrest (hskip hcolon) hu
            rcases cases_of_bind_eq_error h with h | ⟨v, hvalue, h⟩
            · exact ih hv h
            · split at h
              · rename_i hcomma
                exact ih (hrest ((hskip hcomma).trans (suffix_after hvalue)) hv) h
              · cases h
              · cases h
          · cases h
      · cases h

/-- More brackets inside each other than there is room for are not read. -/
theorem after_replicate {n : Nat} (hroom : room < n) (hfuel : 2 * room < fuel) (t : Text) :
    after fuel room .value (List.replicate n '[' ++ t) = .error (.noRoom .array) := by
  induction room generalizing n fuel with
  | zero =>
    obtain ⟨n, rfl⟩ := Nat.exists_eq_add_one_of_ne_zero (by omega : n ≠ 0)
    obtain ⟨fuel, rfl⟩ := Nat.exists_eq_add_one_of_ne_zero (by omega : fuel ≠ 0)
    rfl
  | succ room ih =>
    obtain ⟨n, rfl⟩ := Nat.exists_eq_add_of_le' (by omega : 2 ≤ n)
    obtain ⟨fuel, rfl⟩ := Nat.exists_eq_add_of_le' (by omega : 2 ≤ fuel)
    have hinner := @ih fuel (n + 1) (by omega) (by omega)
    have hopen : after (fuel + 2) (room + 1) .value (List.replicate (n + 2) '[' ++ t)
        = after (fuel + 1) room .elements (List.replicate (n + 1) '[' ++ t) := rfl
    rw [hopen]
    show (after fuel room .value (List.replicate (n + 1) '[' ++ t) >>= _) = _
    rw [hinner]
    rfl

end Json

/-! ## Texts -/

open Json

variable {room : Nat} {t : Text} {b : Bool}

/-- The text is one JSON value, with blanks around it, where there is enough room to read it. -/
def holdsJson (t : Text) : Bool :=
  (t.isJson (brackets t)).toOption.getD false

/-- **With room for all brackets of a text** it is told whether the text is a JSON value. -/
theorem isJson_of_brackets_le (h : brackets t ≤ room) : t.isJson room = .ok t.holdsJson := by
  have hskip : brackets (skipSpace t) ≤ brackets t := brackets_le_of_suffix (suffix_skipSpace t)
  have hsame : t.isJson (brackets t) = t.isJson room := by
    rcases @refines_after (2 * t.length + 2) _ _ .value (skipSpace t) h with ⟨bracket, hnone⟩ | heq
    · exact absurd hnone (after_ne_noRoom hskip)
    · rw [isJson, isJson, heq]
  have hsome : ∃ b, t.isJson room = .ok b := by
    unfold isJson
    split
    · exact ⟨_, rfl⟩
    · exact ⟨_, rfl⟩
    · rename_i hnone
      exact absurd hnone (after_ne_noRoom (hskip.trans h))
  obtain ⟨b, hb⟩ := hsome
  rw [holdsJson, hsame, hb]
  rfl

/-- **An answer does not depend on the room.** -/
theorem isJson_eq_ok (h : t.isJson room = .ok b) : b = t.holdsJson := by
  have hall := isJson_of_brackets_le (t := t) (Nat.le_max_left _ room)
  rcases @refines_after (2 * t.length + 2) _ _ .value (skipSpace t)
    (Nat.le_max_right (brackets t) room) with ⟨bracket, hnone⟩ | heq
  · rw [isJson, hnone] at h
    cases h
  · rw [isJson, ← heq] at hall
    rw [isJson, hall] at h
    exact (Except.ok.inj h).symm

/-- **Too many brackets inside each other** get no answer. -/
theorem isJson_replicate {n : Nat} (h : room < n) (t : Text) :
    isJson room (List.replicate n '[' ++ t) = .error .array := by
  have hskip : skipSpace (List.replicate n '[' ++ t) = List.replicate n '[' ++ t := by
    obtain ⟨n, rfl⟩ := Nat.exists_eq_add_one_of_ne_zero (by omega : n ≠ 0)
    rfl
  rw [isJson, hskip, after_replicate h]
  rw [List.length_append, List.length_replicate]
  omega

end DataBinding.Text
