/-
# Where walks over bindings stop

A walk over the bindings of a document stops for two reasons: an expression in markup text holds a
decimal reference with too many digits, or a binding that is no expression opens more brackets inside
each other than there is room for where it is tried as a JSON value.  Both are told by the place alone.

* `judge_eq_error_iff`                        : the bindings that cannot be judged.
* `Rewrite.visit_stopsAt`, `ComponentState.visit_stopsAt` : where visits stop, and for which reason.
* `Rewrite.obstacle?_eq_none_of_brackets_le`  : room for all brackets of the bindings is enough room.
-/
import DataBinding.Proofs.Template.Outcome
import DataBinding.Proofs.Text.JsonRoom

namespace DataBinding

open Text.Json (Bracket brackets)

namespace Rewrite

/-! ## One binding -/

section Judging

variable {room : Nat} {o : Occurrence} {bracket : Bracket}

/-- **The bindings that cannot be judged** are those that are no expression, if there is no room for
the expression, or for the binding as it is written where the expression is no JSON value. -/
theorem judge_eq_error_iff :
    judge room o = .error bracket ↔ (∃ fault, o.read = .error fault) ∧
      (o.expression.isJson room = .error bracket ∨
        o.expression.isJson room = .ok false ∧ o.written.isJson room = .error bracket) := by
  unfold judge Occurrence.isLiteral
  cases o.read with
  | ok e =>
    dsimp only
    constructor
    · intro h
      split at h
      · cases h
      · split at h <;> cases h
    · rintro ⟨⟨fault, hfault⟩, -⟩
      cases hfault
  | error fault =>
    cases hexpression : o.expression.isJson room with
    | error b => simp [bind, Except.bind]
    | ok b =>
      cases b with
      | true => simp [bind, Except.bind, pure, Except.pure]
      | false =>
        cases hwritten : o.written.isJson room with
        | error b => simp [bind, Except.bind]
        | ok b =>
          cases b <;> cases Path.hasAccessor o.expression <;>
            simp [bind, Except.bind, pure, Except.pure]

/-- The number of brackets that are read where a binding is tried as a JSON value, at most. -/
def bracketsOf (o : Occurrence) : Nat :=
  max (brackets o.expression) (brackets o.written)

/-- With room for all brackets of a binding it can be judged. -/
theorem exists_judge_of_brackets_le (h : bracketsOf o ≤ room) :
    ∃ verdict, judge room o = .ok verdict := by
  cases hjudge : judge room o with
  | ok verdict => exact ⟨verdict, rfl⟩
  | error bracket =>
    obtain ⟨-, hliteral⟩ := judge_eq_error_iff.mp hjudge
    rw [Text.isJson_of_brackets_le ((Nat.le_max_left ..).trans h),
      Text.isJson_of_brackets_le ((Nat.le_max_right ..).trans h)] at hliteral
    rcases hliteral with hliteral | ⟨-, hliteral⟩ <;> cases hliteral

/-- What keeps a binding from being judged. -/
def unjudged? (room : Nat) (o : Occurrence) : Option Obstacle :=
  match judge room o with
  | .error bracket => some (.noRoom bracket)
  | .ok _ => none

theorem unjudged?_eq_none_iff : unjudged? room o = none ↔ ∃ verdict, judge room o = .ok verdict := by
  unfold unjudged?
  cases judge room o <;> simp

theorem unjudged?_eq_some_iff {obstacle : Obstacle} :
    unjudged? room o = some obstacle ↔
      ∃ bracket, judge room o = .error bracket ∧ obstacle = .noRoom bracket := by
  unfold unjudged?
  cases judge room o <;> simp [eq_comm]

end Judging

/-- Bindings are processed up to the first one that cannot be judged. -/
theorem rewriteFrom_stops {os : List Occurrence} {scope : Scope} {obstacle : Obstacle}
    (h : os.findSome? (unjudged? scope.room) = some obstacle) (repeats : List Text) (position : Nat)
    (t : Text) : ∃ stop, rewriteFrom repeats position t os scope = .error stop ∧
      stop.obstacle = obstacle := by
  induction os generalizing position t scope with
  | nil => cases h
  | cons o os ih =>
    rw [List.findSome?_cons] at h
    cases hfirst : unjudged? scope.room o with
    | some first =>
      rw [hfirst] at h
      obtain rfl := Option.some.inj h
      obtain ⟨bracket, hjudge, rfl⟩ := unjudged?_eq_some_iff.mp hfirst
      refine ⟨⟨.noRoom bracket, scope⟩, ?_, rfl⟩
      rw [rewriteFrom, process, hjudge]
      rfl
    | none =>
      rw [hfirst] at h
      obtain ⟨verdict, hjudge⟩ := unjudged?_eq_none_iff.mp hfirst
      rw [← (sameSettings_carryOut repeats o scope verdict).room] at h
      obtain ⟨stop, hstop, hobstacle⟩ := ih h o.stop (t.drop (o.stop - position))
      refine ⟨stop, ?_, hobstacle⟩
      rw [rewriteFrom, process, hjudge]
      simp only [bind, Except.bind, hstop]

/-! ## Places -/

/-- **What stops the rewriting of a place**: an expression that cannot be decoded, or else the first
selected binding that cannot be judged. -/
def obstacle? (room : Nat) (site : Site) : Option Obstacle :=
  if Occurrence.mayHold site.text then
    match Occurrence.overlong? site.raw site.text with
    | some digits => some (.overlongReference digits)
    | none => (selected site).findSome? (unjudged? room)
  else none

/-- **A visit that rewrites a place** stops exactly if something stops the rewriting there. -/
theorem visit_stopsAt (room : Nat) :
    Attempt.StopsAt visit (fun scope => scope.room = room) Stop.obstacle (obstacle? room) where
  stops site scope obstacle hroom h := by
    unfold obstacle? at h
    unfold visit Occurrence.find
    by_cases hmay : Occurrence.mayHold site.text = true
    · rw [if_pos hmay] at h ⊢
      cases hoverlong : Occurrence.overlong? site.raw site.text with
      | some digits =>
        rw [hoverlong] at h
        exact ⟨_, rfl, Option.some.inj h⟩
      | none =>
        rw [hoverlong] at h
        dsimp only at h ⊢
        rw [selected, if_pos hmay, ← hroom] at h
        obtain ⟨stop, hstop, hobstacle⟩ := rewriteFrom_stops h site.repeats 0 site.text
        rw [hstop]
        exact ⟨stop, rfl, hobstacle⟩
    · rw [if_neg hmay] at h
      cases h
  passes site scope hroom h := by
    obtain ⟨reply, after, hvisit⟩ : ∃ reply after, visit site scope = .ok (reply, after) := by
      refine exists_visit_of_judge fun hmay => ?_
      rw [obstacle?, if_pos hmay] at h
      cases hoverlong : Occurrence.overlong? site.raw site.text with
      | some digits =>
        rw [hoverlong] at h
        cases h
      | none =>
        rw [hoverlong, selected, if_pos hmay] at h
        refine ⟨_, Occurrence.find_eq_ok_iff.mpr ⟨hoverlong, rfl⟩, fun o ho => ?_⟩
        rw [hroom]
        exact unjudged?_eq_none_iff.mp (List.findSome?_eq_none_iff.mp h o ho)
    exact ⟨reply, after, hvisit, (sameSettings_visit hvisit).room.trans hroom⟩

/-- **Rewriting stops** at the first place that has an obstacle. -/
theorem document_stopsAt (document : Markup.Document) (scope : Scope) :
    (∀ obstacle, document.sites.findSome? (obstacle? scope.room) = some obstacle →
      ∃ stop, Rewrite.document document scope = .error stop ∧ stop.obstacle = obstacle) ∧
    (document.sites.findSome? (obstacle? scope.room) = none →
      ∃ document' last, Rewrite.document document scope = .ok (document', last)) :=
  Markup.Document.attempt_stopsAt (visit_stopsAt scope.room) visit_keepsMarkers document scope rfl

/-- With room for all brackets of the bindings of a place nothing but a reference stops its
rewriting. -/
theorem obstacle?_eq_none_of_brackets_le {room : Nat} {site : Site}
    (hreferences : Occurrence.overlong? site.raw site.text = none)
    (hroom : ∀ o ∈ selected site, bracketsOf o ≤ room) :
    obstacle? room site = none := by
  unfold obstacle?
  split
  · rw [hreferences]
    refine List.findSome?_eq_none_iff.mpr fun o ho => ?_
    exact unjudged?_eq_none_iff.mpr (exists_judge_of_brackets_le (hroom o ho))
  · rfl

end Rewrite

namespace ComponentState

/-- **What stops learning from a place**: an expression that cannot be decoded, where a two-way binding
may stand. -/
def obstacle? (site : Site) : Option Obstacle :=
  if Text.holds Direction.twoWay.opening site.text then
    (Occurrence.overlong? site.raw site.text).map .overlongReference
  else none

/-- **A visit that learns** stops exactly if something stops learning from the place. -/
theorem visit_stopsAt :
    Attempt.StopsAt visit (fun _ => True) Stop.obstacle obstacle? where
  stops site scope obstacle _ h := by
    unfold obstacle? at h
    unfold visit Occurrence.find
    split at h
    · rename_i hholds
      rw [if_pos hholds]
      obtain ⟨digits, hdigits, rfl⟩ := Option.map_eq_some_iff.mp h
      rw [hdigits]
      exact ⟨_, rfl, rfl⟩
    · cases h
  passes site scope _ h := by
    unfold obstacle? at h
    unfold visit Occurrence.find
    split at h
    · rename_i hholds
      rw [if_pos hholds, Option.map_eq_none_iff.mp h]
      exact ⟨_, _, rfl, trivial⟩
    · rename_i hholds
      rw [if_neg hholds]
      exact ⟨_, _, rfl, trivial⟩

end ComponentState
end DataBinding
