/-
# Walks that may stop

An attempt at the places of a document goes on up to the first place where it stops.  An attempt that
comes to the end has not stopped anywhere, so that it is followed from place to place like a walk; and
whether it stops is told by the places alone, in document order.

* `Document.visitAll_of_attempt`  : an attempt that comes to the end has visited all places;
* `Document.attempt_simulates`    : it makes the same document as a visitor that answers alike;
* `Document.attempt_alike`        : attempts that end alike at every place end alike;
* `Document.attempt_stopsAt`      : an attempt stops at the first place that has an obstacle.
-/
import DataBinding.Proofs.Results
import DataBinding.Proofs.Template.Sites

namespace DataBinding

variable {ε σ τ ω : Type} {attempt : Attempt ε σ}

namespace Attempt

/-- No answer of the attempt is the marker of a repeat template. -/
def KeepsMarkers (attempt : Attempt ε σ) : Prop :=
  ∀ site state answer after, attempt site state = .ok (some answer, after) →
    answer = site.text ∨ answer ≠ "dom-repeat".toList

/-- From states with a property the attempt stops at the places that have an obstacle, for this reason,
and at no other place; it keeps the property. -/
structure StopsAt (attempt : Attempt ε σ) (P : σ → Prop) (reason : ε → ω)
    (obstacle? : Site → Option ω) : Prop where
  stops : ∀ site state o, P state → obstacle? site = some o →
    ∃ stop, attempt site state = .error stop ∧ reason stop = o
  passes : ∀ site state, P state → obstacle? site = none →
    ∃ answer after, attempt site state = .ok (answer, after) ∧ P after

/-- A visit that does not stop was made where nothing had stopped before. -/
theorem exists_of_visitor {site : Site} {reached : Except ε σ} {after : σ}
    (h : (attempt.visitor site reached).2 = .ok after) :
    ∃ state answer, reached = .ok state ∧ attempt site state = .ok (answer, after) ∧
      (attempt.visitor site reached).1 = answer := by
  cases reached with
  | error stop => cases h
  | ok state =>
    cases hattempt : attempt site state with
    | error stop =>
      simp only [visitor, hattempt] at h
      cases h
    | ok r =>
      simp only [visitor, hattempt] at h ⊢
      obtain rfl := Except.ok.inj h
      exact ⟨state, r.1, rfl, hattempt, rfl⟩

/-- Where nothing stops, the visitor does what is attempted. -/
theorem visitor_of_eq_ok {site : Site} {state : σ} {r : Option Text × σ}
    (h : attempt site state = .ok r) : attempt.visitor site (.ok state) = (r.1, .ok r.2) := by
  simp only [visitor, h]

theorem KeepsMarkers.visitor (h : attempt.KeepsMarkers) : Markup.KeepsMarkers attempt.visitor := by
  intro site reached answer hanswer
  cases reached with
  | error stop => cases hanswer
  | ok state =>
    cases hattempt : attempt site state with
    | error stop =>
      simp only [Attempt.visitor, hattempt] at hanswer
      cases hanswer
    | ok r =>
      obtain ⟨answer', after⟩ := r
      simp only [Attempt.visitor, hattempt] at hanswer
      cases hanswer
      exact h site state answer after hattempt

end Attempt

namespace Markup

/-! ## Places one after the other -/

/-- Behind a stop nothing is visited. -/
theorem visitAll_stop (attempt : Attempt ε σ) (sites : List Site) (stop : ε) :
    visitAll attempt.visitor sites (.error stop) = .error stop := by
  induction sites with
  | nil => rfl
  | cons site sites ih => exact ih

/-- Places are visited to the end if the first one is, and then the others. -/
theorem exists_of_visitAll_cons {site : Site} {sites : List Site} {state last : σ}
    (h : visitAll attempt.visitor (site :: sites) (.ok state) = .ok last) :
    ∃ answer after, attempt site state = .ok (answer, after) ∧
      visitAll attempt.visitor sites (.ok after) = .ok last := by
  replace h : visitAll attempt.visitor sites (attempt.visitor site (.ok state)).2 = .ok last := h
  cases hattempt : attempt site state with
  | error stop =>
    simp only [Attempt.visitor, hattempt, visitAll_stop] at h
    cases h
  | ok r =>
    simp only [Attempt.visitor, hattempt] at h
    exact ⟨r.1, r.2, rfl, h⟩

/-- What each visit keeps is kept by all of them. -/
theorem visitAll_attempt_keeps {P : σ → Prop}
    (hattempt : ∀ site state answer after, attempt site state = .ok (answer, after) → P state → P after)
    {sites : List Site} {state last : σ}
    (h : visitAll attempt.visitor sites (.ok state) = .ok last) (hstate : P state) : P last := by
  induction sites generalizing state with
  | nil =>
    obtain rfl := Except.ok.inj h
    exact hstate
  | cons site sites ih =>
    obtain ⟨answer, after, hfirst, hrest⟩ := exists_of_visitAll_cons h
    exact ih hrest (hattempt site state answer after hfirst hstate)

/-- Each place was visited, and the places behind it later. -/
theorem exists_visit_of_mem {sites : List Site} {site : Site} (hsite : site ∈ sites) {state last : σ}
    (h : visitAll attempt.visitor sites (.ok state) = .ok last) :
    ∃ before answer after behind, attempt site before = .ok (answer, after) ∧
      visitAll attempt.visitor behind (.ok after) = .ok last := by
  induction sites generalizing state with
  | nil => cases hsite
  | cons first sites ih =>
    obtain ⟨answer, after, hfirst, hrest⟩ := exists_of_visitAll_cons h
    rcases List.mem_cons.mp hsite with rfl | hsite
    · exact ⟨state, answer, after, sites, hfirst, hrest⟩
    · exact ih hsite hrest

section Stops

variable {P : σ → Prop} {reason : ε → ω} {obstacle? : Site → Option ω}

/-- Places are visited up to the first one with an obstacle. -/
theorem visitAll_stopsAt (h : attempt.StopsAt P reason obstacle?) (sites : List Site) (state : σ)
    (hstate : P state) :
    (∀ o, sites.findSome? obstacle? = some o →
      ∃ stop, visitAll attempt.visitor sites (.ok state) = .error stop ∧ reason stop = o) ∧
    (sites.findSome? obstacle? = none →
      ∃ after, visitAll attempt.visitor sites (.ok state) = .ok after) := by
  induction sites generalizing state with
  | nil => exact ⟨nofun, fun _ => ⟨state, rfl⟩⟩
  | cons site sites ih =>
    have hcons : ∀ reached, visitAll attempt.visitor (site :: sites) reached
        = visitAll attempt.visitor sites (attempt.visitor site reached).2 := fun _ => rfl
    rw [hcons, List.findSome?_cons]
    cases hobstacle : obstacle? site with
    | some o =>
      obtain ⟨stop, hstop, hreason⟩ := h.stops site state o hstate hobstacle
      simp only [Attempt.visitor, hstop, visitAll_stop]
      refine ⟨fun o' ho' => ⟨stop, rfl, ?_⟩, nofun⟩
      rw [hreason, Option.some.inj ho']
    | none =>
      obtain ⟨answer, after, hpass, hafter⟩ := h.passes site state hstate hobstacle
      simp only [Attempt.visitor, hpass]
      exact ih after hafter

end Stops

/-! ## Documents -/

theorem Document.attempt_eq (attempt : Attempt ε σ) (document : Document) (state : σ) :
    document.attempt attempt state = (document.walk attempt.visitor (.ok state)).2.map fun after =>
      ((document.walk attempt.visitor (.ok state)).1, after) :=
  rfl

/-- An attempt that comes to the end is a walk. -/
theorem Document.attempt_eq_ok_iff {document document' : Document} {state last : σ} :
    document.attempt attempt state = .ok (document', last)
      ↔ document.walk attempt.visitor (.ok state) = (document', .ok last) := by
  rw [Document.attempt_eq]
  obtain ⟨walked, reached⟩ := document.walk attempt.visitor (.ok state)
  cases reached <;> simp [Except.map]

/-- **An attempt that comes to the end** has visited all places. -/
theorem Document.visitAll_of_attempt (hkeeps : attempt.KeepsMarkers) {document document' : Document}
    {state last : σ} (h : document.attempt attempt state = .ok (document', last)) :
    visitAll attempt.visitor document.sites (.ok state) = .ok last := by
  rw [← document.walk_state hkeeps.visitor, Document.attempt_eq_ok_iff.mp h]

/-- What each visit keeps is kept by an attempt that comes to the end. -/
theorem Document.attempt_keeps (hkeeps : attempt.KeepsMarkers) {P : σ → Prop}
    (hattempt : ∀ site state answer after, attempt site state = .ok (answer, after) → P state → P after)
    {document document' : Document} {state last : σ}
    (h : document.attempt attempt state = .ok (document', last)) (hstate : P state) : P last :=
  visitAll_attempt_keeps hattempt (Document.visitAll_of_attempt hkeeps h) hstate

/-- **An attempt that comes to the end makes the same document** as a visitor that answers alike. -/
theorem Document.attempt_simulates {R : σ → τ → Prop} {visit : Visitor τ}
    (hsim : ∀ site state answer after s, attempt site state = .ok (answer, after) → R state s →
      answer = (visit site s).1 ∧ R after (visit site s).2)
    {document document' : Document} {state last : σ} {s : τ}
    (h : document.attempt attempt state = .ok (document', last)) (hR : R state s) :
    document' = (document.walk visit s).1 ∧ R last (document.walk visit s).2 := by
  rw [Document.attempt_eq_ok_iff] at h
  have hall : Simulates (fun reached => ∃ after, reached = .ok after)
      (fun reached s => ∃ state, reached = .ok state ∧ R state s) attempt.visitor visit := by
    rintro site reached ⟨after, hafter⟩
    obtain ⟨state, answer, rfl, hattempt, hanswer⟩ := Attempt.exists_of_visitor hafter
    refine ⟨⟨state, rfl⟩, ?_⟩
    rintro s ⟨_, ⟨rfl⟩, hR⟩
    obtain ⟨hsame, hrelated⟩ := hsim site state answer after s hattempt hR
    exact ⟨hanswer.trans hsame, after, hafter, hrelated⟩
  have hend : (document.walk attempt.visitor (.ok state)).2 = .ok last := by rw [h]
  obtain ⟨hsame, reached, hreached, hrelated⟩ :=
    document.walk_simulates hall ⟨last, hend⟩ ⟨state, rfl, hR⟩
  rw [h] at hsame hreached
  obtain rfl := Except.ok.inj hreached
  exact ⟨hsame, hrelated⟩

/-- **Attempts that end alike at every place** end alike on a document, and make the same of it. -/
theorem Document.attempt_alike {Q : ε → ε → Prop} {R : σ → σ → Prop}
    (h : ∀ site s s', R s s' → EndAlike Q (fun r r' => r.1 = r'.1 ∧ R r.2 r'.2)
      (attempt site s) (attempt site s')) (document : Document) {s s' : σ} (hR : R s s') :
    EndAlike Q (fun r r' => r.1 = r'.1 ∧ R r.2 r'.2) (document.attempt attempt s)
      (document.attempt attempt s') := by
  have hsim : Simulates (fun _ => True) (EndAlike Q R) attempt.visitor attempt.visitor := by
    refine fun site reached _ => ⟨trivial, fun reached' halike => ?_⟩
    cases halike with
    | error hstop => exact ⟨rfl, .error hstop⟩
    | @ok s s' hR =>
      have hsite := h site s s' hR
      simp only [Attempt.visitor]
      generalize attempt site s = x at hsite
      generalize attempt site s' = x' at hsite
      cases hsite with
      | error hstop => exact ⟨rfl, .error hstop⟩
      | ok hsame => exact ⟨hsame.1, .ok hsame.2⟩
  obtain ⟨hsame, hreached⟩ := document.walk_simulates hsim trivial (.ok hR)
  rw [Document.attempt_eq, Document.attempt_eq]
  exact hreached.map fun _ _ hafter => ⟨hsame, hafter⟩

/-- **An attempt stops at the first place that has an obstacle.** -/
theorem Document.attempt_stopsAt {P : σ → Prop} {reason : ε → ω} {obstacle? : Site → Option ω}
    (h : attempt.StopsAt P reason obstacle?) (hkeeps : attempt.KeepsMarkers) (document : Document)
    (state : σ) (hstate : P state) :
    (∀ o, document.sites.findSome? obstacle? = some o →
      ∃ stop, document.attempt attempt state = .error stop ∧ reason stop = o) ∧
    (document.sites.findSome? obstacle? = none →
      ∃ document' last, document.attempt attempt state = .ok (document', last)) := by
  obtain ⟨hstops, hpasses⟩ := visitAll_stopsAt h document.sites state hstate
  rw [← document.walk_state hkeeps.visitor] at hstops hpasses
  rw [Document.attempt_eq]
  constructor
  · intro o ho
    obtain ⟨stop, hstop, hreason⟩ := hstops o ho
    exact ⟨stop, by rw [hstop]; rfl, hreason⟩
  · intro hnone
    obtain ⟨last, hlast⟩ := hpasses hnone
    exact ⟨_, last, by rw [hlast]; rfl⟩

end Markup
end DataBinding
