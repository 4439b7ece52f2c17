/-
# The places that a walk visits

A walk is told by the list of places it visits, which is read off the document before the walk.  The
key construction is `Document.sites`, together with

* `walk_state`     : the state behind a walk is the one behind the visits of the listed places, for
  every visitor that makes no template a repeat template;
* `walk_simulates` : visitors that answer alike make the same document.
-/
import DataBinding.Proofs.Markup.Reading
import DataBinding.Proofs.Template.Frame

namespace DataBinding.Markup

/-! ## Places of a document -/

/-- The place of an attribute, unless it has no value or an empty one. -/
def attributeSite? (repeats : List Text) : Text × Option Text → Option Site
  | (_, none) | (_, some []) => none
  | (name, some value) => some ⟨value, false, some name, repeats⟩

/-- The places in a tag below a host template. -/
def Tag.sites (repeats : List Text) (tag : Tag) : List Site :=
  if tag.isRepeat then [] else tag.attributes.filterMap (attributeSite? (repeats ++ tag.repeatNames))

mutual

/-- The places in a node below a host template; `inRaw` tells that no text counts. -/
def Node.sites (repeats : List Text) (inRaw : Bool) : Node → List Site
  | .text data => if inRaw || data.allBlank then [] else [⟨data, true, none, repeats⟩]
  | .element tag children =>
    tag.sites repeats ++ sitesIn (repeats ++ tag.repeatNames) (isRawText tag.name) children
  | _ => []

/-- The places in nodes below a host template. -/
def Node.sitesIn (repeats : List Text) (inRaw : Bool) : List Node → List Site
  | [] => []
  | node :: nodes => node.sites repeats inRaw ++ sitesIn repeats inRaw nodes

end

mutual

/-- The places below the host templates in a node. -/
def Node.hostedSites (repeats : List Text) : Node → List Site
  | .element tag children =>
    if tag.isHost then Node.sitesIn repeats false children
    else hostedSitesIn (repeats ++ tag.repeatNames) children
  | _ => []

/-- The places below the host templates in nodes that follow each other. -/
def Node.hostedSitesIn (repeats : List Text) : List Node → List Site
  | [] => []
  | node :: nodes => node.hostedSites repeats ++ hostedSitesIn repeats nodes

end

/-- The places below the host templates of a document, in document order. -/
def Document.sites (document : Document) : List Site :=
  Node.hostedSitesIn [] document.children

/-! ## Visits in order -/

variable {σ : Type}

/-- The state behind visits to places one after the other. -/
def visitAll (visit : Visitor σ) (sites : List Site) (state : σ) : σ :=
  sites.foldl (fun state site => (visit site state).2) state

theorem visitAll_append (visit : Visitor σ) (sites more : List Site) (state : σ) :
    visitAll visit (sites ++ more) state = visitAll visit more (visitAll visit sites state) :=
  List.foldl_append

/-- What each visit keeps is kept by all of them. -/
theorem visitAll_keeps {visit : Visitor σ} {P : σ → Prop}
    (hvisit : ∀ site state, P state → P (visit site state).2) (sites : List Site) {state : σ}
    (h : P state) : P (visitAll visit sites state) := by
  unfold visitAll
  induction sites generalizing state with
  | nil => exact h
  | cons site sites ih => exact ih (hvisit site state h)

/-- No other answer of the visitor is the marker of a repeat template. -/
def KeepsMarkers (visit : Visitor σ) : Prop :=
  ∀ site state, ∀ answer ∈ (visit site state).1, answer = site.text ∨ answer ≠ "dom-repeat".toList

/-- Setting an attribute to something else than the marker makes no repeat template. -/
theorem isRepeat_set {tag : Tag} (h : tag.isRepeat = false) (name : Text) {answer : Text}
    (hanswer : answer ≠ "dom-repeat".toList) : (tag.set name (some answer)).isRepeat = false := by
  have hget : (tag.set name (some answer)).get? Tag.markerName
      = if name = Tag.markerName then some answer else tag.get? Tag.markerName := by
    simp only [Tag.get?, Tag.set, lookUp_assign]
    split <;> rfl
  unfold Tag.isRepeat at h ⊢
  rw [hget]
  by_cases hname : name = Tag.markerName
  · rw [if_pos hname, Bool.and_eq_false_iff]
    exact .inr (by simpa using hanswer)
  · rw [if_neg hname]
    exact h

/-- Visiting one attribute of a tag that is no repeat template. -/
theorem visitAttribute_state {visit : Visitor σ} (hkeeps : KeepsMarkers visit)
    (repeats : List Text) {reached : Tag × σ} (h : reached.1.isRepeat = false)
    (entry : Text × Option Text) :
    (visitAttribute visit repeats reached entry).1.isRepeat = false ∧
      (visitAttribute visit repeats reached entry).2
        = visitAll visit (attributeSite? repeats entry).toList reached.2 := by
  obtain ⟨tag, state⟩ := reached
  obtain ⟨name, value⟩ := entry
  have hnames : tag.repeatNames = [] := by
    rw [Tag.repeatNames, h]
    rfl
  match value with
  | none => exact ⟨h, rfl⟩
  | some [] => exact ⟨h, rfl⟩
  | some (c :: t) =>
    simp only [visitAttribute, hnames, List.append_nil]
    refine ⟨?_, rfl⟩
    unfold Tag.answered
    split
    · exact h
    · rename_i answer heq
      split
      · exact h
      · rename_i hdiff
        refine isRepeat_set h name ((hkeeps _ _ answer heq).resolve_left fun e => hdiff ?_)
        simpa using e

/-- Visiting a tag visits its places, and leaves the names that the tag gives to its contents. -/
theorem visitTag_state {visit : Visitor σ} (hkeeps : KeepsMarkers visit) (repeats : List Text)
    (tag : Tag) (state : σ) :
    (visitTag visit repeats tag state).1.repeatNames = tag.repeatNames ∧
      (visitTag visit repeats tag state).2 = visitAll visit (tag.sites repeats) state := by
  -- a tag that is no repeat template does not become one, whatever attributes were set so far
  suffices hfold : ∀ (entries : List (Text × Option Text)) (reached : Tag × σ),
      reached.1.isRepeat = false →
      (entries.foldl (visitAttribute visit repeats) reached).1.isRepeat = false ∧
        (entries.foldl (visitAttribute visit repeats) reached).2
          = visitAll visit (entries.filterMap (attributeSite? repeats)) reached.2 by
    unfold visitTag Tag.sites
    cases hrepeat : tag.isRepeat with
    | true => exact ⟨rfl, rfl⟩
    | false =>
      have hnames : tag.repeatNames = [] := by
        rw [Tag.repeatNames, hrepeat]
        rfl
      obtain ⟨hafter, hstate⟩ := hfold tag.attributes (tag, state) hrepeat
      simp only [Bool.false_eq_true, if_false, hnames, List.append_nil]
      exact ⟨by rw [Tag.repeatNames, hafter]; rfl, hstate⟩
  intro entries
  induction entries with
  | nil => exact fun reached h => ⟨h, rfl⟩
  | cons entry entries ih =>
    intro reached h
    obtain ⟨hfirst, hstate⟩ := visitAttribute_state hkeeps repeats h entry
    obtain ⟨hafter, hrest⟩ := ih _ hfirst
    refine ⟨hafter, hrest.trans ?_⟩
    rw [hstate, ← visitAll_append]
    congr 1
    cases hsite : attributeSite? repeats entry <;> simp [hsite]

mutual

/-- Visiting a node visits its places. -/
theorem visitNode_state {visit : Visitor σ} (hkeeps : KeepsMarkers visit) (repeats : List Text)
    (raw : Bool) :
    ∀ (node : Node) (state : σ),
      (visitNode visit repeats raw node state).2 = visitAll visit (node.sites repeats raw) state
  | .text t, state => by
    cases raw with
    | true => rfl
    | false =>
      simp only [visitNode, visitText, Node.sites, Bool.false_eq_true, if_false, Bool.false_or]
      split <;> rfl
  | .comment _, _ | .declaration _, _ | .instruction _, _ => rfl
  | .element tag children, state => by
    obtain ⟨hnames, hstate⟩ := visitTag_state hkeeps repeats tag state
    have hname := visitTag_name visit repeats tag state
    simp only [visitNode, Node.sites]
    rw [visitAll_append, hnames, hname, ← hstate]
    exact visitNodes_state hkeeps _ _ children _

/-- Visiting nodes visits their places. -/
theorem visitNodes_state {visit : Visitor σ} (hkeeps : KeepsMarkers visit) (repeats : List Text)
    (raw : Bool) :
    ∀ (nodes : List Node) (state : σ),
      (visitNodes visit repeats raw nodes state).2
        = visitAll visit (Node.sitesIn repeats raw nodes) state
  | [], _ => rfl
  | node :: nodes, state => by
    simp only [visitNodes, Node.sitesIn]
    rw [visitAll_append, ← visitNode_state hkeeps repeats raw node state]
    exact visitNodes_state hkeeps repeats raw nodes _

end

mutual

/-- A walk over a node visits the places below its host templates. -/
theorem walkNode_state {visit : Visitor σ} (hkeeps : KeepsMarkers visit) (repeats : List Text) :
    ∀ (node : Node) (state : σ),
      (walkNode visit repeats node state).2 = visitAll visit (node.hostedSites repeats) state
  | .text _, _ | .comment _, _ | .declaration _, _ | .instruction _, _ => rfl
  | .element tag children, state => by
    rw [walkNode_element, Node.hostedSites]
    cases tag.isHost with
    | true => exact visitNodes_state hkeeps _ _ children state
    | false => exact walkNodes_state hkeeps _ children state

/-- A walk over nodes visits the places below their host templates. -/
theorem walkNodes_state {visit : Visitor σ} (hkeeps : KeepsMarkers visit) (repeats : List Text) :
    ∀ (nodes : List Node) (state : σ),
      (walkNodes visit repeats nodes state).2
        = visitAll visit (Node.hostedSitesIn repeats nodes) state
  | [], _ => rfl
  | node :: nodes, state => by
    simp only [walkNodes, Node.hostedSitesIn]
    rw [visitAll_append, ← walkNode_state hkeeps repeats node state]
    exact walkNodes_state hkeeps repeats nodes _

end

/-- **A walk visits the listed places.**  The state behind a walk is the one behind visits to the
places of the document, in document order. -/
theorem Document.walk_state {visit : Visitor σ} (hkeeps : KeepsMarkers visit) (document : Document)
    (state : σ) : (document.walk visit state).2 = visitAll visit document.sites state :=
  walkNodes_state hkeeps [] document.children state

/-- What each visit keeps is kept by a walk. -/
theorem Document.walk_keeps {visit : Visitor σ} (hkeeps : KeepsMarkers visit) {P : σ → Prop}
    (hvisit : ∀ site state, P state → P (visit site state).2) (document : Document) {state : σ}
    (h : P state) : P (document.walk visit state).2 := by
  rw [document.walk_state hkeeps]
  exact visitAll_keeps hvisit document.sites h

/-! ## Visitors that answer alike -/

variable {τ : Type}

/-- Where the first visitor ends in a state with a property, it started in one, and the second visitor
gives the same answer and ends in a related state if it started in a related one. -/
def Simulates (P : σ → Prop) (R : σ → τ → Prop) (visit : Visitor σ) (visit' : Visitor τ) : Prop :=
  ∀ site s, P (visit site s).2 → P s ∧ ∀ s', R s s' →
    (visit site s).1 = (visit' site s').1 ∧ R (visit site s).2 (visit' site s').2

variable {P : σ → Prop} {R : σ → τ → Prop} {visit : Visitor σ} {visit' : Visitor τ}

/-- Visitors that answer alike revise an attribute alike. -/
theorem visitAttribute_simulates (hsim : Simulates P R visit visit') (repeats : List Text)
    (reached : Tag × σ) (entry : Text × Option Text)
    (hend : P (visitAttribute visit repeats reached entry).2) :
    P reached.2 ∧ ∀ reached' : Tag × τ, reached.1 = reached'.1 ∧ R reached.2 reached'.2 →
      (visitAttribute visit repeats reached entry).1
          = (visitAttribute visit' repeats reached' entry).1 ∧
        R (visitAttribute visit repeats reached entry).2
          (visitAttribute visit' repeats reached' entry).2 := by
  obtain ⟨tag, s⟩ := reached
  obtain ⟨name, value⟩ := entry
  match value with
  | none => exact ⟨hend, fun _ h => h⟩
  | some [] => exact ⟨hend, fun _ h => h⟩
  | some (c :: t) =>
    obtain ⟨hstart, hagree⟩ := hsim ⟨c :: t, false, some name, repeats ++ tag.repeatNames⟩ s hend
    refine ⟨hstart, ?_⟩
    rintro ⟨tag', s'⟩ ⟨rfl, hstate⟩
    obtain ⟨hanswer, hafter⟩ := hagree s' hstate
    simp only [visitAttribute]
    exact ⟨by rw [hanswer], hafter⟩

/-- Visitors that answer alike revise a tag alike. -/
theorem visitTag_simulates (hsim : Simulates P R visit visit') (repeats : List Text) (tag : Tag)
    (s : σ) (hend : P (visitTag visit repeats tag s).2) :
    P s ∧ ∀ s', R s s' →
      (visitTag visit repeats tag s).1 = (visitTag visit' repeats tag s').1 ∧
        R (visitTag visit repeats tag s).2 (visitTag visit' repeats tag s').2 := by
  suffices hfold : ∀ (entries : List (Text × Option Text)) (reached : Tag × σ),
      P (entries.foldl (visitAttribute visit repeats) reached).2 →
      P reached.2 ∧ ∀ reached' : Tag × τ, reached.1 = reached'.1 ∧ R reached.2 reached'.2 →
        (entries.foldl (visitAttribute visit repeats) reached).1
            = (entries.foldl (visitAttribute visit' repeats) reached').1 ∧
          R (entries.foldl (visitAttribute visit repeats) reached).2
            (entries.foldl (visitAttribute visit' repeats) reached').2 by
    unfold visitTag at hend ⊢
    split
    · rename_i hrepeat
      rw [if_pos hrepeat] at hend
      exact ⟨hend, fun s' h => ⟨rfl, h⟩⟩
    · rename_i hrepeat
      rw [if_neg hrepeat] at hend
      obtain ⟨hstart, hagree⟩ := hfold tag.attributes (tag, s) hend
      exact ⟨hstart, fun s' h => hagree (tag, s') ⟨rfl, h⟩⟩
  intro entries
  induction entries with
  | nil => exact fun _ hend => ⟨hend, fun _ h => h⟩
  | cons entry entries ih =>
    intro reached hend
    obtain ⟨hmiddle, hrest⟩ := ih _ hend
    obtain ⟨hstart, hfirst⟩ := visitAttribute_simulates hsim repeats reached entry hmiddle
    exact ⟨hstart, fun reached' h => hrest _ (hfirst reached' h)⟩

mutual

/-- Visitors that answer alike make the same of a node. -/
theorem visitNode_simulates (hsim : Simulates P R visit visit') (repeats : List Text) (raw : Bool) :
    ∀ (node : Node) (s : σ), P (visitNode visit repeats raw node s).2 →
      P s ∧ ∀ s', R s s' →
        (visitNode visit repeats raw node s).1 = (visitNode visit' repeats raw node s').1 ∧
          R (visitNode visit repeats raw node s).2 (visitNode visit' repeats raw node s').2
  | .text t, s, hend => by
    cases raw with
    | true => exact ⟨hend, fun s' h => ⟨rfl, h⟩⟩
    | false =>
      simp only [visitNode, Bool.false_eq_true, if_false, visitText] at hend ⊢
      split
      · rename_i hblank
        rw [if_pos hblank] at hend
        exact ⟨hend, fun s' h => ⟨rfl, h⟩⟩
      · rename_i hblank
        rw [if_neg hblank] at hend
        obtain ⟨hstart, hagree⟩ := hsim ⟨t, true, none, repeats⟩ s hend
        refine ⟨hstart, fun s' h => ?_⟩
        obtain ⟨hanswer, hstate⟩ := hagree s' h
        exact ⟨by rw [hanswer], hstate⟩
  | .comment _, _, hend | .declaration _, _, hend | .instruction _, _, hend =>
    ⟨hend, fun _ h => ⟨rfl, h⟩⟩
  | .element tag children, s, hend => by
    simp only [visitNode] at hend ⊢
    obtain ⟨hmiddle, hchildren⟩ := visitNodes_simulates hsim _ _ children _ hend
    obtain ⟨hstart, htag⟩ := visitTag_simulates hsim repeats tag s hmiddle
    refine ⟨hstart, fun s' h => ?_⟩
    obtain ⟨hsame, hstate⟩ := htag s' h
    obtain ⟨hbelow, hafter⟩ := hchildren _ hstate
    rw [← hsame]
    exact ⟨by rw [hbelow], hafter⟩

/-- Visitors that answer alike make the same of nodes. -/
theorem visitNodes_simulates (hsim : Simulates P R visit visit') (repeats : List Text) (raw : Bool) :
    ∀ (nodes : List Node) (s : σ), P (visitNodes visit repeats raw nodes s).2 →
      P s ∧ ∀ s', R s s' →
        (visitNodes visit repeats raw nodes s).1 = (visitNodes visit' repeats raw nodes s').1 ∧
          R (visitNodes visit repeats raw nodes s).2 (visitNodes visit' repeats raw nodes s').2
  | [], _, hend => ⟨hend, fun _ h => ⟨rfl, h⟩⟩
  | node :: nodes, s, hend => by
    simp only [visitNodes] at hend ⊢
    obtain ⟨hmiddle, hrest⟩ := visitNodes_simulates hsim repeats raw nodes _ hend
    obtain ⟨hstart, hfirst⟩ := visitNode_simulates hsim repeats raw node s hmiddle
    refine ⟨hstart, fun s' h => ?_⟩
    obtain ⟨hnode, hstate⟩ := hfirst s' h
    obtain ⟨hnodes, hafter⟩ := hrest _ hstate
    exact ⟨by rw [hnode, hnodes], hafter⟩

end

mutual

/-- Walks of visitors that answer alike make the same of a node. -/
theorem walkNode_simulates (hsim : Simulates P R visit visit') (repeats : List Text) :
    ∀ (node : Node) (s : σ), P (walkNode visit repeats node s).2 →
      P s ∧ ∀ s', R s s' →
        (walkNode visit repeats node s).1 = (walkNode visit' repeats node s').1 ∧
          R (walkNode visit repeats node s).2 (walkNode visit' repeats node s').2
  | .text _, _, hend | .comment _, _, hend | .declaration _, _, hend | .instruction _, _, hend =>
    ⟨hend, fun _ h => ⟨rfl, h⟩⟩
  | .element tag children, s, hend => by
    simp only [walkNode_element] at hend ⊢
    cases htag : tag.isHost with
    | true =>
      simp only [htag, if_true] at hend ⊢
      obtain ⟨hstart, hagree⟩ := visitNodes_simulates hsim repeats false children s hend
      refine ⟨hstart, fun s' h => ?_⟩
      obtain ⟨hchildren, hafter⟩ := hagree s' h
      exact ⟨by rw [hchildren], hafter⟩
    | false =>
      simp only [htag, Bool.false_eq_true, if_false] at hend ⊢
      obtain ⟨hstart, hagree⟩ := walkNodes_simulates hsim (repeats ++ tag.repeatNames) children s hend
      refine ⟨hstart, fun s' h => ?_⟩
      obtain ⟨hchildren, hafter⟩ := hagree s' h
      exact ⟨by rw [hchildren], hafter⟩

/-- Walks of visitors that answer alike make the same of nodes. -/
theorem walkNodes_simulates (hsim : Simulates P R visit visit') (repeats : List Text) :
    ∀ (nodes : List Node) (s : σ), P (walkNodes visit repeats nodes s).2 →
      P s ∧ ∀ s', R s s' →
        (walkNodes visit repeats nodes s).1 = (walkNodes visit' repeats nodes s').1 ∧
          R (walkNodes visit repeats nodes s).2 (walkNodes visit' repeats nodes s').2
  | [], _, hend => ⟨hend, fun _ h => ⟨rfl, h⟩⟩
  | node :: nodes, s, hend => by
    simp only [walkNodes] at hend ⊢
    obtain ⟨hmiddle, hrest⟩ := walkNodes_simulates hsim repeats nodes _ hend
    obtain ⟨hstart, hfirst⟩ := walkNode_simulates hsim repeats node s hmiddle
    refine ⟨hstart, fun s' h => ?_⟩
    obtain ⟨hnode, hstate⟩ := hfirst s' h
    obtain ⟨hnodes, hafter⟩ := hrest _ hstate
    exact ⟨by rw [hnode, hnodes], hafter⟩

end

/-- **Visitors that answer alike** make the same document. -/
theorem Document.walk_simulates (hsim : Simulates P R visit visit') (document : Document)
    {s : σ} (hend : P (document.walk visit s).2) {s' : τ} (h : R s s') :
    (document.walk visit s).1 = (document.walk visit' s').1 ∧
      R (document.walk visit s).2 (document.walk visit' s').2 := by
  obtain ⟨-, hagree⟩ := walkNodes_simulates hsim [] document.children s hend
  obtain ⟨hchildren, hstate⟩ := hagree s' h
  exact ⟨congrArg Document.mk hchildren, hstate⟩

end DataBinding.Markup
