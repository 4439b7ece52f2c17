/-
# What a walk visits, string by string

A walk over host templates visits each string that may hold a binding once, in document order, and
writes the answers back where the strings stood.  Nodes are listed with the elements around them, so
that what is visited can be said of each node by itself.

* `Document.placed`      : all nodes in document order, each with its address and what is around it.
* `Document.hosted`      : the nodes below the host templates that lie in no other one.
* `Document.walk_visits` : the calls that any visitor gets, and the document that its answers make.
* `Document.sites_eq`    : the places of a document are those of its nodes below host templates.
-/
import DataBinding.Proofs.Template.Sites
import Mathlib.Data.List.Nodup

namespace DataBinding

/-- What a visitor is asked about: a string, and the name of the attribute whose value it is. -/
def Site.string (site : Site) : Text × Option Text :=
  (site.text, site.attributeName)

namespace Markup

/-! ## Nodes with what is around them -/

/-- A node of a document with its address and the tags of the elements around it, from the outermost
to the nearest. -/
structure Placed where
  address : Address
  above : List Tag
  node : Node

mutual

/-- A node and the nodes below it in document order, with the given elements around it. -/
def placedNode (above : List Tag) (address : Address) : Node → List Placed
  | .element tag children =>
    ⟨address, above, .element tag children⟩ :: placedNodes (above ++ [tag]) address 0 children
  | node => [⟨address, above, node⟩]

/-- Nodes at the given place and the following ones, with all nodes below them. -/
def placedNodes (above : List Tag) (parent : Address) (place : Nat) : List Node → List Placed
  | [] => []
  | node :: nodes =>
    placedNode above (parent ++ [place]) node ++ placedNodes above parent (place + 1) nodes

end

/-- All nodes of a document in document order. -/
def Document.placed (document : Document) : List Placed :=
  placedNodes [] [] 0 document.children

namespace Placed

/-- The node is a host template. -/
def isHost (p : Placed) : Bool :=
  p.node.tag?.any Tag.isHost

/-- A host template is around the node. -/
def isHosted (p : Placed) : Bool :=
  p.above.any Tag.isHost

/-- The nearest element around the node holds raw text. -/
def isRaw (p : Placed) : Bool :=
  p.above.getLast?.any fun tag => isRawText tag.name

/-- The names that repeat templates give at the node, which counts itself. -/
def repeats (p : Placed) : List Text :=
  p.above.flatMap Tag.repeatNames ++ p.node.repeatNames

/-- The places in the node itself: a text that is neither blank nor raw, or the values of an element
that is no repeat template, as far as they are not empty. -/
def sites (p : Placed) : List Site :=
  match p.node with
  | .text data => if p.isRaw || data.allBlank then [] else [⟨data, true, none, p.repeats⟩]
  | .element tag _ =>
    if tag.isRepeat then [] else tag.attributes.filterMap (attributeSite? p.repeats)
  | _ => []

/-- The strings at the places of the node. -/
def strings (p : Placed) : List (Text × Option Text) :=
  p.sites.map Site.string

/-- The nodes inside the node, in document order. -/
def descendants (p : Placed) : List Placed :=
  match p.node with
  | .element tag children => placedNodes (p.above ++ [tag]) p.address 0 children
  | _ => []

end Placed

/-- The nodes inside the host templates that lie in no other host template. -/
def Document.hosted (document : Document) : List Placed :=
  (document.placed.filter fun p => p.isHost && !p.isHosted).flatMap Placed.descendants

/-! ## Host templates and what is below them -/

theorem any_isHost_of_isHost (above : List Tag) {tag : Tag} (h : tag.isHost = true) :
    (above ++ [tag]).any Tag.isHost = true := by
  rw [List.any_append, List.any_cons, h, Bool.true_or, Bool.or_true]

theorem any_isHost_eq_false {above : List Tag} (habove : above.any Tag.isHost = false) {tag : Tag}
    (h : tag.isHost = false) : (above ++ [tag]).any Tag.isHost = false := by
  rw [List.any_append, habove, List.any_cons, h]
  rfl

mutual

/-- All nodes in a node with a host template around it are below that. -/
theorem isHosted_of_mem_placedNode {above : List Tag} (habove : above.any Tag.isHost = true)
    (address : Address) :
    ∀ (node : Node), ∀ p ∈ placedNode above address node, p.isHosted = true
  | .element tag children, p, hp => by
    rw [placedNode, List.mem_cons] at hp
    rcases hp with rfl | hp
    · exact habove
    · refine isHosted_of_mem_placedNodes ?_ address 0 children p hp
      rw [List.any_append, habove, Bool.true_or]
  | .text _, p, hp | .comment _, p, hp | .declaration _, p, hp | .instruction _, p, hp => by
    rw [placedNode, List.mem_singleton] at hp
    · rw [hp]
      exact habove
    · intro _ _ h
      cases h

/-- All nodes in nodes with a host template around them are below that. -/
theorem isHosted_of_mem_placedNodes {above : List Tag} (habove : above.any Tag.isHost = true)
    (parent : Address) (place : Nat) :
    ∀ (nodes : List Node), ∀ p ∈ placedNodes above parent place nodes, p.isHosted = true
  | [], p, hp => by cases hp
  | node :: nodes, p, hp => by
    rw [placedNodes, List.mem_append] at hp
    rcases hp with hp | hp
    · exact isHosted_of_mem_placedNode habove _ node p hp
    · exact isHosted_of_mem_placedNodes habove parent (place + 1) nodes p hp

end

/-- The host templates among placed nodes that lie in no other one. -/
def outermost (places : List Placed) : List Placed :=
  places.filter fun p => p.isHost && !p.isHosted

theorem outermost_append (places more : List Placed) :
    outermost (places ++ more) = outermost places ++ outermost more :=
  List.filter_append ..

/-- Below a host template there is none that lies in no other one. -/
theorem outermost_eq_nil {places : List Placed} (h : ∀ p ∈ places, p.isHosted = true) :
    outermost places = [] := by
  apply List.filter_eq_nil_iff.mpr
  intro p hp
  rw [h p hp, Bool.not_true, Bool.and_false]
  exact Bool.false_ne_true

mutual

/-- The nodes below host templates in a node are those inside its outermost ones, which are the hosts
of the node. -/
theorem hosted_placedNode {above : List Tag} (habove : above.any Tag.isHost = false)
    (address : Address) :
    ∀ (node : Node),
      (placedNode above address node).filter Placed.isHosted
          = (outermost (placedNode above address node)).flatMap Placed.descendants ∧
        Document.hostsInNode address node
          = (outermost (placedNode above address node)).map Placed.address
  | .element tag children => by
    have hself : Placed.isHosted ⟨address, above, .element tag children⟩ = false := habove
    cases hhost : tag.isHost with
    | true =>
      have hinside := isHosted_of_mem_placedNodes (any_isHost_of_isHost above hhost) address 0 children
      have houter : outermost (placedNode above address (.element tag children))
          = [⟨address, above, .element tag children⟩] := by
        rw [placedNode, outermost, List.filter_cons_of_pos, ← outermost, outermost_eq_nil hinside]
        simp [hself, Placed.isHost, Node.tag?, hhost]
      constructor
      · rw [houter, placedNode, List.filter_cons_of_neg (by rw [hself]; exact Bool.false_ne_true),
          List.filter_eq_self.mpr hinside]
        simp [Placed.descendants]
      · rw [houter, Document.hostsInNode, if_pos hhost]
        rfl
    | false =>
      have houter : outermost (placedNode above address (.element tag children))
          = outermost (placedNodes (above ++ [tag]) address 0 children) := by
        rw [placedNode, outermost, List.filter_cons_of_neg]
        · rfl
        · simp [Placed.isHost, Node.tag?, hhost]
      have hbelow := any_isHost_eq_false habove hhost
      obtain ⟨hnodes, haddresses⟩ := hosted_placedNodes hbelow address 0 children
      constructor
      · rw [houter, ← hnodes, placedNode,
          List.filter_cons_of_neg (by rw [hself]; exact Bool.false_ne_true)]
      · rw [houter, ← haddresses, Document.hostsInNode, hhost, if_neg Bool.false_ne_true]
  | .text _ | .comment _ | .declaration _ | .instruction _ => by
    constructor <;>
      simp [placedNode, outermost, Placed.isHosted, Placed.isHost, habove, Node.tag?,
        Document.hostsInNode]

/-- The nodes below host templates in nodes are those inside their outermost ones, which are the
hosts of the nodes. -/
theorem hosted_placedNodes {above : List Tag} (habove : above.any Tag.isHost = false)
    (parent : Address) (place : Nat) :
    ∀ (nodes : List Node),
      (placedNodes above parent place nodes).filter Placed.isHosted
          = (outermost (placedNodes above parent place nodes)).flatMap Placed.descendants ∧
        Document.hostsInNodes parent place nodes
          = (outermost (placedNodes above parent place nodes)).map Placed.address
  | [] => ⟨rfl, rfl⟩
  | node :: nodes => by
    obtain ⟨hnode, hhosts⟩ := hosted_placedNode habove (parent ++ [place]) node
    obtain ⟨hnodes, hmore⟩ := hosted_placedNodes habove parent (place + 1) nodes
    rw [placedNodes, outermost_append]
    constructor
    · rw [List.filter_append, hnode, hnodes, List.flatMap_append]
    · rw [Document.hostsInNodes, hhosts, hmore, List.map_append]

end

/-- The nodes inside outermost host templates are the ones with a host template around them. -/
theorem Document.hosted_eq (document : Document) :
    document.hosted = document.placed.filter Placed.isHosted :=
  (hosted_placedNodes rfl [] 0 document.children).1.symm

/-- The hosts of a document are its host templates that lie in no other one. -/
theorem Document.hosts_eq (document : Document) :
    document.hosts
      = (document.placed.filter fun p => p.isHost && !p.isHosted).map Placed.address :=
  (hosted_placedNodes rfl [] 0 document.children).2

/-! ## Places of hosted nodes -/

/-- The host templates give no names to their contents. -/
theorem repeatNames_of_isHost {tag : Tag} (h : tag.isHost = true) : tag.repeatNames = [] := by
  have hrepeat : tag.isRepeat = false := by
    unfold Tag.isHost at h
    rw [Bool.and_eq_true] at h
    rw [Tag.isRepeat, h.1, Bool.true_and]
    cases hmarker : tag.get? Tag.markerName with
    | none => rfl
    | some marker =>
      have hkind : marker.isEmpty || marker == "dom-bind".toList := by simpa [hmarker] using h.2
      rw [Bool.or_eq_true] at hkind
      rcases hkind with hkind | hkind
      · rw [List.isEmpty_iff.mp hkind]
        rfl
      · rw [eq_of_beq hkind]
        decide
  rw [Tag.repeatNames, hrepeat, if_neg Bool.false_ne_true]

mutual

/-- The places in a node below a host template are those of the nodes in it. -/
theorem sites_placedNode (above : List Tag) (address : Address) :
    ∀ (node : Node),
      (placedNode above address node).flatMap Placed.sites
        = node.sites (above.flatMap Tag.repeatNames)
            (above.getLast?.any fun tag => isRawText tag.name)
  | .element tag children => by
    have hinside := sites_placedNodes (above ++ [tag]) address 0 children
    rw [List.flatMap_append, List.getLast?_concat] at hinside
    rw [placedNode, List.flatMap_cons, hinside, Node.sites]
    simp [Placed.sites, Placed.repeats, Tag.sites, Node.repeatNames, Node.tag?]
  | .text data => by
    simp [placedNode, Placed.sites, Placed.isRaw, Placed.repeats, Node.sites, Node.repeatNames,
      Node.tag?]
  | .comment _ | .declaration _ | .instruction _ => rfl

/-- The places in nodes below a host template are those of the nodes in them. -/
theorem sites_placedNodes (above : List Tag) (parent : Address) (place : Nat) :
    ∀ (nodes : List Node),
      (placedNodes above parent place nodes).flatMap Placed.sites
        = Node.sitesIn (above.flatMap Tag.repeatNames)
            (above.getLast?.any fun tag => isRawText tag.name) nodes
  | [] => rfl
  | node :: nodes => by
    rw [placedNodes, List.flatMap_append, sites_placedNode above _ node,
      sites_placedNodes above parent (place + 1) nodes, Node.sitesIn]

end

mutual

/-- The places below the host templates in a node are those of its hosted nodes. -/
theorem hostedSites_placedNode {above : List Tag} (habove : above.any Tag.isHost = false)
    (address : Address) :
    ∀ (node : Node),
      ((placedNode above address node).filter Placed.isHosted).flatMap Placed.sites
        = node.hostedSites (above.flatMap Tag.repeatNames)
  | .element tag children => by
    have hself : ¬ Placed.isHosted ⟨address, above, .element tag children⟩ = true := by
      rw [Placed.isHosted, habove]
      exact Bool.false_ne_true
    rw [placedNode, List.filter_cons_of_neg hself, Node.hostedSites]
    cases hhost : tag.isHost with
    | true =>
      have hinside := isHosted_of_mem_placedNodes (any_isHost_of_isHost above hhost) address 0 children
      have hsites := sites_placedNodes (above ++ [tag]) address 0 children
      rw [List.flatMap_append, List.getLast?_concat, Option.any_some, isRawText_of_isHost hhost,
        List.flatMap_singleton, repeatNames_of_isHost hhost, List.append_nil] at hsites
      rw [List.filter_eq_self.mpr hinside, hsites, if_pos rfl]
    | false =>
      have hbelow := any_isHost_eq_false habove hhost
      have hsites := hostedSites_placedNodes hbelow address 0 children
      rw [List.flatMap_append, List.flatMap_singleton] at hsites
      rw [hsites, if_neg Bool.false_ne_true]
  | .text _ | .comment _ | .declaration _ | .instruction _ => by
    simp [placedNode, Placed.isHosted, habove, Node.hostedSites]

/-- The places below the host templates in nodes are those of their hosted nodes. -/
theorem hostedSites_placedNodes {above : List Tag} (habove : above.any Tag.isHost = false)
    (parent : Address) (place : Nat) :
    ∀ (nodes : List Node),
      ((placedNodes above parent place nodes).filter Placed.isHosted).flatMap Placed.sites
        = Node.hostedSitesIn (above.flatMap Tag.repeatNames) nodes
  | [] => rfl
  | node :: nodes => by
    rw [placedNodes, List.filter_append, List.flatMap_append, hostedSites_placedNode habove _ node,
      hostedSites_placedNodes habove parent (place + 1) nodes, Node.hostedSitesIn]

end

/-- The places of a document are those of its nodes below host templates. -/
theorem Document.sites_eq (document : Document) :
    document.sites = document.hosted.flatMap Placed.sites := by
  have hnone : ([] : List Tag).any Tag.isHost = false := rfl
  rw [hosted_eq]
  exact (hostedSites_placedNodes hnone [] 0 document.children).symm

/-! ## Calls -/

variable {σ : Type}

/-- What a visitor was asked and what it answered. -/
abbrev Call :=
  Site × Option Text

/-- A visitor is called one time after the other, from one state to another. -/
inductive Made (visit : Visitor σ) : σ → List Call → σ → Prop
  | nil {s : σ} : Made visit s [] s
  | cons {s m s' : σ} {site : Site} {answer : Option Text} {calls : List Call}
      (first : visit site s = (answer, m)) (rest : Made visit m calls s') :
      Made visit s ((site, answer) :: calls) s'

theorem Made.append {visit : Visitor σ} {s m s' : σ} {calls more : List Call}
    (h : Made visit s calls m) (h' : Made visit m more s') : Made visit s (calls ++ more) s' := by
  induction h with
  | nil => exact h'
  | cons first _ ih => exact .cons first (ih h')

/-- One call alone. -/
theorem Made.single (visit : Visitor σ) (site : Site) (s : σ) :
    Made visit s [(site, (visit site s).1)] (visit site s).2 :=
  .cons rfl .nil

/-- A tag with one answer for the value of an attribute. -/
def Tag.take (tag : Tag) (call : Call) : Tag :=
  match call.1.attributeName with
  | some name => tag.answered name call.1.text call.2
  | none => tag

/-- A node with one answer for its text or for the value of one of its attributes. -/
def Node.take (node : Node) (call : Call) : Node :=
  match node with
  | .text data => if call.1.attributeName = none then .text (call.2.getD data) else node
  | .element tag children => .element (tag.take call) children
  | _ => node

/-- The node without the nodes inside it. -/
def Node.alone : Node → Node
  | .element tag _ => .element tag []
  | node => node

/-- Answers for an element are answers for its tag. -/
theorem foldl_take_element (calls : List Call) (tag : Tag) (children : List Node) :
    calls.foldl Node.take (.element tag children) = .element (calls.foldl Tag.take tag) children := by
  induction calls generalizing tag with
  | nil => rfl
  | cons call calls ih => exact ih (tag.take call)

/-- The strings of an element do not depend on the names that hold there. -/
theorem Placed.strings_element (address : Address) (above : List Tag) (tag : Tag)
    (children : List Node) (repeats : List Text) :
    Placed.strings ⟨address, above, .element tag children⟩
      = (tag.sites repeats).map Site.string := by
  simp only [Placed.strings, Placed.sites, Tag.sites]
  split
  · rfl
  · rw [List.map_filterMap, List.map_filterMap]
    congr 1
    funext ⟨name, value⟩
    cases value with
    | none => rfl
    | some value => cases value <;> rfl

/-- Visiting the attributes of a tag calls the visitor once for each value that is not empty, and
the tag takes the answers. -/
theorem visitTag_made (visit : Visitor σ) (repeats : List Text) (tag : Tag) (s : σ) :
    ∃ calls, calls.map (·.1.string) = (tag.sites repeats).map Site.string ∧
      Made visit s calls (visitTag visit repeats tag s).2 ∧
      (visitTag visit repeats tag s).1 = calls.foldl Tag.take tag := by
  suffices hfold : ∀ (names : List Text) (entries : List (Text × Option Text)) (reached : Tag × σ),
      ∃ calls, calls.map (·.1.string)
          = (entries.filterMap (attributeSite? names)).map Site.string ∧
        Made visit reached.2 calls (entries.foldl (visitAttribute visit repeats) reached).2 ∧
        (entries.foldl (visitAttribute visit repeats) reached).1
          = calls.foldl Tag.take reached.1 by
    unfold visitTag Tag.sites
    split
    · exact ⟨[], rfl, .nil, rfl⟩
    · exact hfold _ tag.attributes (tag, s)
  intro names entries
  induction entries with
  | nil => exact fun reached => ⟨[], rfl, .nil, rfl⟩
  | cons entry entries ih =>
    intro reached
    obtain ⟨calls, hstrings, hmade, htag⟩ := ih (visitAttribute visit repeats reached entry)
    obtain ⟨tag, s⟩ := reached
    obtain ⟨name, value⟩ := entry
    match value with
    | none => exact ⟨calls, hstrings, hmade, htag⟩
    | some [] => exact ⟨calls, hstrings, hmade, htag⟩
    | some (c :: t) =>
      refine ⟨(⟨c :: t, false, some name, repeats ++ tag.repeatNames⟩, _) :: calls, ?_,
        .cons rfl hmade, htag⟩
      rw [List.map_cons, hstrings]
      rfl

/-! ## Walks -/

/-- A node of a document with the calls for the strings in it. -/
structure Visit where
  place : Placed
  calls : List Call

namespace Visit

/-- The strings that the visitor was asked about are those of the node if a host template is around
it, and none otherwise. -/
def Proper (v : Visit) : Prop :=
  v.calls.map (·.1.string) = if v.place.isHosted then v.place.strings else []

/-- What becomes of the node, with its address. -/
def outcome (v : Visit) : Address × Node :=
  (v.place.address, v.calls.foldl Node.take v.place.node.alone)

end Visit

/-- Placed nodes are visited one after the other from one state to another, and become the given
nodes. -/
structure Visited (visit : Visitor σ) (places : List Placed) (after : List (Address × Node))
    (s s' : σ) (visits : List Visit) : Prop where
  places : visits.map Visit.place = places
  proper : ∀ v ∈ visits, v.Proper
  made : Made visit s (visits.flatMap Visit.calls) s'
  after : after.map (fun entry => (entry.1, entry.2.alone)) = visits.map Visit.outcome

namespace Visited

variable {visit : Visitor σ} {places more : List Placed} {after behind : List (Address × Node)}
  {s m s' : σ} {visits others : List Visit}

theorem nil : Visited visit [] [] s s [] where
  places := rfl
  proper _ hv := by cases hv
  made := .nil
  after := rfl

theorem append (h : Visited visit places after s m visits)
    (h' : Visited visit more behind m s' others) :
    Visited visit (places ++ more) (after ++ behind) s s' (visits ++ others) where
  places := by rw [List.map_append, h.places, h'.places]
  proper v hv := (List.mem_append.mp hv).elim (h.proper v) (h'.proper v)
  made := by
    rw [List.flatMap_append]
    exact h.made.append h'.made
  after := by rw [List.map_append, h.after, h'.after, List.map_append]

/-- One node with the calls for it. -/
theorem single {place : Placed} {node : Node} {calls : List Call}
    (proper : Visit.Proper ⟨place, calls⟩) (made : Made visit s calls s')
    (after : node.alone = calls.foldl Node.take place.node.alone) :
    Visited visit [place] [(place.address, node)] s s' [⟨place, calls⟩] where
  places := rfl
  proper v hv := by
    rw [List.mem_singleton.mp hv]
    exact proper
  made := by rwa [List.flatMap_singleton]
  after := by
    rw [List.map_singleton, after]
    rfl

end Visited

mutual

/-- Visiting a node below a host template visits the nodes in it. -/
theorem visitNode_visited (visit : Visitor σ) {above : List Tag}
    (habove : above.any Tag.isHost = true) (repeats : List Text) (address : Address) {raw : Bool}
    (hraw : raw = above.getLast?.any fun tag => isRawText tag.name) :
    ∀ (node : Node) (s : σ), ∃ visits,
      Visited visit (placedNode above address node)
        (Document.listNode address (visitNode visit repeats raw node s).1) s
        (visitNode visit repeats raw node s).2 visits
  | .text data, s => by
    have hhosted : Placed.isHosted ⟨address, above, .text data⟩ = true := habove
    have hstrings : Placed.strings ⟨address, above, .text data⟩
        = if raw || data.allBlank then [] else [(data, none)] := by
      simp only [hraw, Placed.strings, Placed.sites, Placed.isRaw]
      split <;> simp_all [Site.string]
    cases hskip : raw || data.allBlank with
    | true =>
      rw [hskip, if_pos rfl] at hstrings
      have hsame : visitNode visit repeats raw (.text data) s = (.text data, s) := by
        rw [visitNode, visitText]
        rw [Bool.or_eq_true] at hskip
        rcases hskip with hskip | hskip
        · rw [hskip, if_pos rfl]
        · simp [hskip]
      rw [hsame]
      refine ⟨[⟨⟨address, above, .text data⟩, []⟩], Visited.single ?_ .nil rfl⟩
      rw [Visit.Proper, hhosted, if_pos rfl, hstrings]
      rfl
    | false =>
      rw [hskip, if_neg Bool.false_ne_true] at hstrings
      rw [Bool.or_eq_false_iff] at hskip
      have hvisit : visitNode visit repeats raw (.text data) s
          = (.text ((visit ⟨data, true, none, repeats⟩ s).1.getD data),
              (visit ⟨data, true, none, repeats⟩ s).2) := by
        simp [visitNode, visitText, hskip.1, hskip.2]
      rw [hvisit]
      refine ⟨_, Visited.single ?_ (.single visit ⟨data, true, none, repeats⟩ s) rfl⟩
      rw [Visit.Proper, hhosted, if_pos rfl, hstrings]
      rfl
  | .element tag children, s => by
    have hhosted : Placed.isHosted ⟨address, above, .element tag children⟩ = true := habove
    obtain ⟨calls, hstrings, hmade, htag⟩ := visitTag_made visit repeats tag s
    have hbelow : (above ++ [tag]).any Tag.isHost = true := by
      rw [List.any_append, habove, Bool.true_or]
    have hinner : isRawText (visitTag visit repeats tag s).1.name
        = (above ++ [tag]).getLast?.any fun tag => isRawText tag.name := by
      rw [visitTag_name, List.getLast?_concat, Option.any_some]
    obtain ⟨visits, hvisits⟩ := visitNodes_visited visit hbelow
      (repeats ++ (visitTag visit repeats tag s).1.repeatNames) address 0 hinner children
      (visitTag visit repeats tag s).2
    refine ⟨⟨⟨address, above, .element tag children⟩, calls⟩ :: visits, ?_⟩
    rw [placedNode, visitNode, Document.listNode]
    refine Visited.append (Visited.single ?_ hmade ?_) hvisits
    · rw [Visit.Proper, hhosted, if_pos rfl, hstrings, ← Placed.strings_element]
    · rw [htag]
      exact (foldl_take_element calls tag []).symm
  | .comment _, s | .declaration _, s | .instruction _, s => by
    refine ⟨[⟨⟨address, above, _⟩, []⟩], Visited.single ?_ .nil rfl⟩
    rw [Visit.Proper]
    split <;> rfl

/-- Visiting nodes below a host template visits the nodes in them. -/
theorem visitNodes_visited (visit : Visitor σ) {above : List Tag}
    (habove : above.any Tag.isHost = true) (repeats : List Text) (parent : Address) (place : Nat)
    {raw : Bool} (hraw : raw = above.getLast?.any fun tag => isRawText tag.name) :
    ∀ (nodes : List Node) (s : σ), ∃ visits,
      Visited visit (placedNodes above parent place nodes)
        (Document.listNodes parent place (visitNodes visit repeats raw nodes s).1) s
        (visitNodes visit repeats raw nodes s).2 visits
  | [], _ => ⟨[], .nil⟩
  | node :: nodes, s => by
    obtain ⟨visits, hnode⟩ :=
      visitNode_visited visit habove repeats (parent ++ [place]) hraw node s
    obtain ⟨others, hnodes⟩ := visitNodes_visited visit habove repeats parent (place + 1) hraw nodes
      (visitNode visit repeats raw node s).2
    refine ⟨visits ++ others, ?_⟩
    rw [placedNodes, visitNodes, Document.listNodes]
    exact hnode.append hnodes

end

mutual

/-- A walk over a node visits the nodes in it that are below host templates. -/
theorem walkNode_visited (visit : Visitor σ) {above : List Tag}
    (habove : above.any Tag.isHost = false) (repeats : List Text) (address : Address) :
    ∀ (node : Node) (s : σ), ∃ visits,
      Visited visit (placedNode above address node)
        (Document.listNode address (walkNode visit repeats node s).1) s
        (walkNode visit repeats node s).2 visits
  | .element tag children, s => by
    have hself : Visit.Proper ⟨⟨address, above, .element tag children⟩, []⟩ := by
      have hhosted : Placed.isHosted ⟨address, above, .element tag children⟩ = false := habove
      rw [Visit.Proper, hhosted, if_neg Bool.false_ne_true]
      rfl
    rw [placedNode, walkNode_element, Document.listNode]
    -- below a host template the walk visits, and above one it only looks further
    cases hhost : tag.isHost with
    | true =>
      have hbelow := any_isHost_of_isHost above hhost
      have hraw : false = (above ++ [tag]).getLast?.any fun tag => isRawText tag.name := by
        rw [List.getLast?_concat, Option.any_some, isRawText_of_isHost hhost]
      obtain ⟨visits, hvisits⟩ := visitNodes_visited visit hbelow repeats address 0 hraw children s
      rw [if_pos rfl]
      refine ⟨⟨⟨address, above, .element tag children⟩, []⟩ :: visits, ?_⟩
      refine Visited.append (Visited.single hself .nil ?_) hvisits
      rfl
    | false =>
      have hbelow := any_isHost_eq_false habove hhost
      obtain ⟨visits, hvisits⟩ :=
        walkNodes_visited visit hbelow (repeats ++ tag.repeatNames) address 0 children s
      rw [if_neg Bool.false_ne_true]
      refine ⟨⟨⟨address, above, .element tag children⟩, []⟩ :: visits, ?_⟩
      refine Visited.append (Visited.single hself .nil ?_) hvisits
      rfl
  | .text _, s | .comment _, s | .declaration _, s | .instruction _, s => by
    refine ⟨[⟨⟨address, above, _⟩, []⟩], Visited.single ?_ .nil rfl⟩
    have hhosted : ∀ node, Placed.isHosted ⟨address, above, node⟩ = false := fun _ => habove
    rw [Visit.Proper, hhosted, if_neg Bool.false_ne_true]
    rfl

/-- A walk over nodes visits the nodes in them that are below host templates. -/
theorem walkNodes_visited (visit : Visitor σ) {above : List Tag}
    (habove : above.any Tag.isHost = false) (repeats : List Text) (parent : Address)
    (place : Nat) :
    ∀ (nodes : List Node) (s : σ), ∃ visits,
      Visited visit (placedNodes above parent place nodes)
        (Document.listNodes parent place (walkNodes visit repeats nodes s).1) s
        (walkNodes visit repeats nodes s).2 visits
  | [], _ => ⟨[], .nil⟩
  | node :: nodes, s => by
    obtain ⟨visits, hnode⟩ := walkNode_visited visit habove repeats (parent ++ [place]) node s
    obtain ⟨others, hnodes⟩ := walkNodes_visited visit habove repeats parent (place + 1) nodes
      (walkNode visit repeats node s).2
    refine ⟨visits ++ others, ?_⟩
    rw [placedNodes, walkNodes, Document.listNodes]
    exact hnode.append hnodes

end

/-! ## Strings behind a walk -/

/-- The text of a text node, or the value of an attribute of an element. -/
def Node.string? : Node → Option Text → Option Text
  | .text data, none => some data
  | .element tag _, some name => tag.get? name
  | _, _ => none

/-- An element has one value for each name. -/
def Node.Keyed (node : Node) : Prop :=
  ∀ tag ∈ node.tag?, (tag.attributes.map Prod.fst).Nodup

/-- An answer leaves the values of other attributes. -/
theorem Tag.get?_take_of_ne {call : Call} {name : Text} (h : call.1.attributeName ≠ some name)
    (tag : Tag) : (tag.take call).get? name = tag.get? name := by
  unfold Tag.take
  split
  · rename_i other hother
    have hne : other ≠ name := fun e => h (by rw [hother, e])
    unfold Tag.answered
    split
    · rfl
    · split
      · rfl
      · simp only [Tag.get?, Tag.set, lookUp_assign]
        rw [if_neg hne]
  · rfl

/-- An attribute holds the answer for it, or its old value if there was none. -/
theorem Tag.get?_take {call : Call} {name : Text} (h : call.1.attributeName = some name) {tag : Tag}
    (hvalue : tag.get? name = some call.1.text) :
    (tag.take call).get? name = some (call.2.getD call.1.text) := by
  simp only [Tag.take, h, Tag.answered]
  split
  · rename_i hnone
    rw [hvalue, hnone]
    rfl
  · rename_i answer hsome
    rw [hsome]
    split
    · rename_i hsame
      rw [hvalue, ← eq_of_beq hsame]
      rfl
    · simp [Tag.get?, Tag.set, lookUp_assign]

/-- Of answers for attributes with different names each one stays. -/
theorem Tag.get?_foldl_take {calls : List Call} (hnodup : (calls.map (·.1.attributeName)).Nodup)
    {tag : Tag} (hvalues : ∀ call ∈ calls, ∀ name ∈ call.1.attributeName,
      tag.get? name = some call.1.text) :
    ∀ call ∈ calls, ∀ name ∈ call.1.attributeName,
      (calls.foldl Tag.take tag).get? name = some (call.2.getD call.1.text) := by
  induction calls generalizing tag with
  | nil => exact fun call hcall => by cases hcall
  | cons first calls ih =>
    rw [List.map_cons, List.nodup_cons] at hnodup
    -- behind the first answer the other attributes have the values they had
    have hrest : ∀ call ∈ calls, ∀ name ∈ call.1.attributeName,
        (tag.take first).get? name = some call.1.text := by
      intro call hcall name hname
      have hne : first.1.attributeName ≠ some name := by
        rintro heq
        exact hnodup.1 (List.mem_map.mpr ⟨call, hcall, by rw [heq, Option.mem_def.mp hname]⟩)
      rw [Tag.get?_take_of_ne hne]
      exact hvalues call (List.mem_cons_of_mem _ hcall) name hname
    intro call hcall name hname
    rcases List.mem_cons.mp hcall with rfl | hcall
    · -- no later answer is for the first attribute
      have hkeep : ∀ (others : List Call) (t : Tag),
          (∀ other ∈ others, other.1.attributeName ≠ some name) →
          (others.foldl Tag.take t).get? name = t.get? name := by
        intro others
        induction others with
        | nil => exact fun _ _ => rfl
        | cons other others ihothers =>
          intro t hothers
          rw [List.forall_mem_cons] at hothers
          exact (ihothers _ hothers.2).trans (Tag.get?_take_of_ne hothers.1 t)
      rw [List.foldl_cons, hkeep]
      · exact Tag.get?_take hname (hvalues call List.mem_cons_self name hname)
      · intro other hother heq
        exact hnodup.1 (List.mem_map.mpr ⟨other, hother, by rw [heq, Option.mem_def.mp hname]⟩)
    · exact ih hnodup.2 hrest call hcall name hname

/-- The values that are asked about belong to attributes of the tag, in their order. -/
theorem Tag.sublist_sites (repeats : List Text) (tag : Tag) :
    List.Sublist (((tag.sites repeats).map Site.string).map Prod.snd)
      ((tag.attributes.map Prod.fst).map some) := by
  have hlist : ∀ (names : List Text) (attributes : List (Text × Option Text)),
      List.Sublist (((attributes.filterMap (attributeSite? names)).map Site.string).map Prod.snd)
        ((attributes.map Prod.fst).map some) := by
    intro names attributes
    induction attributes with
    | nil => exact .slnil
    | cons entry attributes ih =>
      obtain ⟨name, value⟩ := entry
      match value with
      | none => exact ih.cons _
      | some [] => exact ih.cons _
      | some (c :: t) => exact ih.cons_cons _
  unfold Tag.sites
  split
  · exact List.nil_sublist _
  · exact hlist _ _

/-- A value that is asked about is that of its attribute, if each name has one value. -/
theorem Tag.get?_of_mem_sites {repeats : List Text} {tag : Tag}
    (h : (tag.attributes.map Prod.fst).Nodup) {site : Site} (hsite : site ∈ tag.sites repeats) :
    ∃ name, site.attributeName = some name ∧ tag.get? name = some site.text := by
  unfold Tag.sites at hsite
  split at hsite
  · cases hsite
  · obtain ⟨⟨name, value⟩, hattribute, hfound⟩ := List.mem_filterMap.mp hsite
    match value with
    | none => cases hfound
    | some [] => cases hfound
    | some (c :: t) =>
      obtain rfl := Option.some.inj hfound
      refine ⟨name, rfl, ?_⟩
      rw [Tag.get?, lookUp_of_mem h hattribute]
      rfl

/-- Behind a visit each string that was asked about is the answer, or as it was without one. -/
theorem Visit.Proper.string? {v : Visit} (h : v.Proper) (hkeyed : v.place.node.Keyed) :
    ∀ call ∈ v.calls,
      v.outcome.2.string? call.1.attributeName = some (call.2.getD call.1.text) := by
  intro call hcall
  have hstring : call.1.string ∈ v.calls.map (·.1.string) := List.mem_map_of_mem hcall
  rw [h] at hstring
  split at hstring
  swap
  · cases hstring
  rename_i hhosted
  rw [Visit.Proper, if_pos hhosted] at h
  obtain ⟨⟨address, above, node⟩, calls⟩ := v
  cases node with
  | text data =>
    have hcalls : calls.map (·.1.string) = [(data, none)] := by
      simp only [Placed.strings, Placed.sites] at h hstring
      split at h
      · rename_i hskip
        rw [if_pos hskip] at hstring
        cases hstring
      · exact h
    obtain ⟨only, rfl, honly⟩ := List.map_eq_singleton_iff.mp hcalls
    obtain rfl := List.mem_singleton.mp hcall
    obtain ⟨htext, hnone⟩ := Prod.mk.inj honly
    simp [Visit.outcome, Node.alone, Node.take, hnone, Node.string?, htext]
  | element tag children =>
    have hnames := hkeyed tag rfl
    rw [Placed.strings_element address above tag children []] at h
    -- each attribute is asked about once, so that no later answer replaces an earlier one
    have hnodup : (calls.map (·.1.attributeName)).Nodup := by
      have hmap : calls.map (·.1.attributeName) = (calls.map (·.1.string)).map Prod.snd := by
        rw [List.map_map]
        rfl
      rw [hmap, h]
      exact (tag.sublist_sites []).nodup (hnames.map fun _ _ => Option.some.inj)
    have hvalue : ∀ c ∈ calls, ∃ name, c.1.attributeName = some name ∧
        tag.get? name = some c.1.text := by
      intro c hc
      have hmem : c.1.string ∈ calls.map (·.1.string) := List.mem_map_of_mem hc
      rw [h] at hmem
      obtain ⟨site, hsite, heq⟩ := List.mem_map.mp hmem
      obtain ⟨htext, hattribute⟩ := Prod.mk.inj heq
      rw [← htext, ← hattribute]
      exact Tag.get?_of_mem_sites hnames hsite
    have hvalues : ∀ c ∈ calls, ∀ name ∈ c.1.attributeName, tag.get? name = some c.1.text := by
      intro c hc name hname
      obtain ⟨other, hother, hget⟩ := hvalue c hc
      rwa [← Option.some.inj (hname.symm.trans hother)] at hget
    obtain ⟨name, hname, -⟩ := hvalue call hcall
    rw [Visit.outcome, Node.alone, foldl_take_element, hname]
    exact Tag.get?_foldl_take hnodup hvalues call hcall name hname
  | comment _ | declaration _ | instruction _ => cases hstring

/-- The strings that were asked about are those of the nodes below host templates. -/
theorem Visited.strings {visit : Visitor σ} {places : List Placed} {after : List (Address × Node)}
    {s s' : σ} {visits : List Visit} (h : Visited visit places after s s' visits) :
    visits.flatMap (fun v => v.calls.map (·.1.string))
      = (places.filter Placed.isHosted).flatMap Placed.strings := by
  have hproper := h.proper
  rw [← h.places, List.filter_map, List.flatMap_map]
  clear h
  induction visits with
  | nil => rfl
  | cons v visits ih =>
    rw [List.forall_mem_cons] at hproper
    rw [List.flatMap_cons, ih hproper.2, hproper.1]
    cases hhosted : v.place.isHosted with
    | true => simp [hhosted]
    | false => simp [hhosted]

/-- A walk visits the nodes of a document that are below host templates. -/
theorem Document.walk_visited (document : Document) (visit : Visitor σ) (state : σ) :
    ∃ visits,
      Visited visit document.placed (document.walk visit state).1.nodes state
        (document.walk visit state).2 visits := by
  have hnone : ([] : List Tag).any Tag.isHost = false := rfl
  exact walkNodes_visited visit hnone [] [] 0 document.children state

/-- **A walk visits each string once, in document order.**  The strings are those of the nodes inside
the outermost host templates.  Behind the walk each node is the node before it with the answers for
its strings. -/
theorem Document.walk_visits (document : Document) (visit : Visitor σ) (state : σ) :
    ∃ visits,
      Visited visit document.placed (document.walk visit state).1.nodes state
        (document.walk visit state).2 visits ∧
      visits.flatMap (fun v => v.calls.map (·.1.string)) = document.hosted.flatMap Placed.strings ∧
      ∀ v ∈ visits, v.place.node.Keyed → ∀ call ∈ v.calls,
        v.outcome.2.string? call.1.attributeName = some (call.2.getD call.1.text) := by
  obtain ⟨visits, hvisited⟩ := document.walk_visited visit state
  refine ⟨visits, hvisited, ?_, fun v hv hkeyed => (hvisited.proper v hv).string? hkeyed⟩
  rw [hosted_eq]
  exact hvisited.strings

end Markup
end DataBinding
