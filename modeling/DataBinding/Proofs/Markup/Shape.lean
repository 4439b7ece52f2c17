/-
# The shape of documents

The ledger of a list of events and the tree that these events build hold the same nodes: the tree that
a ledger shows is read off from the document downwards.  Since every event changes both in the same
way, what holds of the one holds of the other, and a document has the shape of a well-formed ledger.

* `Ledger.Depicts`         : a ledger shows what a tree under construction holds;
* `Depicts.take`           : each event keeps this;
* `Document.shape_ofEvents` : the shape of the document that a list of events describes.
-/
import Mathlib.Data.List.Forall2
import DataBinding.Proofs.Markup.Ledger
import DataBinding.Proofs.Markup.Listing

namespace DataBinding.Markup

/-- What a node is by itself. -/
def Node.content : Node → Content
  | .text data => .text data
  | .comment data => .comment data
  | .declaration data => .declaration data
  | .instruction data => .instruction data
  | .element tag _ => .element tag

namespace Ledger

/-! ## The nodes that a ledger shows -/

/-- Under a number a ledger shows a node: the node by itself, and those inside it under the numbers
listed there. -/
inductive Shows (l : Ledger) : Nat → Node → Prop
  | entered {n : Nat} {node : Node} (content : l.content n = node.content)
      (children : List.Forall₂ (Shows l) (l.children n) node.children) : Shows l n node

variable {l l' : Ledger} {n : Nat} {node : Node}

theorem shows_iff :
    l.Shows n node
      ↔ l.content n = node.content ∧ List.Forall₂ l.Shows (l.children n) node.children := by
  constructor
  · rintro ⟨content, children⟩
    exact ⟨content, children⟩
  · rintro ⟨content, children⟩
    exact .entered content children

/-- A node without nodes inside is shown where nothing is listed. -/
theorem shows_iff_of_children (hchildren : node.children = []) :
    l.Shows n node ↔ l.content n = node.content ∧ l.children n = [] := by
  rw [shows_iff, hchildren, List.forall₂_nil_right_iff]

/-- Two ledgers agree on some numbers, which lead to no others. -/
structure Agree (l l' : Ledger) (kept : Nat → Prop) : Prop where
  content : ∀ {n}, kept n → l'.content n = l.content n
  children : ∀ {n}, kept n → l'.children n = l.children n
  closed : ∀ {n m}, kept n → m ∈ l.children n → kept m

variable {kept : Nat → Prop}

mutual

/-- A node is shown as before where nothing changes. -/
theorem Agree.shows (h : Agree l l' kept) :
    ∀ (node : Node) {n : Nat}, kept n → l.Shows n node → l'.Shows n node
  | .element tag nodes, n, hn, hshows => by
    obtain ⟨hcontent, hchildren⟩ := shows_iff.mp hshows
    refine .entered ((h.content hn).trans hcontent) ?_
    rw [h.children hn]
    exact h.forall₂_shows nodes (fun m hm => h.closed hn hm) hchildren
  | .text _, n, hn, hshows | .comment _, n, hn, hshows | .declaration _, n, hn, hshows
  | .instruction _, n, hn, hshows => by
    rw [shows_iff_of_children rfl] at hshows ⊢
    exact ⟨(h.content hn).trans hshows.1, (h.children hn).trans hshows.2⟩

theorem Agree.forall₂_shows (h : Agree l l' kept) :
    ∀ (nodes : List Node) {numbers : List Nat}, (∀ n ∈ numbers, kept n) →
      List.Forall₂ l.Shows numbers nodes → List.Forall₂ l'.Shows numbers nodes
  | [], _, _, .nil => .nil
  | node :: nodes, n :: numbers, hkept, .cons hnode hnodes => by
    rw [List.forall_mem_cons] at hkept
    exact .cons (h.shows node hkept.1 hnode) (h.forall₂_shows nodes hkept.2 hnodes)

end

/-! ## Trees under construction -/

/-- From the inside out, open elements with the nodes in front of them, last first, as in a tree under
construction.  Behind the nodes of the innermost one stand those that `more` lists. -/
inductive Traces (l : Ledger) :
    (more stack : List Nat) → List Node → List (Tag × List Node) → Prop
  | document {kids more : List Nat} {nodes : List Node}
      (children : l.children 0 = kids.reverse ++ more) (shows : List.Forall₂ l.Shows kids nodes) :
      Traces l more [] nodes []
  | element {n : Nat} {kids more stack : List Nat} {nodes before : List Node} {tag : Tag}
      {outer : List (Tag × List Node)} (content : l.content n = .element tag)
      (children : l.children n = kids.reverse ++ more) (shows : List.Forall₂ l.Shows kids nodes)
      (around : Traces l [n] stack before outer) :
      Traces l more (n :: stack) nodes ((tag, before) :: outer)

/-- A ledger shows what a tree under construction holds. -/
def Depicts (l : Ledger) (g : Growth) : Prop :=
  l.Traces [] l.stack g.nodes g.outer

variable {more more' stack : List Nat} {nodes before : List Node} {tag : Tag}
  {outer : List (Tag × List Node)}

/-- A node that stands behind the others is one of them. -/
theorem Traces.absorb (h : l.Traces [n] stack nodes outer) (hnode : l.Shows n node) :
    l.Traces [] stack (node :: nodes) outer := by
  cases h with
  | @document kids _ _ hchildren hshows =>
    have hlisted : l.children 0 = (n :: kids).reverse ++ [] := by
      simpa using hchildren
    exact .document hlisted (.cons hnode hshows)
  | @element m kids _ _ _ _ _ _ hcontent hchildren hshows haround =>
    have hlisted : l.children m = (n :: kids).reverse ++ [] := by
      simpa using hchildren
    exact .element hcontent hlisted (.cons hnode hshows) haround

/-- The last one of the nodes stands behind the others. -/
theorem Traces.expose (h : l.Traces [] stack (node :: nodes) outer) :
    ∃ n, l.IsLast n (stack.headD 0) ∧ l.Shows n node ∧ l.Traces [n] stack nodes outer := by
  cases h with
  | document hchildren hshows =>
    cases hshows with
    | @cons n _ kids _ hnode hnodes =>
      rw [List.reverse_cons, List.append_nil] at hchildren
      refine ⟨n, ?_, hnode, .document hchildren hnodes⟩
      rw [List.headD_nil, IsLast, hchildren, List.getLast?_concat]
  | element hcontent hchildren hshows haround =>
    cases hshows with
    | @cons n _ kids _ hnode hnodes =>
      rw [List.reverse_cons, List.append_nil] at hchildren
      refine ⟨n, ?_, hnode, .element hcontent hchildren hnodes haround⟩
      rw [List.headD_cons, IsLast, hchildren, List.getLast?_concat]

/-- Without nodes the innermost open one is empty. -/
theorem Traces.children_eq_nil (h : l.Traces [] stack [] outer) :
    l.children (stack.headD 0) = [] := by
  cases h with
  | document hchildren hshows =>
    cases hshows
    exact hchildren
  | element _ hchildren hshows _ =>
    cases hshows
    exact hchildren

/-- The innermost open element is a node of the one around it. -/
theorem Traces.leave (h : l.Traces [] (n :: stack) nodes ((tag, before) :: outer)) :
    l.Traces [] stack (.element tag nodes.reverse :: before) outer := by
  cases h with
  | element hcontent hchildren hshows haround =>
    refine haround.absorb (.entered hcontent ?_)
    rw [hchildren, List.append_nil]
    exact List.forall₂_reverse_iff.mpr hshows

/-- When all open elements are completed, the document shows all nodes. -/
theorem Traces.finish (h : l.Traces [] stack nodes outer) :
    List.Forall₂ l.Shows (l.children 0) (Growth.finish nodes outer) := by
  induction outer generalizing stack nodes with
  | nil =>
    cases h with
    | document hchildren hshows =>
      rw [hchildren, List.append_nil]
      exact List.forall₂_reverse_iff.mpr hshows
  | cons entry outer ih =>
    obtain ⟨tag, before⟩ := entry
    cases stack with
    | nil => cases h
    | cons n stack => exact ih h.leave

/-- **A trace stays** where nothing changes in front of the open elements. -/
theorem Traces.congr (hagree : Agree l l' kept) (h : l.Traces more stack nodes outer)
    (hcontent : ∀ n ∈ stack, l'.content n = l.content n)
    (hinner : ∀ kids, l.children (stack.headD 0) = kids ++ more →
      l'.children (stack.headD 0) = kids ++ more' ∧ ∀ k ∈ kids, kept k)
    (houter : ∀ n ∈ stack, ∀ m kids, l.children m = kids ++ [n] →
      l'.children m = kids ++ [n] ∧ ∀ k ∈ kids, kept k) :
    l'.Traces more' stack nodes outer := by
  induction h generalizing more' with
  | document hchildren hshows =>
    obtain ⟨hchildren', hkept⟩ := hinner _ hchildren
    exact .document hchildren' (hagree.forall₂_shows _ (by simpa using hkept) hshows)
  | @element n kids more stack nodes before tag outer htag hchildren hshows _ ih =>
    obtain ⟨hchildren', hkept⟩ := hinner _ hchildren
    rw [List.forall_mem_cons] at hcontent houter
    refine .element (hcontent.1.trans htag) hchildren'
      (hagree.forall₂_shows _ (by simpa using hkept) hshows) ?_
    exact ih hcontent.2 (houter.1 _) houter.2

/-- A trace is about what is entered, not about which elements are open. -/
theorem Traces.of_same (h : l.Traces more stack nodes outer) (hcontent : l'.content = l.content)
    (hchildren : l'.children = l.children) : l'.Traces more stack nodes outer := by
  have hagree : Agree l l' fun _ => True :=
    ⟨fun _ => congrFun hcontent _, fun _ => congrFun hchildren _, fun _ _ => trivial⟩
  refine h.congr hagree (fun n _ => congrFun hcontent n) ?_ ?_ <;> rw [hchildren]
  · exact fun kids hkids => ⟨hkids, fun _ _ => trivial⟩
  · exact fun n _ m kids hkids => ⟨hkids, fun _ _ => trivial⟩

/-! ## Events -/

/-- The nodes that are shut lead to shut ones only. -/
theorem agree_of_isShut (h : l.WellFormed)
    (hcontent : ∀ {n}, l.IsShut n → l'.content n = l.content n)
    (hchildren : ∀ {n}, l.IsShut n → l'.children n = l.children n) : Agree l l' l.IsShut :=
  ⟨hcontent, hchildren, h.isShut_of_mem_children⟩

/-- An entered node stands behind the others. -/
theorem Traces.add (h : l.WellFormed) (htraces : l.Traces [] l.stack nodes outer) (c : Content) :
    (l.add c).Traces [l.size] l.stack nodes outer := by
  have hagree : Agree l (l.add c) l.IsShut :=
    agree_of_isShut h (fun hn => content_add_of_lt c hn.lt) fun hn => (KeptShut.add h c hn).children
  refine htraces.congr hagree ?_ ?_ ?_
  · exact fun n hn => content_add_of_lt c (h.lt_size (List.mem_append_left _ hn))
  · intro kids hkids
    rw [List.append_nil] at hkids
    refine ⟨?_, fun k hk => h.isShut_of_mem_current (hkids ▸ hk)⟩
    rw [← hkids]
    exact (h.children_add c l.current).trans (if_pos rfl)
  · intro n hn m kids hkids
    refine ⟨?_, fun k hk => h.isShut_of_mem_front hkids hk⟩
    have hlast : l.IsLast n m := by
      rw [IsLast, hkids, List.getLast?_concat]
    have hlt := (h.ordered (List.mem_of_getLast? hlast)).1
    have hle := h.le_current (List.mem_append_left [0] hn)
    rw [h.children_add, if_neg (by omega)]
    exact hkids

/-- The node that was entered last is shown as it was entered, without nodes inside. -/
theorem shows_add (h : l.WellFormed) {c : Content} (hcontent : c = node.content)
    (hchildren : node.children = []) : (l.add c).Shows l.size node := by
  rw [shows_iff_of_children hchildren]
  exact ⟨(content_add_size l c).trans hcontent, h.children_add_size c⟩

/-- Entering a node adds it to the tree. -/
theorem Depicts.add (h : l.WellFormed) {g : Growth} (hg : l.Depicts g) {c : Content}
    (hcontent : c = node.content) (hchildren : node.children = []) :
    (l.add c).Depicts (g.add node) :=
  (Traces.add h hg c).absorb (shows_add h hcontent hchildren)

/-- Opening an element opens it in the tree. -/
theorem Depicts.openElement (h : l.WellFormed) {g : Growth} (hg : l.Depicts g) (tag : Tag) :
    (l.openElement tag).Depicts (g.openElement tag) := by
  have hadd : (l.openElement tag).Traces [l.size] l.stack g.nodes g.outer :=
    (Traces.add h hg (.element tag)).of_same rfl rfl
  have hlisted : (l.openElement tag).children l.size = [].reverse ++ [] :=
    h.children_add_size (.element tag)
  exact .element (content_add_size l _) hlisted .nil hadd

/-- Entering the last node of the innermost open one anew changes nothing in front of it. -/
theorem Traces.revise (h : l.WellFormed) (hlast : l.IsLast n l.current)
    (htraces : l.Traces [n] l.stack nodes outer) (c : Content) :
    (l.revise n c).Traces [n] l.stack nodes outer := by
  have hmem : n ∈ l.children l.current := List.mem_of_getLast? hlast
  have hshut := h.isShut_of_mem_current hmem
  have hagree : Agree l (l.revise n c) fun k => l.IsShut k ∧ k ≠ n := by
    refine ⟨fun hk => content_revise_of_ne c hk.2, fun _ => rfl, fun {k m} hk hm => ?_⟩
    refine ⟨h.isShut_of_mem_children hk.1 hm, ?_⟩
    -- the node stands inside the innermost open one only
    rintro rfl
    obtain rfl : l.current = k := Option.some.inj ((h.owned hmem).symm.trans (h.owned hm))
    exact hk.1.ne_current rfl
  have hfront : ∀ {k m kids}, l.children k = kids ++ [m] →
      (l.revise n c).children k = kids ++ [m] ∧ ∀ j ∈ kids, l.IsShut j ∧ j ≠ n := by
    intro k m kids hkids
    refine ⟨hkids, fun j hj => ⟨h.isShut_of_mem_front hkids hj, ?_⟩⟩
    rintro rfl
    exact h.not_isLast_of_mem_front hkids hj _ hlast
  refine htraces.congr hagree ?_ (fun kids hkids => hfront hkids) fun m _ k kids hkids => hfront hkids
  exact fun k hk => content_revise_of_ne c fun heq => hshut.notMem (heq ▸ hk)

/-- Adding text adds it in the tree. -/
theorem Depicts.addText (h : l.WellFormed) {g : Growth} (hg : l.Depicts g) (data : Text) :
    (l.addText data).Depicts (g.addText data) := by
  obtain ⟨nodes, outer⟩ := g
  have hadd : l.lastText? = none →
      (l.addText data).Depicts (Growth.add ⟨nodes, outer⟩ (.text data)) := by
    intro hnone
    rw [Ledger.addText, hnone]
    exact hg.add h rfl rfl
  cases nodes with
  | nil =>
    refine hadd ?_
    rw [lastText?, Ledger.current, Traces.children_eq_nil hg]
    rfl
  | cons node nodes =>
    obtain ⟨n, hlast, hnode, htraces⟩ := Traces.expose hg
    have hcontent := (shows_iff.mp hnode).1
    cases node with
    | text before =>
      have htext : l.lastText? = some (n, before) := lastText?_eq_some_iff.mpr ⟨hlast, hcontent⟩
      rw [Ledger.addText, htext]
      refine (htraces.revise h hlast (.text (before ++ data))).absorb ?_
      rw [shows_iff_of_children rfl] at hnode ⊢
      exact ⟨content_revise_self l n _, hnode.2⟩
    | comment _ | declaration _ | instruction _ | element _ _ =>
      refine hadd ?_
      rw [lastText?, Ledger.current, hlast, Option.bind_some, hcontent]
      rfl

/-- An element that is entered anew when it is left becomes a node of the one around it. -/
theorem Traces.close (h : { l with stack := n :: stack }.WellFormed)
    (htraces : l.Traces [] (n :: stack) nodes ((tag, before) :: outer)) (tag' : Tag) :
    ({ l with stack := stack }.revise n (.element tag')).Traces [] stack
      (.element tag' nodes.reverse :: before) outer := by
  have hagree : Agree l ({ l with stack := stack }.revise n (.element tag'))
      { l with stack := n :: stack }.IsShut := by
    refine ⟨fun hk => content_revise_of_ne _ ?_, fun _ => rfl, h.isShut_of_mem_children⟩
    rintro rfl
    exact hk.notMem List.mem_cons_self
  have hfront : ∀ {k m kids}, l.children k = kids ++ [m] →
      l.children k = kids ++ [m] ∧ ∀ j ∈ kids, { l with stack := n :: stack }.IsShut j :=
    fun hkids => ⟨hkids, fun _ hj => h.isShut_of_mem_front hkids hj⟩
  cases htraces with
  | @element _ kids _ _ _ _ _ _ _ hchildren hshows haround =>
    rw [List.append_nil] at hchildren
    refine Traces.absorb (haround.congr hagree ?_ (fun _ => hfront) fun _ _ _ _ => hfront) ?_
    · intro m hm
      refine content_revise_of_ne _ ?_
      rintro rfl
      exact (List.nodup_cons.mp h.nodup_stack).1 hm
    · have hinside : List.Forall₂ l.Shows (l.children n) nodes.reverse := by
        rw [hchildren]
        exact List.forall₂_reverse_iff.mpr hshows
      refine .entered (content_revise_self ..) ?_
      exact hagree.forall₂_shows _ (fun m hm => h.isShut_of_mem_current hm) hinside

/-- Closing elements closes them in the tree. -/
theorem depicts_closeUpTo (name : Text) (h : { l with stack := stack }.WellFormed)
    (htraces : l.Traces [] stack nodes outer) :
    Option.Rel Depicts (closeUpTo name l stack) (Growth.closeUpTo name nodes outer) := by
  induction outer generalizing stack nodes with
  | nil =>
    cases htraces
    exact .none
  | cons entry outer ih =>
    obtain ⟨tag, before⟩ := entry
    cases stack with
    | nil => cases htraces
    | cons n stack =>
      have htag : (l.content n).tag? = some tag := by
        cases htraces with
        | element hcontent _ _ _ => exact Content.tag?_eq_some_iff.mpr hcontent
      simp only [Ledger.closeUpTo, Growth.closeUpTo, htag]
      split
      · exact .some (htraces.close h _)
      · exact ih (h.leave (List.suffix_cons n stack)) htraces.leave

/-- **Each event changes the ledger as it changes the tree.** -/
theorem Depicts.take (h : l.WellFormed) {g : Growth} (hg : l.Depicts g) (event : Event) :
    (l.take event).Depicts (g.take event) := by
  cases event with
  | startTag name attributes source =>
    simp only [Ledger.take, Growth.take]
    split
    · exact hg.add h rfl rfl
    · exact hg.openElement h _
  | emptyTag name attributes source => exact hg.add h rfl rfl
  | endTag name =>
    simp only [Ledger.take, Growth.take]
    have hclose := depicts_closeUpTo name h hg
    cases hl : Ledger.closeUpTo name l l.stack <;>
      cases hgrow : Growth.closeUpTo name g.nodes g.outer <;> rw [hl, hgrow] at hclose
    · exact hg.addText h _
    · cases hclose
    · cases hclose
    · cases hclose with
      | some hclosed => exact hclosed
  | data text | reference text => exact hg.addText h text
  | comment text | declaration text | markedSection text | instruction text => exact hg.add h rfl rfl

/-- Several events change the ledger as they change the tree. -/
theorem Depicts.foldl_take (h : l.WellFormed) {g : Growth} (hg : l.Depicts g) (events : List Event) :
    (events.foldl Ledger.take l).Depicts (events.foldl Growth.take g) := by
  induction events generalizing l g with
  | nil => exact hg
  | cons event events ih => exact ih (h.take event) (hg.take h event)

theorem depicts_empty : empty.Depicts Growth.empty := by
  have hlisted : empty.children 0 = [].reverse ++ [] := rfl
  exact .document hlisted .nil

theorem depicts_ofEvents (events : List Event) :
    (ofEvents events).Depicts (events.foldl Growth.take Growth.empty) :=
  depicts_empty.foldl_take WellFormed.empty events

/-! ## The tree that a ledger shows -/

theorem textData?_of_shows (h : l.Shows n node) : node.textData? = (l.content n).text? := by
  rw [(shows_iff.mp h).1]
  cases node <;> rfl

/-- Neighbours of which not both are texts are shown as such. -/
theorem isChain_of_shows {numbers : List Nat} (h : List.Forall₂ l.Shows numbers nodes)
    (hapart : numbers.IsChain fun a b => ¬ l.Texts a b) :
    nodes.IsChain fun a b => ¬ (a.textData?.isSome ∧ b.textData?.isSome) := by
  induction h with
  | nil => exact .nil
  | cons hnode hnodes ih =>
    rw [List.isChain_cons] at hapart
    refine (ih hapart.2).cons fun next hnext => ?_
    cases hnodes with
    | nil => cases hnext
    | @cons b _ _ _ hb _ =>
      obtain rfl := Option.some.inj hnext
      rw [textData?_of_shows hnode, textData?_of_shows hb]
      exact hapart.1 b rfl

/-- Every node of a tree that is shown is shown. -/
theorem exists_shows_of_nodeAt? {numbers : List Nat} {address : Address}
    (h : List.Forall₂ l.Shows numbers nodes) (hnode : Document.nodeAt? nodes address = some node) :
    ∃ n, l.Shows n node := by
  have hmem : ∀ {numbers nodes}, List.Forall₂ l.Shows numbers nodes → ∀ {node}, node ∈ nodes →
      ∃ n, l.Shows n node := by
    intro numbers nodes h
    induction h with
    | nil =>
      intro node hnode
      cases hnode
    | cons hfirst _ ih =>
      intro node hnode
      rcases List.mem_cons.mp hnode with rfl | hnode
      · exact ⟨_, hfirst⟩
      · exact ih hnode
  induction address generalizing numbers nodes with
  | nil => simp [Document.nodeAt?] at hnode
  | cons place address ih =>
    rcases Document.nodeAt?_cons_eq_some hnode with ⟨-, hnode⟩ | ⟨-, outer, houter, hinner⟩
    · exact hmem h (List.mem_of_getElem? hnode)
    · obtain ⟨n, hn⟩ := hmem h (List.mem_of_getElem? houter)
      exact ih (shows_iff.mp hn).2 hinner

end Ledger

/-! ## Documents -/

/-- **The shape of a document**, after any list of events.  The ledger of the events is well formed:
each node but the document is listed by the node it belongs to, by no other one, and once; no two
neighbours are texts; elements without contents have none; and each open element is the last node
inside the one around it.  It shows the tree as it is built and the document that becomes of it.
Whatever events follow, nothing is added to a node that is not open, closed or left with another one;
and texts that follow each other, with references and end tags that no element waits for among them,
become one text.  So in the document no two texts stand side by side, and nothing stands inside an
element without contents. -/
theorem Document.shape_ofEvents (events : List Event) :
    (Ledger.ofEvents events).WellFormed ∧
      (Ledger.ofEvents events).Depicts (events.foldl Growth.take Growth.empty) ∧
      List.Forall₂ (Ledger.ofEvents events).Shows ((Ledger.ofEvents events).children 0)
        (Document.ofEvents events).children ∧
      (∀ n, (Ledger.ofEvents events).IsShut n → ∀ more,
        Ledger.KeptShut (Ledger.ofEvents events) (Ledger.ofEvents (events ++ more)) n) ∧
      (∀ run, run ≠ [] → (∀ event ∈ run, (Ledger.ofEvents events).IsTextual event) →
        ∃ n, (Ledger.ofEvents (events ++ run)).lastText?
          = some (n, (Ledger.ofEvents events).endingText ++ run.flatMap Event.source)) ∧
      (∀ address, ((Document.ofEvents events).childrenAt address).IsChain
        fun a b => ¬ (a.textData?.isSome ∧ b.textData?.isSome)) ∧
      ∀ address tag nodes, (Document.ofEvents events).get? address = some (.element tag nodes) →
        tag.isChildless = true → nodes = [] := by
  have hwell := Ledger.WellFormed.ofEvents events
  have hdepicts := Ledger.depicts_ofEvents events
  have hshows : List.Forall₂ (Ledger.ofEvents events).Shows ((Ledger.ofEvents events).children 0)
      (Document.ofEvents events).children := hdepicts.finish
  have hfold : ∀ more, Ledger.ofEvents (events ++ more)
      = more.foldl Ledger.take (Ledger.ofEvents events) := by
    intro more
    exact List.foldl_append
  refine ⟨hwell, hdepicts, hshows, fun n hn more => ?_, fun run hne hrun => ?_, fun address => ?_,
    fun address tag nodes hnode hchildless => ?_⟩
  · rw [hfold]
    exact .foldl_take hwell hn more
  · rw [hfold]
    exact Ledger.lastText?_foldl_take hwell hrun hne
  · -- the nodes at an address are shown by the list of the node there
    unfold childrenAt
    split
    · exact Ledger.isChain_of_shows hshows (hwell.apart 0)
    · cases hnode : (Document.ofEvents events).get? address with
      | none => exact .nil
      | some node =>
        obtain ⟨n, hn⟩ := Ledger.exists_shows_of_nodeAt? hshows hnode
        exact Ledger.isChain_of_shows (Ledger.shows_iff.mp hn).2 (hwell.apart n)
  · obtain ⟨n, hn⟩ := Ledger.exists_shows_of_nodeAt? hshows hnode
    obtain ⟨hcontent, hchildren⟩ := Ledger.shows_iff.mp hn
    have hholds : ((Ledger.ofEvents events).content n).holdsNodes = false := by
      rw [hcontent, Node.content, Content.holdsNodes, hchildless]
      rfl
    rw [hwell.childless hholds] at hchildren
    exact List.forall₂_nil_left_iff.mp hchildren

end DataBinding.Markup
