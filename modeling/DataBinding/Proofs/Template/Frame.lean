/-
# What a walk leaves as it is

A walk over host templates changes data only: texts below a host template that are no raw text, and
attribute values of elements below one that are no repeat templates.  `Framed` relates a node to what
it may become, and carries a relation for texts that may change for another reason.  The key facts
are

* `walk_framed`     : a walk with any visitor stays inside this frame;
* `Document.Framed.modifyNode` : changing one text stays inside a frame that admits the change;
* `walk_eq_self`    : a walk whose visitor gives no other text leaves the document alone.
-/
import DataBinding.Markup.Write
import DataBinding.Proofs.Markup.Listing
import DataBinding.Proofs.Markup.Reading
import DataBinding.Template.Walk

namespace DataBinding.Markup

/-! ## Tags with other values -/

/-- A tag with some attribute values replaced: the changed names are those with another value. -/
structure Tag.Revises (before after : Tag) : Prop where
  name : after.name = before.name
  source : after.source = before.source
  selfClosing : after.selfClosing = before.selfClosing
  closed : after.closed = before.closed
  names : after.attributes.map Prod.fst = before.attributes.map Prod.fst
  changed : ∀ name ∈ after.changed, lookUp name after.attributes ≠ lookUp name before.attributes

/-- A fresh tag revises itself. -/
theorem Tag.Fresh.revises {tag : Tag} (h : tag.Fresh) : tag.Revises tag :=
  ⟨rfl, rfl, rfl, rfl, rfl, by simp [h.changed]⟩

/-- A revision that changes no attribute is written from the source. -/
theorem Tag.Revises.write_eq {before after : Tag} (h : before.Revises after) (hfresh : before.Fresh)
    (hsame : after.attributes = before.attributes) : before.source = some after.write := by
  have hchanged : after.changed = [] := by
    rw [List.eq_nil_iff_forall_not_mem]
    intro name hname
    exact h.changed name hname (by rw [hsame])
  obtain ⟨source, hsource⟩ := hfresh.source_eq
  unfold Tag.write
  rw [h.source, hsource, hchanged]
  rfl

/-! ## The frame -/

mutual

/-- What may become of a node.  `below` tells that it lies below a host template, `raw` that it lies
in an element of raw text, and `admits` which texts may change wherever they are. -/
inductive Framed (admits : Address → Text → Text → Prop) :
    (below raw : Bool) → Address → Node → Node → Prop
  | text {below raw address} (t : Text) : Framed admits below raw address (.text t) (.text t)
  | visited {address} (t t' : Text) : Framed admits true false address (.text t) (.text t')
  | admitted {below raw address t t'} (h : admits address t t') :
      Framed admits below raw address (.text t) (.text t')
  | comment {below raw address} (t : Text) :
      Framed admits below raw address (.comment t) (.comment t)
  | declaration {below raw address} (t : Text) :
      Framed admits below raw address (.declaration t) (.declaration t)
  | instruction {below raw address} (t : Text) :
      Framed admits below raw address (.instruction t) (.instruction t)
  | element {below raw address tag tag' children children'}
      (revises : tag.Revises tag')
      (visited : tag' ≠ tag → below = true ∧ tag.isRepeat = false)
      (untouched : tag'.attributes = tag.attributes → tag.source = some tag'.write)
      (inside : FramedAll admits (below || tag.isHost) (isRawText tag.name) address 0
        children children') :
      Framed admits below raw address (.element tag children) (.element tag' children')

/-- What may become of nodes that follow each other, the first one at the given place. -/
inductive FramedAll (admits : Address → Text → Text → Prop) :
    (below raw : Bool) → (parent : Address) → (place : Nat) → List Node → List Node → Prop
  | nil {below raw parent place} : FramedAll admits below raw parent place [] []
  | cons {below raw parent place node node' nodes nodes'}
      (head : Framed admits below raw (parent ++ [place]) node node')
      (tail : FramedAll admits below raw parent (place + 1) nodes nodes') :
      FramedAll admits below raw parent place (node :: nodes) (node' :: nodes')

end

/-- What may become of a document. -/
def Document.Framed (admits : Address → Text → Text → Prop) (before after : Document) : Prop :=
  FramedAll admits false false [] 0 before.children after.children

mutual

/-- A fresh node may stay as it is. -/
theorem Framed.refl (admits : Address → Text → Text → Prop) (below raw : Bool) (address : Address) :
    ∀ node : Node, node.AllTags Tag.Fresh → Framed admits below raw address node node
  | .text t, _ => .text t
  | .comment t, _ => .comment t
  | .declaration t, _ => .declaration t
  | .instruction t, _ => .instruction t
  | .element _ children, ⟨htag, hchildren⟩ =>
    .element htag.revises (fun h => absurd rfl h) (htag.revises.write_eq htag)
      (FramedAll.refl admits _ _ address 0 children hchildren)

/-- Fresh nodes may stay as they are. -/
theorem FramedAll.refl (admits : Address → Text → Text → Prop) (below raw : Bool)
    (parent : Address) (place : Nat) :
    ∀ nodes : List Node, Node.AllTagsIn Tag.Fresh nodes →
      FramedAll admits below raw parent place nodes nodes
  | [], _ => .nil
  | node :: nodes, ⟨hnode, hnodes⟩ =>
    .cons (Framed.refl admits below raw _ node hnode)
      (FramedAll.refl admits below raw parent (place + 1) nodes hnodes)

end

/-! ## Visits to tags -/

variable {σ : Type}

/-- What holds while the attributes of a tag are visited, those with the names `seen` being done:
only they may have another value, and the changed ones do. -/
structure Tag.Partly (before : Tag) (seen : List Text) (after : Tag) : Prop where
  revises : before.Revises after
  unseen : ∀ name, name ∉ seen → lookUp name after.attributes = lookUp name before.attributes

/-- Visiting one more attribute. -/
theorem Tag.Partly.visitAttribute {before : Tag} {seen : List Text} {reached : Tag × σ}
    (h : before.Partly seen reached.1) (visit : Visitor σ) (repeats : List Text)
    {entry : Text × Option Text} (hmem : entry ∈ before.attributes)
    (hlook : lookUp entry.1 before.attributes = some entry.2) (hnew : entry.1 ∉ seen) :
    before.Partly (entry.1 :: seen) (visitAttribute visit repeats reached entry).1 := by
  obtain ⟨tag, state⟩ := reached
  obtain ⟨name, value⟩ := entry
  have hskip : before.Partly (name :: seen) tag :=
    ⟨h.revises, fun other hother => h.unseen other fun hs => hother (List.mem_cons_of_mem _ hs)⟩
  have hnames : name ∈ tag.attributes.map Prod.fst := by
    rw [h.revises.names]
    exact List.mem_map.mpr ⟨_, hmem, rfl⟩
  -- only a value that differs from the one that was read is set
  have hset : ∀ answer : Text, some answer ≠ value →
      before.Partly (name :: seen) (tag.set name (some answer)) := by
    intro answer hanswer
    refine ⟨⟨h.revises.name, h.revises.source, h.revises.selfClosing, h.revises.closed, ?_, ?_⟩, ?_⟩
    · exact (map_fst_assign hnames _).trans h.revises.names
    · intro other hother
      simp only [Tag.set, lookUp_assign]
      by_cases ho : name = other
      · subst ho
        rw [if_pos rfl, hlook]
        exact fun e => hanswer (Option.some.inj e)
      · rw [if_neg ho]
        apply h.revises.changed
        simp only [Tag.set] at hother
        split at hother
        · exact hother
        · exact (List.mem_append.mp hother).resolve_right
            fun e => ho (List.mem_singleton.mp e).symm
    · intro other hother
      rw [List.mem_cons, not_or] at hother
      simp only [Tag.set, lookUp_assign]
      rw [if_neg (Ne.symm hother.1)]
      exact h.unseen other hother.2
  match value with
  | none => exact hskip
  | some [] => exact hskip
  | some (c :: t) =>
    simp only [DataBinding.Markup.visitAttribute, Tag.answered]
    split
    · exact hskip
    · rename_i answer _
      split
      · exact hskip
      · rename_i hdiff
        exact hset answer fun e => hdiff (by simpa using e)

/-- Visiting the attributes of a fresh tag revises the tag. -/
theorem Tag.Fresh.visitTag_revises {tag : Tag} (h : tag.Fresh) (visit : Visitor σ)
    (repeats : List Text) (state : σ) : tag.Revises (visitTag visit repeats tag state).1 := by
  suffices hfold : ∀ (rest : List (Text × Option Text)) (seen : List Text) (reached : Tag × σ),
      (∀ entry ∈ rest, entry ∈ tag.attributes) → (rest.map Prod.fst).Nodup →
      (∀ name ∈ rest.map Prod.fst, name ∉ seen) → tag.Partly seen reached.1 →
      tag.Revises (rest.foldl (visitAttribute visit repeats) reached).1 by
    unfold visitTag
    split
    · exact h.revises
    · exact hfold tag.attributes [] (tag, state) (fun _ he => he) h.names (by simp)
        ⟨h.revises, fun _ _ => rfl⟩
  intro rest
  induction rest with
  | nil => exact fun _ _ _ _ _ hpart => hpart.revises
  | cons entry rest ih =>
    intro seen reached hmem hnodup hseen hpart
    rw [List.map_cons, List.nodup_cons] at hnodup
    have hentry := hmem entry List.mem_cons_self
    refine ih (entry.1 :: seen) _ (fun e he => hmem e (List.mem_cons_of_mem _ he)) hnodup.2 ?_
      (hpart.visitAttribute visit repeats hentry (lookUp_of_mem h.names hentry)
        (hseen _ List.mem_cons_self))
    intro name hname hin
    rcases List.mem_cons.mp hin with rfl | hin
    · exact hnodup.1 hname
    · exact hseen name (List.mem_cons_of_mem _ hname) hin

/-- A tag that a visit changes is not that of a repeat template. -/
theorem isRepeat_of_visitTag_ne {visit : Visitor σ} {repeats : List Text} {tag : Tag} {state : σ}
    (h : (visitTag visit repeats tag state).1 ≠ tag) : tag.isRepeat = false := by
  by_contra hrepeat
  rw [Bool.not_eq_false] at hrepeat
  exact h (by rw [visitTag, if_pos hrepeat])

/-- Visiting the attributes of a tag keeps its name. -/
theorem visitTag_name (visit : Visitor σ) (repeats : List Text) (tag : Tag) (state : σ) :
    (visitTag visit repeats tag state).1.name = tag.name := by
  suffices hfold : ∀ (entries : List (Text × Option Text)) (reached : Tag × σ),
      (entries.foldl (visitAttribute visit repeats) reached).1.name = reached.1.name by
    unfold visitTag
    split
    · rfl
    · exact hfold tag.attributes (tag, state)
  intro entries
  induction entries with
  | nil => exact fun _ => rfl
  | cons entry entries ih =>
    intro reached
    refine (ih _).trans ?_
    obtain ⟨tag, state⟩ := reached
    obtain ⟨name, value⟩ := entry
    match value with
    | none => rfl
    | some [] => rfl
    | some (c :: t) =>
      simp only [visitAttribute, Tag.answered]
      split
      · rfl
      · split <;> rfl

/-! ## Walks stay inside the frame -/

mutual

/-- A visit to a node below a host template stays inside the frame. -/
theorem visitNode_framed (admits : Address → Text → Text → Prop) (visit : Visitor σ)
    (repeats : List Text) (raw : Bool) (address : Address) :
    ∀ (node : Node) (state : σ), node.AllTags Tag.Fresh →
      Framed admits true raw address node (visitNode visit repeats raw node state).1
  | .text t, state, _ => by
    cases raw with
    | true => exact .text t
    | false => exact .visited t _
  | .comment t, _, _ => .comment t
  | .declaration t, _, _ => .declaration t
  | .instruction t, _, _ => .instruction t
  | .element tag children, state, ⟨htag, hchildren⟩ =>
    .element (htag.visitTag_revises visit repeats state)
      (fun h => ⟨rfl, isRepeat_of_visitTag_ne h⟩)
      ((htag.visitTag_revises visit repeats state).write_eq htag)
      (by
        rw [Bool.true_or, ← (htag.visitTag_revises visit repeats state).name]
        exact visitNodes_framed admits visit _ _ address 0 children _ hchildren)

/-- A visit to nodes below a host template stays inside the frame. -/
theorem visitNodes_framed (admits : Address → Text → Text → Prop) (visit : Visitor σ)
    (repeats : List Text) (raw : Bool) (parent : Address) (place : Nat) :
    ∀ (nodes : List Node) (state : σ), Node.AllTagsIn Tag.Fresh nodes →
      FramedAll admits true raw parent place nodes (visitNodes visit repeats raw nodes state).1
  | [], _, _ => .nil
  | node :: nodes, state, ⟨hnode, hnodes⟩ =>
    .cons (visitNode_framed admits visit repeats raw _ node state hnode)
      (visitNodes_framed admits visit repeats raw parent (place + 1) nodes _ hnodes)

end

/-- A walk over an element visits what is inside a host template, and walks on elsewhere. -/
theorem walkNode_element (visit : Visitor σ) (repeats : List Text) (tag : Tag)
    (children : List Node) (state : σ) :
    walkNode visit repeats (.element tag children) state
      = (.element tag (if tag.isHost then visitNodes visit repeats false children state
            else walkNodes visit (repeats ++ tag.repeatNames) children state).1,
          (if tag.isHost then visitNodes visit repeats false children state
            else walkNodes visit (repeats ++ tag.repeatNames) children state).2) := by
  rw [walkNode]

/-- The contents of a host template are no raw text. -/
theorem isRawText_of_isHost {tag : Tag} (h : tag.isHost = true) : isRawText tag.name = false := by
  unfold Tag.isHost at h
  rw [Bool.and_eq_true] at h
  have hname : tag.name = "template".toList := by
    simpa [Tag.isTemplate] using h.1
  rw [hname]
  decide

mutual

/-- A walk over a node stays inside the frame. -/
theorem walkNode_framed (admits : Address → Text → Text → Prop) (visit : Visitor σ)
    (repeats : List Text) (raw : Bool) (address : Address) :
    ∀ (node : Node) (state : σ), node.AllTags Tag.Fresh →
      Framed admits false raw address node (walkNode visit repeats node state).1
  | .text t, _, _ => .text t
  | .comment t, _, _ => .comment t
  | .declaration t, _, _ => .declaration t
  | .instruction t, _, _ => .instruction t
  | .element tag children, state, ⟨htag, hchildren⟩ => by
    rw [walkNode_element]
    refine .element htag.revises (fun h => absurd rfl h) (htag.revises.write_eq htag) ?_
    rw [Bool.false_or]
    cases hhost : tag.isHost with
    | true =>
      rw [if_pos rfl, isRawText_of_isHost hhost]
      exact visitNodes_framed admits visit repeats false address 0 children state hchildren
    | false =>
      rw [if_neg Bool.false_ne_true]
      exact walkNodes_framed admits visit _ _ address 0 children state hchildren

/-- A walk over nodes stays inside the frame. -/
theorem walkNodes_framed (admits : Address → Text → Text → Prop) (visit : Visitor σ)
    (repeats : List Text) (raw : Bool) (parent : Address) (place : Nat) :
    ∀ (nodes : List Node) (state : σ), Node.AllTagsIn Tag.Fresh nodes →
      FramedAll admits false raw parent place nodes (walkNodes visit repeats nodes state).1
  | [], _, _ => .nil
  | node :: nodes, state, ⟨hnode, hnodes⟩ =>
    .cons (walkNode_framed admits visit repeats raw _ node state hnode)
      (walkNodes_framed admits visit repeats raw parent (place + 1) nodes _ hnodes)

end

/-- **Frame of a walk.**  Whatever the visitor answers, a walk over a fresh document changes only
texts and attribute values below host templates. -/
theorem Document.walk_framed (admits : Address → Text → Text → Prop) (document : Document)
    (hfresh : Node.AllTagsIn Tag.Fresh document.children) (visit : Visitor σ) (state : σ) :
    Document.Framed admits document (document.walk visit state).1 :=
  walkNodes_framed admits visit [] false [] 0 document.children state hfresh

/-! ## Nodes of a framed document -/

/-- A node of framed nodes is framed as well. -/
theorem FramedAll.getElem? {admits : Address → Text → Text → Prop} {below raw : Bool}
    {parent : Address} {place : Nat} {nodes nodes' : List Node}
    (h : FramedAll admits below raw parent place nodes nodes') {i : Nat} {node : Node}
    (hnode : nodes[i]? = some node) :
    ∃ node', nodes'[i]? = some node' ∧
      Framed admits below raw (parent ++ [place + i]) node node' := by
  induction i generalizing place nodes nodes' with
  | zero =>
    cases h with
    | nil => simp at hnode
    | cons head _ =>
      obtain rfl := Option.some.inj hnode
      exact ⟨_, rfl, head⟩
  | succ i ih =>
    cases h with
    | nil => simp at hnode
    | cons _ tail =>
      obtain ⟨node', hget, hframed⟩ := ih tail hnode
      refine ⟨node', hget, ?_⟩
      rwa [Nat.add_assoc, Nat.add_comm 1 i] at hframed

/-- What is below a framed node is framed, wherever it is. -/
theorem FramedAll.nodeAt? {admits : Address → Text → Text → Prop} {below raw : Bool}
    {parent : Address} {nodes nodes' : List Node}
    (h : FramedAll admits below raw parent 0 nodes nodes') {address : Address} {node : Node}
    (hnode : Document.nodeAt? nodes address = some node) :
    ∃ below' raw' node', Document.nodeAt? nodes' address = some node' ∧
      Framed admits below' raw' (parent ++ address) node node' := by
  induction address generalizing below raw parent nodes nodes' with
  | nil => simp [Document.nodeAt?] at hnode
  | cons place address ih =>
    rcases Document.nodeAt?_cons_eq_some hnode with ⟨rfl, hnode⟩ | ⟨hnil, outer, houter, hinner⟩
    · obtain ⟨node', hget, hframed⟩ := h.getElem? hnode
      rw [Nat.zero_add] at hframed
      exact ⟨below, raw, node', by rw [Document.nodeAt?_singleton, hget], hframed⟩
    · obtain ⟨outer', hget, hframed⟩ := h.getElem? houter
      rw [Nat.zero_add] at hframed
      cases hframed with
      | element _ _ _ inside =>
        obtain ⟨below', raw', node', hnode', hresult⟩ := ih inside hinner
        refine ⟨below', raw', node', ?_, ?_⟩
        · rw [Document.nodeAt?_cons _ _ hnil, hget]
          exact hnode'
        · rwa [List.append_assoc] at hresult
      | text | visited | admitted | comment | declaration | instruction =>
        cases address with
        | nil => exact absurd rfl hnil
        | cons next rest => cases rest <;> simp [Node.children, Document.nodeAt?] at hinner

/-- Raw text stays as it is unless it is admitted to change. -/
theorem Framed.eq_of_rawText {admits : Address → Text → Text → Prop} {below : Bool}
    {address : Address} {t : Text} {node' : Node}
    (h : Framed admits below true address (.text t) node') (hadmits : ∀ t', ¬ admits address t t') :
    node' = .text t := by
  cases h with
  | text => rfl
  | admitted h => exact absurd h (hadmits _)

/-- The first text of an element of raw text stays as it is, if no text is admitted to change. -/
theorem Document.Framed.get?_rawText {before after : Document}
    (h : before.Framed (fun _ _ _ => False) after) {address : Address} {tag : Tag} {t : Text}
    {rest : List Node} (helement : before.get? address = some (.element tag (.text t :: rest)))
    (hraw : isRawText tag.name = true) : after.get? (address ++ [0]) = some (.text t) := by
  obtain ⟨_, _, node', hget, hframed⟩ := FramedAll.nodeAt? h helement
  cases hframed with
  | element _ _ _ inside =>
    rw [hraw] at inside
    unfold Document.get?
    rw [nodeAt?_append hget (by simp), nodeAt?_singleton]
    obtain ⟨first, hfirst, hframed⟩ := inside.getElem? (i := 0) rfl
    rw [Node.children, hfirst, hframed.eq_of_rawText fun _ hf => hf]

/-! ## Changing one text -/

mutual

/-- A frame that admits more holds more. -/
theorem Framed.mono {S T : Address → Text → Text → Prop} (hST : ∀ a t t', S a t t' → T a t t')
    {below raw : Bool} {address : Address} {node node' : Node} :
    Framed S below raw address node node' → Framed T below raw address node node'
  | .text t => .text t
  | .visited t t' => .visited t t'
  | .admitted h => .admitted (hST _ _ _ h)
  | .comment t => .comment t
  | .declaration t => .declaration t
  | .instruction t => .instruction t
  | .element revises visited untouched inside =>
    .element revises visited untouched (FramedAll.mono hST inside)

/-- A frame that admits more holds more, node by node. -/
theorem FramedAll.mono {S T : Address → Text → Text → Prop} (hST : ∀ a t t', S a t t' → T a t t')
    {below raw : Bool} {parent : Address} {place : Nat} {nodes nodes' : List Node} :
    FramedAll S below raw parent place nodes nodes' →
      FramedAll T below raw parent place nodes nodes'
  | .nil => .nil
  | .cons head tail => .cons (Framed.mono hST head) (FramedAll.mono hST tail)

end

/-- Changing one of some framed nodes inside a larger frame. -/
theorem FramedAll.modify {S T : Address → Text → Text → Prop} (hST : ∀ a t t', S a t t' → T a t t')
    {below raw : Bool} {parent : Address} {place : Nat} {nodes nodes' : List Node}
    (h : FramedAll S below raw parent place nodes nodes') {i : Nat} {change : Node → Node}
    (hchange : ∀ node node', nodes[i]? = some node →
      Framed S below raw (parent ++ [place + i]) node node' →
      Framed T below raw (parent ++ [place + i]) node (change node')) :
    FramedAll T below raw parent place nodes (nodes'.modify i change) := by
  induction i generalizing place nodes nodes' with
  | zero =>
    cases h with
    | nil => exact .nil
    | cons head tail => exact .cons (hchange _ _ rfl head) (tail.mono hST)
  | succ i ih =>
    cases h with
    | nil => exact .nil
    | cons head tail =>
      rw [List.modify_succ_cons]
      refine .cons (head.mono hST) (ih tail fun node node' hnode hframed => ?_)
      have hplace : place + 1 + i = place + (i + 1) := by omega
      rw [hplace] at hframed ⊢
      exact hchange node node' hnode hframed

/-- Changing one text of framed nodes inside a frame that admits the change. -/
theorem FramedAll.changeChildren {T : Address → Text → Text → Prop} {change : Node → Node}
    {f : Text → Text} (hchange : ∀ t, change (.text t) = .text (f t)) {last : Nat} {t : Text}
    {below raw : Bool} {parent address : Address} {nodes nodes' : List Node}
    (h : FramedAll (fun _ _ _ => False) below raw parent 0 nodes nodes')
    (ht : Document.nodeAt? nodes (address ++ [last]) = some (.text t))
    (hT : T (parent ++ (address ++ [last])) t (f t)) :
    FramedAll T below raw parent 0 nodes
      (Document.changeChildren (fun nodes => nodes.modify last change) address nodes') := by
  have hnone : ∀ (a : Address) (t t' : Text), False → T a t t' := fun _ _ _ hf => hf.elim
  induction address generalizing below raw parent nodes nodes' with
  | nil =>
    rw [Document.changeChildren]
    refine h.modify hnone fun node node' hnode hframed => ?_
    rw [List.nil_append, Document.nodeAt?_singleton, hnode] at ht
    obtain rfl := Option.some.inj ht
    rw [Nat.zero_add] at hframed ⊢
    -- the node at the place is the text that is changed, so that it is admitted
    cases hframed with
    | text => rw [hchange]; exact .admitted hT
    | visited _ t' => rw [hchange]; exact .visited _ _
    | admitted hf => exact hf.elim
  | cons place address ih =>
    rw [Document.changeChildren]
    refine h.modify hnone fun node node' hnode hframed => ?_
    rw [List.cons_append, Document.nodeAt?_cons _ _ (by simp), hnode] at ht
    rw [Nat.zero_add] at hframed ⊢
    cases hframed with
    | element revises visited untouched inside =>
      refine .element revises visited untouched (ih inside ht ?_)
      rwa [List.append_assoc]
    | admitted hf => exact hf.elim
    | text _ => exact .text _
    | visited _ t' => exact .visited _ _
    | comment _ => exact .comment _
    | declaration _ => exact .declaration _
    | instruction _ => exact .instruction _

/-- **Changing one text** of a framed document stays inside a frame that admits the change. -/
theorem Document.Framed.modifyNode {T : Address → Text → Text → Prop} {before after : Document}
    (h : before.Framed (fun _ _ _ => False) after) {change : Node → Node} {f : Text → Text}
    (hchange : ∀ t, change (.text t) = .text (f t)) {address : Address} {t : Text}
    (ht : before.get? address = some (.text t)) (hT : T address t (f t)) :
    before.Framed T (after.modifyNode address change) := by
  rcases List.eq_nil_or_concat address with rfl | ⟨outer, last, rfl⟩
  · simp [Document.get?, nodeAt?] at ht
  · unfold Document.modifyNode
    rw [List.concat_eq_append, List.getLast?_concat, List.dropLast_concat]
    rw [List.concat_eq_append] at ht hT
    exact h.changeChildren hchange ht hT

/-! ## Walks that change nothing -/

/-- Where a condition holds behind a visit, it held before, and the visitor gave no other text. -/
def IsIdleUnder (visit : Visitor σ) (P : σ → Prop) : Prop :=
  ∀ site state, P (visit site state).2 →
    P state ∧ ∀ answer ∈ (visit site state).1, answer = site.text

/-- An idle visit leaves an attribute as it is. -/
theorem visitAttribute_eq_self {visit : Visitor σ} {P : σ → Prop} (hidle : IsIdleUnder visit P)
    {repeats : List Text} {reached : Tag × σ} {entry : Text × Option Text}
    (h : P (visitAttribute visit repeats reached entry).2) :
    P reached.2 ∧ (visitAttribute visit repeats reached entry).1 = reached.1 := by
  obtain ⟨tag, state⟩ := reached
  obtain ⟨name, value⟩ := entry
  match value with
  | none => exact ⟨h, rfl⟩
  | some [] => exact ⟨h, rfl⟩
  | some (c :: t) =>
    simp only [visitAttribute] at h ⊢
    obtain ⟨hbefore, hanswer⟩ := hidle _ _ h
    refine ⟨hbefore, ?_⟩
    unfold Tag.answered
    split
    · rfl
    · rename_i answer heq
      rw [if_pos (by simpa using hanswer answer heq)]

/-- An idle visit leaves a tag as it is. -/
theorem visitTag_eq_self {visit : Visitor σ} {P : σ → Prop} (hidle : IsIdleUnder visit P)
    {repeats : List Text} {tag : Tag} {state : σ} (h : P (visitTag visit repeats tag state).2) :
    P state ∧ (visitTag visit repeats tag state).1 = tag := by
  suffices hfold : ∀ (entries : List (Text × Option Text)) (reached : Tag × σ),
      P (entries.foldl (visitAttribute visit repeats) reached).2 →
      P reached.2 ∧ (entries.foldl (visitAttribute visit repeats) reached).1 = reached.1 by
    unfold visitTag at h ⊢
    split at h
    · rename_i hrepeat
      rw [if_pos hrepeat]
      exact ⟨h, rfl⟩
    · rename_i hrepeat
      rw [if_neg hrepeat]
      exact hfold tag.attributes (tag, state) h
  intro entries
  induction entries with
  | nil => exact fun reached h => ⟨h, rfl⟩
  | cons entry entries ih =>
    intro reached h
    obtain ⟨hafter, hrest⟩ := ih _ h
    obtain ⟨hbefore, hfirst⟩ := visitAttribute_eq_self hidle hafter
    exact ⟨hbefore, hrest.trans hfirst⟩

mutual

/-- An idle visit leaves a node as it is. -/
theorem visitNode_eq_self {visit : Visitor σ} {P : σ → Prop} (hidle : IsIdleUnder visit P)
    (repeats : List Text) (raw : Bool) :
    ∀ (node : Node) (state : σ), P (visitNode visit repeats raw node state).2 →
      P state ∧ (visitNode visit repeats raw node state).1 = node
  | .text t, state, h => by
    cases raw with
    | true => exact ⟨h, rfl⟩
    | false =>
      simp only [visitNode, Bool.false_eq_true, if_false, visitText] at h ⊢
      split at h
      · rename_i hblank
        rw [if_pos hblank]
        exact ⟨h, rfl⟩
      · rename_i hblank
        rw [if_neg hblank]
        obtain ⟨hbefore, hanswer⟩ := hidle _ _ h
        refine ⟨hbefore, congrArg Node.text ?_⟩
        cases hfound : (visit ⟨t, true, none, repeats⟩ state).1 with
        | none => rfl
        | some answer => exact hanswer answer hfound
  | .comment _, _, h | .declaration _, _, h | .instruction _, _, h => ⟨h, rfl⟩
  | .element tag children, state, h => by
    simp only [visitNode] at h ⊢
    obtain ⟨hmiddle, hchildren⟩ := visitNodes_eq_self hidle _ _ children _ h
    obtain ⟨hbefore, htag⟩ := visitTag_eq_self hidle hmiddle
    exact ⟨hbefore, by rw [hchildren, htag]⟩

/-- An idle visit leaves nodes as they are. -/
theorem visitNodes_eq_self {visit : Visitor σ} {P : σ → Prop} (hidle : IsIdleUnder visit P)
    (repeats : List Text) (raw : Bool) :
    ∀ (nodes : List Node) (state : σ), P (visitNodes visit repeats raw nodes state).2 →
      P state ∧ (visitNodes visit repeats raw nodes state).1 = nodes
  | [], _, h => ⟨h, rfl⟩
  | node :: nodes, state, h => by
    simp only [visitNodes] at h ⊢
    obtain ⟨hmiddle, hnodes⟩ := visitNodes_eq_self hidle repeats raw nodes _ h
    obtain ⟨hbefore, hnode⟩ := visitNode_eq_self hidle repeats raw node _ hmiddle
    exact ⟨hbefore, by rw [hnodes, hnode]⟩

end

mutual

/-- An idle walk leaves a node as it is. -/
theorem walkNode_eq_self {visit : Visitor σ} {P : σ → Prop} (hidle : IsIdleUnder visit P)
    (repeats : List Text) :
    ∀ (node : Node) (state : σ), P (walkNode visit repeats node state).2 →
      P state ∧ (walkNode visit repeats node state).1 = node
  | .text _, _, h | .comment _, _, h | .declaration _, _, h | .instruction _, _, h => ⟨h, rfl⟩
  | .element tag children, state, h => by
    rw [walkNode_element] at h ⊢
    cases hhost : tag.isHost with
    | true =>
      simp only [hhost, if_true] at h ⊢
      obtain ⟨hbefore, hchildren⟩ := visitNodes_eq_self hidle _ _ children _ h
      exact ⟨hbefore, by rw [hchildren]⟩
    | false =>
      simp only [hhost, Bool.false_eq_true, if_false] at h ⊢
      obtain ⟨hbefore, hchildren⟩ := walkNodes_eq_self hidle _ children _ h
      exact ⟨hbefore, by rw [hchildren]⟩

/-- An idle walk leaves nodes as they are. -/
theorem walkNodes_eq_self {visit : Visitor σ} {P : σ → Prop} (hidle : IsIdleUnder visit P)
    (repeats : List Text) :
    ∀ (nodes : List Node) (state : σ), P (walkNodes visit repeats nodes state).2 →
      P state ∧ (walkNodes visit repeats nodes state).1 = nodes
  | [], _, h => ⟨h, rfl⟩
  | node :: nodes, state, h => by
    simp only [walkNodes] at h ⊢
    obtain ⟨hmiddle, hnodes⟩ := walkNodes_eq_self hidle repeats nodes _ h
    obtain ⟨hbefore, hnode⟩ := walkNode_eq_self hidle repeats node _ hmiddle
    exact ⟨hbefore, by rw [hnodes, hnode]⟩

end

/-- **Idle walks.**  If a condition holds behind a walk under which the visitor is idle, the walk
left the document as it was. -/
theorem Document.walk_eq_self {visit : Visitor σ} {P : σ → Prop} (hidle : IsIdleUnder visit P)
    (document : Document) (state : σ) (h : P (document.walk visit state).2) :
    (document.walk visit state).1 = document :=
  congrArg Document.mk (walkNodes_eq_self hidle [] document.children state h).2

end DataBinding.Markup
