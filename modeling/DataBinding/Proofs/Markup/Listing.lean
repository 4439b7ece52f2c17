/-
# Listing nodes and finding them again

A document lists its nodes with their addresses.  The key fact `get?_of_mem_nodes` says that the
address of a listed node leads back to it.
-/
import Mathlib.Data.List.Basic
import DataBinding.Markup.Address

namespace DataBinding.Markup.Document

/-- The node at an address with a place in front is found among the children of the node there. -/
theorem nodeAt?_cons (nodes : List Node) (place : Nat) {address : Address} (h : address ≠ []) :
    nodeAt? nodes (place :: address)
      = nodes[place]?.bind fun node => nodeAt? node.children address := by
  cases address with
  | nil => exact absurd rfl h
  | cons next rest =>
    simp only [nodeAt?]
    cases nodes[place]? <;> rfl

/-- The node at a single place. -/
theorem nodeAt?_singleton (nodes : List Node) (place : Nat) :
    nodeAt? nodes [place] = nodes[place]? := by
  rw [nodeAt?]

/-- What is found at an address is at its first place, or inside the node there. -/
theorem nodeAt?_cons_eq_some {nodes : List Node} {place : Nat} {address : Address} {node : Node}
    (h : nodeAt? nodes (place :: address) = some node) :
    address = [] ∧ nodes[place]? = some node ∨
      address ≠ [] ∧ ∃ outer, nodes[place]? = some outer ∧
        nodeAt? outer.children address = some node := by
  by_cases hnil : address = []
  · subst hnil
    rw [nodeAt?_singleton] at h
    exact .inl ⟨rfl, h⟩
  · rw [nodeAt?_cons _ _ hnil] at h
    exact .inr ⟨hnil, Option.bind_eq_some_iff.mp h⟩

/-- What nodes pass on to their children holds wherever a node is found. -/
theorem nodeAt?_keeps {P : Node → Prop}
    (hinside : ∀ tag children, P (.element tag children) → ∀ node ∈ children, P node)
    {nodes : List Node} (h : ∀ node ∈ nodes, P node) {address : Address} {node : Node}
    (hnode : nodeAt? nodes address = some node) : P node := by
  induction address generalizing nodes with
  | nil => simp [nodeAt?] at hnode
  | cons place address ih =>
    have hplace : ∀ {found : Node}, nodes[place]? = some found → P found :=
      fun hfound => h _ (List.mem_of_getElem? hfound)
    rcases nodeAt?_cons_eq_some hnode with ⟨-, hnode⟩ | ⟨-, outer, houter, hinner⟩
    · exact hplace hnode
    · refine ih (fun inner hinner => ?_) hinner
      cases outer with
      | element tag children => exact hinside tag children (hplace houter) inner hinner
      | text | comment | declaration | instruction => cases hinner

/-- The node below another one is found from there. -/
theorem nodeAt?_append {nodes : List Node} {address rest : Address} {node : Node}
    (h : nodeAt? nodes address = some node) (hrest : rest ≠ []) :
    nodeAt? nodes (address ++ rest) = nodeAt? node.children rest := by
  induction address generalizing nodes with
  | nil => simp [nodeAt?] at h
  | cons place address ih =>
    rw [List.cons_append, nodeAt?_cons _ _ (by simp [hrest])]
    rcases nodeAt?_cons_eq_some h with ⟨rfl, hnode⟩ | ⟨-, outer, houter, hinner⟩
    · rw [hnode]
      rfl
    · rw [houter]
      exact ih hinner

mutual

/-- A node that is listed with another one is that node itself or is found below it. -/
theorem exists_of_mem_listNode (address : Address) :
    ∀ (outer : Node) {entry : Address × Node}, entry ∈ listNode address outer →
      entry = (address, outer) ∨
        ∃ rest, rest ≠ [] ∧ entry.1 = address ++ rest ∧ nodeAt? outer.children rest = some entry.2
  | .element tag children, entry, h => by
    rw [listNode, List.mem_cons] at h
    refine h.imp id fun h => ?_
    obtain ⟨place, rest, haddress, hnode⟩ := exists_of_mem_listNodes address 0 children h
    exact ⟨place :: rest, by simp, by rw [haddress, Nat.zero_add], hnode⟩
  | .text _, _, h | .comment _, _, h | .declaration _, _, h | .instruction _, _, h => by
    simp only [listNode, List.mem_singleton] at h
    exact .inl h

/-- A node that is listed among nodes is found among them. -/
theorem exists_of_mem_listNodes (parent : Address) (place : Nat) :
    ∀ (nodes : List Node) {entry : Address × Node}, entry ∈ listNodes parent place nodes →
      ∃ i rest, entry.1 = parent ++ (place + i) :: rest ∧ nodeAt? nodes (i :: rest) = some entry.2
  | [], _, h => by simp [listNodes] at h
  | node :: nodes, entry, h => by
    rw [listNodes, List.mem_append] at h
    rcases h with h | h
    · rcases exists_of_mem_listNode (parent ++ [place]) node h with rfl | ⟨rest, hrest, ha, hn⟩
      · exact ⟨0, [], rfl, rfl⟩
      · exact ⟨0, rest, by rw [ha, List.append_assoc]; rfl, by rw [nodeAt?_cons _ _ hrest]; exact hn⟩
    · obtain ⟨i, rest, ha, hn⟩ := exists_of_mem_listNodes parent (place + 1) nodes h
      refine ⟨i + 1, rest, by rw [ha]; congr 2; omega, ?_⟩
      by_cases hrest : rest = []
      · subst hrest
        rwa [nodeAt?_singleton] at hn ⊢
      · rw [nodeAt?_cons _ _ hrest] at hn ⊢
        exact hn

end

/-- The address of a listed node leads back to it. -/
theorem get?_of_mem_nodes {document : Document} {address : Address} {node : Node}
    (h : (address, node) ∈ document.nodes) : address ≠ [] ∧ document.get? address = some node := by
  obtain ⟨i, rest, ha, hn⟩ := exists_of_mem_listNodes [] 0 document.children h
  simp only [List.nil_append, Nat.zero_add] at ha
  subst ha
  exact ⟨by simp, hn⟩

/-- The address of an element that is found by its name leads to an element of that name. -/
theorem get?_of_mem_findAll {document : Document} {name : Text} {address : Address}
    (h : address ∈ document.findAll name) :
    ∃ tag children, address ≠ [] ∧ document.get? address = some (.element tag children) ∧
      tag.name = name := by
  obtain ⟨⟨_, node⟩, hmem, rfl⟩ := List.mem_map.mp h
  obtain ⟨hnodes, hnamed⟩ := List.mem_filter.mp hmem
  obtain ⟨hne, hget⟩ := get?_of_mem_nodes hnodes
  cases node with
  | element tag children => exact ⟨tag, children, hne, hget, by simpa [Node.isNamed] using hnamed⟩
  | text _ | comment _ | declaration _ | instruction _ => simp [Node.isNamed] at hnamed

/-! ## Changed nodes -/

/-- Changing the node at an address changes what is found there. -/
theorem nodeAt?_changeChildren (change : Node → Node) (address : Address) (last : Nat)
    (nodes : List Node) :
    nodeAt? (changeChildren (fun nodes => nodes.modify last change) address nodes)
        (address ++ [last])
      = (nodeAt? nodes (address ++ [last])).map change := by
  induction address generalizing nodes with
  | nil =>
    rw [changeChildren, List.nil_append, nodeAt?_singleton, nodeAt?_singleton,
      List.getElem?_modify_eq]
    rfl
  | cons place address ih =>
    rw [changeChildren, List.cons_append, nodeAt?_cons _ _ (by simp), nodeAt?_cons _ _ (by simp),
      List.getElem?_modify_eq]
    cases hnode : nodes[place]? with
    | none => rfl
    | some node =>
      cases node with
      | element tag children => exact ih children
      | text _ | comment _ | declaration _ | instruction _ =>
        simp only [Option.bind_some, Node.children]
        cases address <;> simp [nodeAt?]

/-- Changing a node of a document changes what is found at its address. -/
theorem get?_modifyNode (document : Document) {address : Address} (h : address ≠ [])
    (change : Node → Node) :
    (document.modifyNode address change).get? address = (document.get? address).map change := by
  rcases List.eq_nil_or_concat address with rfl | ⟨outer, last, rfl⟩
  · exact absurd rfl h
  · unfold modifyNode get?
    rw [List.concat_eq_append, List.getLast?_concat, List.dropLast_concat]
    exact nodeAt?_changeChildren change outer last document.children

end DataBinding.Markup.Document
