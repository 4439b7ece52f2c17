/-
# Tags as they are read

A document that was just read holds fresh tags only: each remembers its source, has no changed
attribute, and gives at most one value to a name.  The key facts are

* `allTags_ofEvents` : a property of all tags comes from the events;
* `fresh_of_parse`   : every tag of a document that was read is fresh;
* `lookUp_assign`    : setting an attribute changes the value of that attribute alone.
-/
import Mathlib.Data.List.Basic
import DataBinding.Markup.Tree

namespace DataBinding.Markup

/-! ## Lists of attributes -/

/-- Looking a name up behind a first attribute. -/
theorem lookUp_cons (name : Text) (a : Text × Option Text) (attributes : List (Text × Option Text)) :
    lookUp name (a :: attributes) = if a.1 = name then some a.2 else lookUp name attributes := by
  unfold lookUp
  rw [List.find?_cons]
  by_cases h : a.1 = name
  · simp [h]
  · have hb : (a.1 == name) = false := by simpa using h
    rw [hb, if_neg h]

/-- After setting an attribute its name has the new value, and every other name its old one. -/
theorem lookUp_assign (attributes : List (Text × Option Text)) (name other : Text)
    (value : Option Text) :
    lookUp other (assign attributes name value)
      = if name = other then some value else lookUp other attributes := by
  induction attributes with
  | nil => simp [assign, lookUp]
  | cons a rest ih =>
    obtain ⟨n, v⟩ := a
    by_cases hn : n = name
    · subst hn
      simp only [assign, beq_self_eq_true, if_true, lookUp_cons]
      by_cases ho : n = other <;> simp [ho]
    · have hb : (n == name) = false := by simpa using hn
      simp only [assign, hb, Bool.false_eq_true, if_false, lookUp_cons, ih]
      by_cases ho : n = other
      · subst ho
        rw [if_pos rfl, if_neg (Ne.symm hn), if_pos rfl]
      · rw [if_neg ho, if_neg ho]

/-- Setting a name that is there keeps the names and their order. -/
theorem map_fst_assign {attributes : List (Text × Option Text)} {name : Text}
    (h : name ∈ attributes.map Prod.fst) (value : Option Text) :
    (assign attributes name value).map Prod.fst = attributes.map Prod.fst := by
  induction attributes with
  | nil => simp at h
  | cons a rest ih =>
    obtain ⟨n, v⟩ := a
    by_cases hn : n = name
    · subst hn
      simp [assign]
    · have hb : (n == name) = false := by simpa using hn
      have hrest : name ∈ rest.map Prod.fst := by
        rw [List.map_cons, List.mem_cons] at h
        exact h.resolve_left (Ne.symm hn)
      simp only [assign, hb, Bool.false_eq_true, if_false, List.map_cons, ih hrest]

/-- Setting a name that is not there adds it behind the others. -/
theorem map_fst_assign_of_notMem {attributes : List (Text × Option Text)} {name : Text}
    (h : name ∉ attributes.map Prod.fst) (value : Option Text) :
    (assign attributes name value).map Prod.fst = attributes.map Prod.fst ++ [name] := by
  induction attributes with
  | nil => rfl
  | cons a rest ih =>
    obtain ⟨n, v⟩ := a
    rw [List.map_cons, List.mem_cons, not_or] at h
    have hb : (n == name) = false := by simpa using Ne.symm h.1
    simp only [assign, hb, Bool.false_eq_true, if_false, List.map_cons, ih h.2, List.cons_append]

/-- Setting an attribute keeps the names distinct. -/
theorem nodup_assign {attributes : List (Text × Option Text)}
    (h : (attributes.map Prod.fst).Nodup) (name : Text) (value : Option Text) :
    ((assign attributes name value).map Prod.fst).Nodup := by
  by_cases hm : name ∈ attributes.map Prod.fst
  · rw [map_fst_assign hm]
    exact h
  · rw [map_fst_assign_of_notMem hm]
    exact List.nodup_append.mpr ⟨h, by simp, fun a ha b hb => by
      rw [List.mem_singleton] at hb
      subst hb
      exact fun e => hm (e ▸ ha)⟩

/-- Attributes with one value per name have distinct names. -/
theorem nodup_distinct (attributes : List (Text × Option Text)) :
    ((distinct attributes).map Prod.fst).Nodup := by
  suffices h : ∀ kept : List (Text × Option Text), (kept.map Prod.fst).Nodup →
      ((attributes.foldl (fun kept entry => assign kept entry.1 entry.2) kept).map
        Prod.fst).Nodup by
    exact h [] List.nodup_nil
  induction attributes with
  | nil => exact fun kept hkept => hkept
  | cons a rest ih => exact fun kept hkept => ih _ (nodup_assign hkept a.1 a.2)

/-- The attribute of a list with distinct names that stands at a place is found under its name. -/
theorem lookUp_of_mem {attributes : List (Text × Option Text)}
    (hnodup : (attributes.map Prod.fst).Nodup) {name : Text} {value : Option Text}
    (h : (name, value) ∈ attributes) : lookUp name attributes = some value := by
  induction attributes with
  | nil => simp at h
  | cons a rest ih =>
    rw [List.map_cons, List.nodup_cons] at hnodup
    rw [lookUp_cons]
    rcases List.mem_cons.mp h with rfl | hrest
    · rw [if_pos rfl]
    · have hne : a.1 ≠ name := by
        rintro rfl
        exact hnodup.1 (List.mem_map.mpr ⟨_, hrest, rfl⟩)
      rw [if_neg hne, ih hnodup.2 hrest]

/-! ## Fresh tags -/

/-- A tag as it is read: it has a source, no attribute was set, and names are distinct. -/
structure Tag.Fresh (tag : Tag) : Prop where
  source : tag.source.isSome
  changed : tag.changed = []
  names : (tag.attributes.map Prod.fst).Nodup

mutual

/-- All tags in a node have a property. -/
def Node.AllTags (p : Tag → Prop) : Node → Prop
  | .element tag children => p tag ∧ Node.AllTagsIn p children
  | _ => True

/-- All tags in nodes that follow each other have a property. -/
def Node.AllTagsIn (p : Tag → Prop) : List Node → Prop
  | [] => True
  | node :: nodes => node.AllTags p ∧ Node.AllTagsIn p nodes

end

/-- A property of all tags in nodes, node by node. -/
theorem Node.allTagsIn_iff {p : Tag → Prop} {nodes : List Node} :
    Node.AllTagsIn p nodes ↔ ∀ node ∈ nodes, node.AllTags p := by
  induction nodes with
  | nil => simp [Node.AllTagsIn]
  | cons node nodes ih => simp [Node.AllTagsIn, ih]

/-- A fresh tag is written as it was read. -/
theorem Tag.Fresh.source_eq {tag : Tag} (h : tag.Fresh) : ∃ source, tag.source = some source :=
  Option.isSome_iff_exists.mp h.source

/-! ## Trees under construction -/

/-- The tag that a start tag gives. -/
def Event.tag? : Event → Option Tag
  | .startTag name attributes source => some ⟨name, distinct attributes, some source, false, false, []⟩
  | .emptyTag name attributes source => some ⟨name, distinct attributes, some source, true, false, []⟩
  | _ => none

namespace Growth

/-- Every tag that a tree under construction holds has a property. -/
structure AllTags (p : Tag → Prop) (g : Growth) : Prop where
  nodes : ∀ node ∈ g.nodes, node.AllTags p
  outer : ∀ entry ∈ g.outer, p entry.1 ∧ ∀ node ∈ entry.2, node.AllTags p

variable {p : Tag → Prop} {g : Growth}

theorem AllTags.add (h : g.AllTags p) {node : Node} (hnode : node.AllTags p) : (g.add node).AllTags p :=
  ⟨List.forall_mem_cons.mpr ⟨hnode, h.nodes⟩, h.outer⟩

theorem AllTags.addText (h : g.AllTags p) (data : Text) : (g.addText data).AllTags p := by
  obtain ⟨nodes, outer⟩ := g
  unfold Growth.addText
  split
  · rename_i before rest hnodes
    refine ⟨List.forall_mem_cons.mpr ⟨trivial, fun node hnode => h.nodes node ?_⟩, h.outer⟩
    rw [hnodes]
    exact List.mem_cons_of_mem _ hnode
  · exact ⟨List.forall_mem_cons.mpr ⟨trivial, h.nodes⟩, h.outer⟩

/-- A completed element has only tags with a property if its tag and its contents have. -/
theorem allTags_element {tag : Tag} {nodes : List Node} (htag : p tag)
    (hnodes : ∀ node ∈ nodes, node.AllTags p) : (Node.element tag nodes.reverse).AllTags p :=
  ⟨htag, Node.allTagsIn_iff.mpr fun node hnode => hnodes node (List.mem_reverse.mp hnode)⟩

/-- A property that does not depend on whether the end tag was seen is kept by closing. -/
theorem allTags_closeUpTo (hclosed : ∀ tag, p tag → p { tag with closed := true }) {name : Text}
    {nodes : List Node} {outer : List (Tag × List Node)} (h : closeUpTo name nodes outer = some g)
    (hall : AllTags p ⟨nodes, outer⟩) : g.AllTags p := by
  induction outer generalizing nodes with
  | nil => simp [closeUpTo] at h
  | cons entry outer ih =>
    obtain ⟨tag, before⟩ := entry
    obtain ⟨htag, hbefore⟩ := hall.outer (tag, before) List.mem_cons_self
    have houter : ∀ e ∈ outer, p e.1 ∧ ∀ node ∈ e.2, node.AllTags p :=
      fun e he => hall.outer e (List.mem_cons_of_mem _ he)
    rw [closeUpTo] at h
    split at h
    · obtain rfl := Option.some.inj h
      exact ⟨List.forall_mem_cons.mpr ⟨allTags_element (hclosed tag htag) hall.nodes, hbefore⟩, houter⟩
    · exact ih h ⟨List.forall_mem_cons.mpr ⟨allTags_element htag hall.nodes, hbefore⟩, houter⟩

/-- One event keeps a property of all tags if the tag that it gives has it. -/
theorem AllTags.take (hclosed : ∀ tag, p tag → p { tag with closed := true }) (h : g.AllTags p)
    {event : Event} (hevent : ∀ tag ∈ event.tag?, p tag) : (g.take event).AllTags p := by
  cases event with
  | startTag name attributes source =>
    have htag := hevent _ rfl
    simp only [Growth.take]
    split
    · exact h.add ⟨htag, trivial⟩
    · exact ⟨by simp [openElement], List.forall_mem_cons.mpr ⟨⟨htag, h.nodes⟩, h.outer⟩⟩
  | emptyTag name attributes source => exact h.add ⟨hevent _ rfl, trivial⟩
  | endTag name =>
    simp only [Growth.take]
    cases hclose : closeUpTo name g.nodes g.outer with
    | none => exact h.addText _
    | some closed => exact allTags_closeUpTo hclosed hclose h
  | data text => exact h.addText text
  | reference source => exact h.addText source
  | comment text => exact h.add trivial
  | declaration text => exact h.add trivial
  | markedSection text => exact h.add trivial
  | instruction text => exact h.add trivial

theorem AllTags.foldl_take (hclosed : ∀ tag, p tag → p { tag with closed := true })
    {events : List Event} (hevents : ∀ event ∈ events, ∀ tag ∈ event.tag?, p tag)
    (h : g.AllTags p) : (events.foldl Growth.take g).AllTags p := by
  induction events generalizing g with
  | nil => exact h
  | cons event events ih =>
    rw [List.forall_mem_cons] at hevents
    exact ih hevents.2 (h.take hclosed hevents.1)

theorem allTags_finish {nodes : List Node} {outer : List (Tag × List Node)}
    (h : AllTags p ⟨nodes, outer⟩) : ∀ node ∈ finish nodes outer, node.AllTags p := by
  induction outer generalizing nodes with
  | nil => exact fun node hnode => h.nodes node (List.mem_reverse.mp hnode)
  | cons entry outer ih =>
    obtain ⟨tag, before⟩ := entry
    obtain ⟨htag, hbefore⟩ := h.outer (tag, before) List.mem_cons_self
    exact ih ⟨List.forall_mem_cons.mpr ⟨allTags_element htag h.nodes, hbefore⟩,
      fun e he => h.outer e (List.mem_cons_of_mem _ he)⟩

end Growth

/-! ## Documents -/

/-- A document that was read comes from the events of its text. -/
theorem Document.exists_events_of_parse {t : Text} {document : Document}
    (h : Document.parse t = .ok document) :
    ∃ read, events t = .ok read ∧ Document.ofEvents read = document := by
  unfold Document.parse at h
  cases hevents : events t with
  | error fault => simp [hevents, Except.map] at h
  | ok read =>
    rw [hevents] at h
    exact ⟨read, rfl, Except.ok.inj h⟩

/-- **Tags of a document** have a property if those that its events give have it. -/
theorem Document.allTags_ofEvents {p : Tag → Prop} (hclosed : ∀ tag, p tag → p { tag with closed := true })
    {read : List Event} (h : ∀ event ∈ read, ∀ tag ∈ event.tag?, p tag) :
    Node.AllTagsIn p (Document.ofEvents read).children := by
  have hempty : Growth.empty.AllTags p := ⟨by simp [Growth.empty], by simp [Growth.empty]⟩
  exact Node.allTagsIn_iff.mpr (Growth.allTags_finish (hempty.foldl_take hclosed h))

/-- Every tag of a document that was read is fresh. -/
theorem Document.fresh_of_parse {t : Text} {document : Document} (h : Document.parse t = .ok document) :
    Node.AllTagsIn Tag.Fresh document.children := by
  obtain ⟨read, -, rfl⟩ := Document.exists_events_of_parse h
  refine Document.allTags_ofEvents (fun tag h => ⟨h.source, h.changed, h.names⟩) ?_
  intro event _ tag htag
  cases event with
  | startTag name attributes source =>
    obtain rfl := Option.some.inj htag
    exact ⟨rfl, rfl, nodup_distinct attributes⟩
  | emptyTag name attributes source =>
    obtain rfl := Option.some.inj htag
    exact ⟨rfl, rfl, nodup_distinct attributes⟩
  | endTag | data | reference | comment | declaration | markedSection | instruction => cases htag

end DataBinding.Markup
