/-
# Writing what was read

A document is read from events and written node by node.  A tree under construction has written
everything up to where it grows: the nodes before each open element, the start tags of these
elements, and the nodes of the innermost one.  The key facts are

* `Growth.written_take`        : each event adds its source to what is written, whether it opens, closes
  or fills an element, and whatever elements it closes on the way;
* `Document.write_ofEvents`    : a document is written as the sources of its events, one after the
  other.
-/
import DataBinding.Markup.Tree
import DataBinding.Markup.Write

namespace DataBinding.Markup

/-- Nodes that follow each other are written one after the other. -/
theorem Node.writeAll_append (nodes more : List Node) :
    writeAll (nodes ++ more) = writeAll nodes ++ writeAll more := by
  induction nodes with
  | nil => rfl
  | cons node nodes ih => rw [List.cons_append, writeAll, writeAll, ih, List.append_assoc]

/-- The last one of some nodes is written behind the others. -/
theorem Node.writeAll_reverse_cons (node : Node) (nodes : List Node) :
    writeAll (node :: nodes).reverse = writeAll nodes.reverse ++ write node := by
  rw [List.reverse_cons, writeAll_append, writeAll, writeAll, List.append_nil]

namespace Growth

/-! ## What is written so far -/

/-- The markup up to the start tag of the innermost open element. -/
def writtenBefore : List (Tag × List Node) → Text
  | [] => []
  | (tag, before) :: outer => writtenBefore outer ++ Node.writeAll before.reverse ++ tag.write

/-- The markup up to the place where the tree grows. -/
def written (g : Growth) : Text :=
  writtenBefore g.outer ++ Node.writeAll g.nodes.reverse

/-- No end tag was read for an open element. -/
def Unclosed (outer : List (Tag × List Node)) : Prop :=
  ∀ entry ∈ outer, entry.1.closed = false

theorem unclosed_cons {tag : Tag} {before : List Node} {outer : List (Tag × List Node)} :
    Unclosed ((tag, before) :: outer) ↔ tag.closed = false ∧ Unclosed outer :=
  List.forall_mem_cons

variable {g : Growth} {outer : List (Tag × List Node)}

/-- An added node is written behind all else. -/
theorem written_add (g : Growth) (node : Node) : (g.add node).written = g.written ++ node.write := by
  rw [written, written, add, Node.writeAll_reverse_cons, List.append_assoc]

/-- An added text is written behind all else, whether or not it is joined to another text. -/
theorem written_addText (g : Growth) (data : Text) :
    (g.addText data).written = g.written ++ data := by
  obtain ⟨nodes, outer⟩ := g
  unfold addText
  split
  · rename_i before rest hnodes
    subst hnodes
    simp only [written, Node.writeAll_reverse_cons, Node.write, List.append_assoc]
  · exact written_add ⟨nodes, outer⟩ (.text data)

/-- An opened element adds its start tag. -/
theorem written_openElement (g : Growth) (tag : Tag) :
    (g.openElement tag).written = g.written ++ tag.write := by
  simp only [written, openElement, writtenBefore, List.reverse_nil, Node.writeAll, List.append_nil]

/-- An open element without an end tag is written as its start tag and its contents. -/
theorem write_unclosed {tag : Tag} (h : tag.closed = false) (nodes : List Node) :
    (Node.element tag nodes).write = tag.write ++ Node.writeAll nodes := by
  rw [Node.write, h]
  simp

/-- The end tag that closes an element adds its source: the elements inside end without one. -/
theorem written_closeUpTo {name : Text} {nodes : List Node} (h : Unclosed outer)
    (hclose : closeUpTo name nodes outer = some g) :
    g.written = written ⟨nodes, outer⟩ ++ endTagSource name ∧ Unclosed g.outer := by
  induction outer generalizing nodes with
  | nil => simp [closeUpTo] at hclose
  | cons entry outer ih =>
    obtain ⟨tag, before⟩ := entry
    obtain ⟨hopen, houter⟩ := unclosed_cons.mp h
    rw [closeUpTo] at hclose
    split at hclose
    · rename_i hname
      obtain rfl := eq_of_beq hname
      obtain rfl := Option.some.inj hclose
      refine ⟨?_, houter⟩
      have hwrite : Tag.write { tag with closed := true } = tag.write := rfl
      simp only [written, writtenBefore, Node.writeAll_reverse_cons, Node.write, hwrite, if_true,
        List.append_assoc]
    · obtain ⟨hwritten, hrest⟩ := ih houter hclose
      refine ⟨?_, hrest⟩
      rw [hwritten]
      simp only [written, writtenBefore, Node.writeAll_reverse_cons, write_unclosed hopen,
        List.append_assoc]

/-! ## Events -/

/-- **Each event adds its source to what is written.** -/
theorem written_take (h : Unclosed g.outer) (event : Event) :
    (g.take event).written = g.written ++ event.source ∧ Unclosed (g.take event).outer := by
  cases event with
  | startTag name attributes source =>
    simp only [take]
    split
    · refine ⟨?_, h⟩
      rw [written_add, write_unclosed rfl, Node.writeAll, List.append_nil]
      rfl
    · exact ⟨written_openElement .., unclosed_cons.mpr ⟨rfl, h⟩⟩
  | emptyTag name attributes source =>
    refine ⟨?_, h⟩
    rw [take, written_add, write_unclosed rfl, Node.writeAll, List.append_nil]
    rfl
  | endTag name =>
    simp only [take]
    -- an end tag without its start tag is kept as text
    cases hclose : closeUpTo name g.nodes g.outer with
    | none =>
      refine ⟨written_addText .., ?_⟩
      show Unclosed (g.addText _).outer
      unfold addText
      split <;> exact h
    | some closed => exact written_closeUpTo h hclose
  | data text | reference text =>
    refine ⟨written_addText .., ?_⟩
    show Unclosed (g.addText _).outer
    unfold addText
    split <;> exact h
  | comment text | declaration text | markedSection text | instruction text =>
    exact ⟨written_add .., h⟩

/-- Several events add their sources in order. -/
theorem written_foldl_take (h : Unclosed g.outer) (events : List Event) :
    (events.foldl take g).written = g.written ++ events.flatMap Event.source ∧
      Unclosed (events.foldl take g).outer := by
  induction events generalizing g with
  | nil => exact ⟨by simp, h⟩
  | cons event events ih =>
    obtain ⟨hfirst, hopen⟩ := written_take h event
    obtain ⟨hrest, hall⟩ := ih hopen
    refine ⟨?_, hall⟩
    rw [List.foldl_cons, hrest, hfirst, List.flatMap_cons, List.append_assoc]

/-- Completing the open elements changes nothing of what is written. -/
theorem writeAll_finish (h : Unclosed outer) (nodes : List Node) :
    Node.writeAll (finish nodes outer) = written ⟨nodes, outer⟩ := by
  induction outer generalizing nodes with
  | nil => rfl
  | cons entry outer ih =>
    obtain ⟨tag, before⟩ := entry
    obtain ⟨hopen, houter⟩ := unclosed_cons.mp h
    rw [finish, ih houter]
    simp only [written, writtenBefore, Node.writeAll_reverse_cons, write_unclosed hopen,
      List.append_assoc]

/-- A tree that took some events is written as before with the sources of the events behind. -/
theorem writeAll_finish_foldl_take (h : Unclosed g.outer) (events : List Event) :
    Node.writeAll (finish (events.foldl take g).nodes (events.foldl take g).outer)
      = g.written ++ events.flatMap Event.source := by
  obtain ⟨hwritten, hopen⟩ := written_foldl_take h events
  exact (writeAll_finish hopen _).trans hwritten

theorem unclosed_empty : Unclosed empty.outer := by
  simp [Unclosed, empty]

end Growth

/-! ## Documents -/

/-- **A document is written as the sources of its events, one after the other.**  This holds of every
list of events: of end tags that no element waits for, of those that close several elements at once,
of end tags for elements without contents, and of elements that are never closed. -/
theorem Document.write_ofEvents (events : List Event) :
    (Document.ofEvents events).write = events.flatMap Event.source :=
  Growth.writeAll_finish_foldl_take Growth.unclosed_empty events

end DataBinding.Markup
