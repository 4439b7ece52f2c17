/-
# Nodes under numbers

A tree under construction holds its nodes where they stand, so that each of them stands somewhere and
nowhere else.  A ledger keeps the same nodes apart from their places: a node is entered under a number
when it is made, with what it is by itself, the number of the node it belongs to, and the numbers of
the nodes inside it, and these are written again whenever an event adds to the node.  Nothing in a
ledger says that its nodes make up a tree; it is the events that keep it so.

* `Ledger.WellFormed`    : each node is listed once, by the node it belongs to; no two texts stand
  side by side; elements without contents have none; the open nodes are the last ones of each other;
* `WellFormed.take`      : each event keeps this;
* `KeptShut.take`        : no event adds to a node that is not open, or opens it again;
* `lastText?_foldl_take` : texts that follow each other become one text node.
-/
import Mathlib.Data.List.Chain
import Mathlib.Logic.Function.Basic
import DataBinding.Markup.Tree

namespace DataBinding.Markup

/-! ## Nodes by themselves -/

/-- An element that never has contents: its name says so, or its tag ends itself. -/
def Tag.isChildless (tag : Tag) : Bool :=
  voidElements.contains tag.name || tag.selfClosing

/-- What a node is by itself, without the nodes inside it. -/
inductive Content where
  | document
  | text (data : Text)
  | comment (data : Text)
  | declaration (data : Text)
  | instruction (data : Text)
  | element (tag : Tag)

namespace Content

/-- The text of a text node. -/
def text? : Content → Option Text
  | text data => some data
  | _ => none

/-- The tag of an element. -/
def tag? : Content → Option Tag
  | element tag => some tag
  | _ => none

/-- Nodes may stand inside. -/
def holdsNodes : Content → Bool
  | document => true
  | element tag => !tag.isChildless
  | _ => false

end Content

/-! ## Ledgers -/

/-- Nodes entered under the numbers below `size`, of which 0 is the document.  `stack` holds the open
elements from the inside out. -/
structure Ledger where
  size : Nat
  content : Nat → Content
  parent : Nat → Option Nat
  children : Nat → List Nat
  stack : List Nat

namespace Ledger

/-- Nothing but an empty document. -/
def empty : Ledger :=
  ⟨1, fun _ => .document, fun _ => none, fun _ => [], []⟩

/-- The innermost open node. -/
def current (l : Ledger) : Nat :=
  l.stack.headD 0

/-- Enters a node, behind the nodes inside the innermost open one. -/
def add (l : Ledger) (content : Content) : Ledger :=
  { l with
    size := l.size + 1
    content := Function.update l.content l.size content
    parent := Function.update l.parent l.size (some l.current)
    children := Function.update (Function.update l.children l.size []) l.current
      (l.children l.current ++ [l.size]) }

/-- Enters what a node is anew. -/
def revise (l : Ledger) (n : Nat) (content : Content) : Ledger :=
  { l with content := Function.update l.content n content }

/-- The last node inside the innermost open one, if it is a text. -/
def lastText? (l : Ledger) : Option (Nat × Text) :=
  (l.children l.current).getLast?.bind fun n => (l.content n).text?.map (n, ·)

/-- The last one of the nodes inside another one. -/
def IsLast (l : Ledger) (inner outer : Nat) : Prop :=
  (l.children outer).getLast? = some inner

/-- Adds text, to the last node if that is a text. -/
def addText (l : Ledger) (data : Text) : Ledger :=
  match l.lastText? with
  | some (n, before) => l.revise n (.text (before ++ data))
  | none => l.add (.text data)

/-- Enters an element and opens it. -/
def openElement (l : Ledger) (tag : Tag) : Ledger :=
  { l.add (.element tag) with stack := l.size :: l.stack }

/-- Of the given open elements the first one of the given name is marked as closed, and only those
around it stay open. -/
def closeUpTo (name : Text) (l : Ledger) : List Nat → Option Ledger
  | [] => none
  | n :: stack =>
    match (l.content n).tag? with
    | some tag =>
      if tag.name == name then
        some ({ l with stack := stack }.revise n (.element { tag with closed := true }))
      else closeUpTo name l stack
    | none => closeUpTo name l stack

/-- Takes one event. -/
def take (l : Ledger) : Event → Ledger
  | .startTag name attributes source =>
    let tag : Tag := ⟨name, distinct attributes, some source, false, false, []⟩
    if voidElements.contains name then l.add (.element tag) else l.openElement tag
  | .emptyTag name attributes source =>
    l.add (.element ⟨name, distinct attributes, some source, true, false, []⟩)
  | .endTag name => (closeUpTo name l l.stack).getD (l.addText (endTagSource name))
  | .data text => l.addText text
  | .reference source => l.addText source
  | .comment text => l.add (.comment text)
  | .declaration text => l.add (.declaration text)
  | .markedSection text => l.add (.declaration (sectionDeclaration text))
  | .instruction text => l.add (.instruction text)

/-- The ledger that a list of events leaves. -/
def ofEvents (events : List Event) : Ledger :=
  events.foldl take empty

/-! ## What is entered -/

variable {l : Ledger} {n m : Nat} {c : Content} {stack : List Nat} {tag : Tag} {data : Text}

theorem content_add_of_lt (c : Content) (hn : n < l.size) : (l.add c).content n = l.content n :=
  Function.update_of_ne (Nat.ne_of_lt hn) ..

theorem content_add_size (l : Ledger) (c : Content) : (l.add c).content l.size = c :=
  Function.update_self ..

theorem content_revise_self (l : Ledger) (n : Nat) (c : Content) : (l.revise n c).content n = c :=
  Function.update_self ..

theorem content_revise_of_ne (c : Content) (hne : m ≠ n) : (l.revise n c).content m = l.content m :=
  Function.update_of_ne hne ..

theorem Content.text?_eq_some_iff {before : Text} : c.text? = some before ↔ c = .text before := by
  cases c <;> simp [Content.text?]

theorem Content.tag?_eq_some_iff : c.tag? = some tag ↔ c = .element tag := by
  cases c <;> simp [Content.tag?]

/-- The last node inside the innermost open one is a text. -/
theorem lastText?_eq_some_iff {before : Text} :
    l.lastText? = some (n, before) ↔ l.IsLast n l.current ∧ l.content n = .text before := by
  simp only [lastText?, IsLast, Option.bind_eq_some_iff, Option.map_eq_some_iff, Prod.mk.injEq,
    ← Content.text?_eq_some_iff]
  constructor
  · rintro ⟨m, hlast, data, hdata, rfl, rfl⟩
    exact ⟨hlast, hdata⟩
  · rintro ⟨hlast, hdata⟩
    exact ⟨n, hlast, before, hdata, rfl, rfl⟩

/-! ## Well-formed ledgers -/

/-- Two texts. -/
def Texts (l : Ledger) (m n : Nat) : Prop :=
  (l.content m).text?.isSome ∧ (l.content n).text?.isSome

/-- An open element: nodes may stand inside, and no end tag was read. -/
def IsOpen (l : Ledger) (n : Nat) : Prop :=
  ∃ tag, l.content n = .element tag ∧ tag.isChildless = false ∧ tag.closed = false

/-- The nodes of a ledger make up a tree.  Each node but the document is listed by the one it belongs
to, by no other one, and once; two neighbours are never both texts; nothing stands inside a node that
does not hold nodes; and the open elements lead from the document to the innermost one, each of them
the last node inside the one around it. -/
structure WellFormed (l : Ledger) : Prop where
  document : l.content 0 = .document ∧ l.parent 0 = none ∧ 0 < l.size
  ordered : ∀ {n m}, m ∈ l.children n → n < m ∧ m < l.size
  listed : ∀ {m}, 0 < m → m < l.size → ∃ n, m ∈ l.children n
  owned : ∀ {n m}, m ∈ l.children n → l.parent m = some n
  once : ∀ n, (l.children n).Nodup
  apart : ∀ n, (l.children n).IsChain fun a b => ¬ l.Texts a b
  childless : ∀ {n}, (l.content n).holdsNodes = false → l.children n = []
  chain : (l.stack ++ [0]).IsChain l.IsLast
  isOpen : ∀ n ∈ l.stack, l.IsOpen n

theorem current_mem (l : Ledger) : l.current ∈ l.stack ++ [0] := by
  unfold current
  cases l.stack <;> simp

/-- A node that is entered and not open. -/
structure IsShut (l : Ledger) (n : Nat) : Prop where
  pos : 0 < n
  lt : n < l.size
  notMem : n ∉ l.stack

theorem IsShut.ne_current (h : l.IsShut n) : n ≠ l.current := by
  rintro rfl
  rcases List.mem_append.mp (current_mem l) with hmem | hzero
  · exact h.notMem hmem
  · exact Nat.ne_of_gt h.pos (List.mem_singleton.mp hzero)

namespace WellFormed

theorem empty : Ledger.empty.WellFormed where
  document := ⟨rfl, rfl, Nat.zero_lt_one⟩
  ordered h := absurd h List.not_mem_nil
  listed hpos hlt := by
    have : Ledger.empty.size = 1 := rfl
    omega
  owned h := absurd h List.not_mem_nil
  once _ := List.nodup_nil
  apart _ := List.IsChain.nil
  childless _ := rfl
  chain := List.IsChain.singleton _
  isOpen _ h := absurd h List.not_mem_nil

/-- Nothing stands inside a node that is not entered. -/
theorem children_eq_nil (h : l.WellFormed) (hn : l.size ≤ n) : l.children n = [] := by
  rw [List.eq_nil_iff_forall_not_mem]
  intro m hm
  have := h.ordered hm
  omega

/-- Of two open nodes the inner one has the greater number. -/
theorem pairwise (h : l.WellFormed) : (l.stack ++ [0]).Pairwise fun inner outer => outer < inner := by
  rw [← List.isChain_iff_pairwise]
  refine h.chain.imp fun inner outer hlast => ?_
  exact (h.ordered (List.mem_of_getLast? hlast)).1

/-- The innermost open node has the greatest number. -/
theorem le_current (h : l.WellFormed) (hn : n ∈ l.stack ++ [0]) : n ≤ l.current := by
  have hpairwise := h.pairwise
  unfold current
  cases hstack : l.stack with
  | nil =>
    rw [hstack] at hn
    exact le_of_eq (List.mem_singleton.mp hn)
  | cons first stack =>
    rw [hstack, List.cons_append] at hn hpairwise
    rcases List.mem_cons.mp hn with rfl | hn
    · exact Nat.le_refl _
    · exact Nat.le_of_lt ((List.pairwise_cons.mp hpairwise).1 n hn)

theorem nodup_stack (h : l.WellFormed) : l.stack.Nodup :=
  (List.pairwise_append.mp h.pairwise).1.imp fun hlt => Nat.ne_of_gt hlt

theorem pos_of_mem_stack (h : l.WellFormed) (hn : n ∈ l.stack) : 0 < n :=
  (List.pairwise_append.mp h.pairwise).2.2 n hn 0 (List.mem_singleton_self 0)

/-- An open element is the last node inside an open node. -/
theorem exists_outer (h : l.WellFormed) (hn : n ∈ l.stack) :
    ∃ outer ∈ l.stack ++ [0], l.IsLast n outer := by
  obtain ⟨inside, around, hstack⟩ := List.append_of_mem hn
  have hchain : (n :: (around ++ [0])).IsChain l.IsLast :=
    h.chain.suffix ⟨inside, by rw [hstack, List.append_assoc, List.cons_append]⟩
  rw [hstack]
  cases around with
  | nil => exact ⟨0, by simp, (List.isChain_cons_cons.mp hchain).1⟩
  | cons outer around => exact ⟨outer, by simp, (List.isChain_cons_cons.mp hchain).1⟩

/-- An open element is inside an open node only, as the last node there. -/
theorem isLast_of_mem_stack (h : l.WellFormed) (hn : n ∈ l.stack) (hmem : n ∈ l.children m) :
    l.IsLast n m ∧ m ∈ l.stack ++ [0] := by
  obtain ⟨outer, houter, hlast⟩ := h.exists_outer hn
  have hsame : some outer = some m := (h.owned (List.mem_of_getLast? hlast)).symm.trans (h.owned hmem)
  obtain rfl := Option.some.inj hsame
  exact ⟨hlast, houter⟩

/-- Every open node is entered. -/
theorem lt_size (h : l.WellFormed) (hn : n ∈ l.stack ++ [0]) : n < l.size := by
  rcases List.mem_append.mp hn with hn | hn
  · obtain ⟨outer, -, hlast⟩ := h.exists_outer hn
    exact (h.ordered (List.mem_of_getLast? hlast)).2
  · rw [List.mem_singleton.mp hn]
    exact h.document.2.2

theorem current_lt (h : l.WellFormed) : l.current < l.size :=
  h.lt_size (current_mem l)

/-- Nodes may stand inside an open node. -/
theorem holdsNodes (h : l.WellFormed) (hn : n ∈ l.stack ++ [0]) :
    (l.content n).holdsNodes = true := by
  rcases List.mem_append.mp hn with hn | hn
  · obtain ⟨tag, htag, hchildless, -⟩ := h.isOpen n hn
    rw [htag, Content.holdsNodes, hchildless]
    rfl
  · rw [List.mem_singleton.mp hn, h.document.1]
    rfl

/-! ### Nodes that are shut -/

/-- The nodes inside the innermost open one are shut. -/
theorem isShut_of_mem_current (h : l.WellFormed) (hn : n ∈ l.children l.current) : l.IsShut n := by
  obtain ⟨hgt, hlt⟩ := h.ordered hn
  refine ⟨by omega, hlt, fun hmem => ?_⟩
  have := h.le_current (List.mem_append_left [0] hmem)
  omega

/-- The nodes in front of another one are the last ones nowhere. -/
theorem not_isLast_of_mem_front (h : l.WellFormed) {kids : List Nat}
    (hkids : l.children n = kids ++ [m]) {k : Nat} (hk : k ∈ kids) (outer : Nat) :
    ¬ l.IsLast k outer := by
  intro hlast
  have hmem : k ∈ l.children n := by
    rw [hkids]
    exact List.mem_append_left _ hk
  have hsame : some outer = some n := (h.owned (List.mem_of_getLast? hlast)).symm.trans (h.owned hmem)
  obtain rfl := Option.some.inj hsame
  rw [IsLast, hkids, List.getLast?_concat, Option.some.injEq] at hlast
  have honce := h.once outer
  rw [hkids, hlast] at honce
  exact (List.nodup_append.mp honce).2.2 k hk k (List.mem_singleton_self k) rfl

/-- The nodes in front of another one are shut. -/
theorem isShut_of_mem_front (h : l.WellFormed) {kids : List Nat} (hkids : l.children n = kids ++ [m])
    {k : Nat} (hk : k ∈ kids) : l.IsShut k := by
  have hmem : k ∈ l.children n := by
    rw [hkids]
    exact List.mem_append_left _ hk
  obtain ⟨hgt, hlt⟩ := h.ordered hmem
  refine ⟨by omega, hlt, fun hstack => ?_⟩
  exact h.not_isLast_of_mem_front hkids hk n (h.isLast_of_mem_stack hstack hmem).1

/-- The nodes inside a shut one are shut. -/
theorem isShut_of_mem_children (h : l.WellFormed) (hn : l.IsShut n) (hm : m ∈ l.children n) :
    l.IsShut m := by
  obtain ⟨hgt, hlt⟩ := h.ordered hm
  refine ⟨by omega, hlt, fun hmem => ?_⟩
  rcases List.mem_append.mp (h.isLast_of_mem_stack hmem hm).2 with hstack | hzero
  · exact hn.notMem hstack
  · have := hn.pos
    rw [List.mem_singleton] at hzero
    omega

/-! ### Entering a node -/

theorem children_add (h : l.WellFormed) (c : Content) (n : Nat) :
    (l.add c).children n
      = if n = l.current then l.children l.current ++ [l.size] else l.children n := by
  have hempty := h.children_eq_nil (Nat.le_refl l.size)
  simp only [Ledger.add, Function.update_apply]
  split
  · rfl
  · split
    · rename_i hn
      rw [hn, hempty]
    · rfl

/-- Nothing stands inside the node that was entered last. -/
theorem children_add_size (h : l.WellFormed) (c : Content) : (l.add c).children l.size = [] := by
  rw [h.children_add, if_neg (Nat.ne_of_gt h.current_lt), h.children_eq_nil (Nat.le_refl _)]

theorem mem_children_add (h : l.WellFormed) (c : Content) :
    m ∈ (l.add c).children n ↔ m ∈ l.children n ∨ n = l.current ∧ m = l.size := by
  rw [h.children_add]
  split
  · rename_i hn
    subst hn
    simp
  · rename_i hn
    simp [hn]

/-- The open nodes but the innermost one hold what they held. -/
theorem isLast_add (h : l.WellFormed) (c : Content) (hn : n ∈ l.stack ++ [0])
    (hlast : l.IsLast n m) : (l.add c).IsLast n m := by
  have hlt := (h.ordered (List.mem_of_getLast? hlast)).1
  have hle := h.le_current hn
  rw [IsLast, h.children_add, if_neg (by omega)]
  exact hlast

/-- **Entering a node keeps a ledger well formed**, unless two texts would stand side by side. -/
theorem add (h : l.WellFormed) (hc : c.text?.isSome → l.lastText? = none) :
    (l.add c).WellFormed where
  document := by
    obtain ⟨hcontent, hparent, hsize⟩ := h.document
    refine ⟨(content_add_of_lt c hsize).trans hcontent, ?_, Nat.zero_lt_succ _⟩
    exact (Function.update_of_ne (Nat.ne_of_lt hsize) ..).trans hparent
  ordered hm := by
    rcases (h.mem_children_add c).mp hm with hm | ⟨rfl, rfl⟩
    · obtain ⟨hgt, hlt⟩ := h.ordered hm
      exact ⟨hgt, Nat.lt_succ_of_lt hlt⟩
    · exact ⟨h.current_lt, Nat.lt_succ_self _⟩
  listed {m} hpos hlt := by
    rcases Nat.lt_succ_iff_lt_or_eq.mp hlt with hlt | rfl
    · obtain ⟨n, hn⟩ := h.listed hpos hlt
      exact ⟨n, (h.mem_children_add c).mpr (.inl hn)⟩
    · exact ⟨l.current, (h.mem_children_add c).mpr (.inr ⟨rfl, rfl⟩)⟩
  owned {n m} hm := by
    rcases (h.mem_children_add c).mp hm with hm | ⟨rfl, rfl⟩
    · exact (Function.update_of_ne (Nat.ne_of_lt (h.ordered hm).2) ..).trans (h.owned hm)
    · exact Function.update_self ..
  once n := by
    rw [h.children_add]
    split
    · refine List.nodup_append.mpr ⟨h.once _, List.pairwise_singleton _ _, fun a ha b hb => ?_⟩
      rw [List.mem_singleton.mp hb]
      exact Nat.ne_of_lt (h.ordered ha).2
    · exact h.once n
  apart n := by
    -- what the nodes in a list are by themselves does not change
    have hold : ∀ n, (l.children n).IsChain fun a b => ¬ (l.add c).Texts a b := by
      intro n
      refine (h.apart n).imp_of_mem_imp fun a b ha hb hab => ?_
      rwa [Texts, content_add_of_lt c (h.ordered ha).2, content_add_of_lt c (h.ordered hb).2]
    rw [h.children_add]
    split
    · refine (hold _).append (List.IsChain.singleton _) fun a ha b hb htexts => ?_
      obtain rfl : b = l.size := (Option.some.inj hb).symm
      have ha : (l.children l.current).getLast? = some a := ha
      rw [Texts, content_add_size, content_add_of_lt c (h.ordered (List.mem_of_getLast? ha)).2]
        at htexts
      have hnone := hc htexts.2
      rw [lastText?, ha, Option.bind_some, Option.map_eq_none_iff] at hnone
      rw [hnone] at htexts
      exact Bool.noConfusion htexts.1
    · exact hold n
  childless {n} hn := by
    rcases Nat.lt_trichotomy n l.size with hlt | rfl | hgt
    · rw [content_add_of_lt c hlt] at hn
      have hne : n ≠ l.current := by
        rintro rfl
        rw [h.holdsNodes (current_mem l)] at hn
        exact Bool.noConfusion hn
      rw [h.children_add, if_neg hne]
      exact h.childless hn
    · exact h.children_add_size c
    · have := h.current_lt
      rw [h.children_add, if_neg (by omega)]
      exact h.children_eq_nil (Nat.le_of_lt hgt)
  chain := h.chain.imp_of_mem_imp fun inner outer hinner _ hlast => h.isLast_add c hinner hlast
  isOpen n hn := by
    obtain ⟨tag, htag, hopen⟩ := h.isOpen n hn
    have hlt := h.lt_size (List.mem_append_left _ hn)
    exact ⟨tag, (content_add_of_lt c hlt).trans htag, hopen⟩

/-- Any node but a text may be entered. -/
theorem addOther (h : l.WellFormed) (hc : c.text? = none) : (l.add c).WellFormed := by
  refine h.add fun htext => ?_
  rw [hc] at htext
  cases htext

/-- **Opening an element keeps a ledger well formed.** -/
theorem openElement (h : l.WellFormed) (hchildless : tag.isChildless = false)
    (hclosed : tag.closed = false) : (l.openElement tag).WellFormed := by
  have hadd : (l.add (.element tag)).WellFormed := h.addOther rfl
  refine { hadd with chain := ?_, isOpen := ?_ }
  · have hlast : (l.add (.element tag)).IsLast l.size l.current := by
      rw [IsLast, h.children_add, if_pos rfl, List.getLast?_concat]
    show (l.size :: (l.stack ++ [0])).IsChain (l.add (.element tag)).IsLast
    refine hadd.chain.cons fun outer houter => ?_
    have hcurrent : outer = l.current := by
      change outer ∈ (l.stack ++ [0]).head? at houter
      unfold Ledger.current
      cases hstack : l.stack with
      | nil =>
        rw [hstack] at houter
        exact (Option.some.inj houter).symm
      | cons first stack =>
        rw [hstack] at houter
        exact (Option.some.inj houter).symm
    rw [hcurrent]
    exact hlast
  · intro n hn
    rcases List.mem_cons.mp hn with rfl | hn
    · exact ⟨tag, content_add_size l _, hchildless, hclosed⟩
    · exact hadd.isOpen n hn

/-! ### Closing elements and writing nodes anew -/

/-- Elements may be left without being closed. -/
theorem leave (h : l.WellFormed) (hsuffix : stack <:+ l.stack) :
    { l with stack := stack }.WellFormed :=
  { h with
    chain := h.chain.suffix (by
      obtain ⟨inside, hinside⟩ := hsuffix
      exact ⟨inside, by rw [← hinside, List.append_assoc]⟩)
    isOpen := fun n hn => h.isOpen n (hsuffix.subset hn) }

/-- **A shut node may be entered anew** with a content of the same sort. -/
theorem revise (h : l.WellFormed) (hn : l.IsShut n)
    (htext : c.text?.isSome = (l.content n).text?.isSome)
    (hholds : c.holdsNodes = (l.content n).holdsNodes) : (l.revise n c).WellFormed := by
  have hsorts : ∀ m, ((l.revise n c).content m).text?.isSome = (l.content m).text?.isSome
      ∧ ((l.revise n c).content m).holdsNodes = (l.content m).holdsNodes := by
    intro m
    by_cases hm : m = n
    · subst hm
      rw [content_revise_self]
      exact ⟨htext, hholds⟩
    · rw [content_revise_of_ne c hm]
      exact ⟨rfl, rfl⟩
  refine { h with document := ?_, apart := ?_, childless := ?_, isOpen := ?_ }
  · refine ⟨?_, h.document.2⟩
    exact (content_revise_of_ne c (Nat.ne_of_lt hn.pos)).trans h.document.1
  · intro m
    refine (h.apart m).imp fun a b hab => ?_
    rwa [Texts, (hsorts a).1, (hsorts b).1]
  · intro m hm
    rw [(hsorts m).2] at hm
    exact h.childless hm
  · intro m hm
    obtain ⟨tag, htag, hopen⟩ := h.isOpen m hm
    have hne : m ≠ n := fun heq => hn.notMem (heq ▸ hm)
    exact ⟨tag, (content_revise_of_ne c hne).trans htag, hopen⟩

/-- **Adding text keeps a ledger well formed.** -/
theorem addText (h : l.WellFormed) (data : Text) : (l.addText data).WellFormed := by
  unfold Ledger.addText
  split
  · rename_i n before hlast
    obtain ⟨hlast, hcontent⟩ := lastText?_eq_some_iff.mp hlast
    have hshut := h.isShut_of_mem_current (List.mem_of_getLast? hlast)
    refine h.revise hshut ?_ ?_ <;> rw [hcontent] <;> rfl
  · rename_i hlast
    exact h.add fun _ => hlast

/-- **Closing elements keeps a ledger well formed.** -/
theorem closeUpTo (h : l.WellFormed) {name : Text} {l' : Ledger} (hsuffix : stack <:+ l.stack)
    (hclose : Ledger.closeUpTo name l stack = some l') : l'.WellFormed := by
  induction stack with
  | nil => cases hclose
  | cons n stack ih =>
    have hrest : stack <:+ l.stack := (List.suffix_cons n stack).trans hsuffix
    rw [Ledger.closeUpTo] at hclose
    split at hclose
    · rename_i tag htag
      rw [Content.tag?_eq_some_iff] at htag
      split at hclose
      · obtain rfl := Option.some.inj hclose
        have hn : n ∈ l.stack := hsuffix.subset List.mem_cons_self
        have hnodup : (n :: stack).Nodup := h.nodup_stack.sublist hsuffix.sublist
        refine (h.leave hrest).revise ⟨h.pos_of_mem_stack hn, h.lt_size (List.mem_append_left _ hn),
          (List.nodup_cons.mp hnodup).1⟩ ?_ ?_ <;> rw [htag] <;> rfl
      · exact ih hrest hclose
    · exact ih hrest hclose

/-- **Each event keeps a ledger well formed.** -/
theorem take (h : l.WellFormed) (event : Event) : (l.take event).WellFormed := by
  cases event with
  | startTag name attributes source =>
    simp only [Ledger.take]
    split
    · exact h.addOther rfl
    · rename_i hvoid
      exact h.openElement (by simpa [Tag.isChildless] using hvoid) rfl
  | emptyTag name attributes source => exact h.addOther rfl
  | endTag name =>
    simp only [Ledger.take]
    cases hclose : Ledger.closeUpTo name l l.stack with
    | none => exact h.addText _
    | some l' => exact h.closeUpTo (List.suffix_refl _) hclose
  | data text | reference text => exact h.addText text
  | comment text | declaration text | markedSection text | instruction text =>
    exact h.addOther rfl

/-- Several events keep a ledger well formed. -/
theorem foldl_take (h : l.WellFormed) (events : List Event) :
    (events.foldl Ledger.take l).WellFormed := by
  induction events generalizing l with
  | nil => exact h
  | cons event events ih => exact ih (h.take event)

theorem ofEvents (events : List Event) : (Ledger.ofEvents events).WellFormed :=
  empty.foldl_take events

end WellFormed

/-! ## Nodes that are shut -/

/-- A node stays shut, and the same nodes stand inside. -/
structure KeptShut (l l' : Ledger) (n : Nat) : Prop where
  isShut : l'.IsShut n
  children : l'.children n = l.children n

theorem KeptShut.add (h : l.WellFormed) (c : Content) (hn : l.IsShut n) : KeptShut l (l.add c) n where
  isShut := ⟨hn.pos, Nat.lt_succ_of_lt hn.lt, hn.notMem⟩
  children := by
    rw [h.children_add, if_neg hn.ne_current]

theorem KeptShut.addText (h : l.WellFormed) (data : Text) (hn : l.IsShut n) :
    KeptShut l (l.addText data) n := by
  unfold Ledger.addText
  split
  · exact ⟨⟨hn.pos, hn.lt, hn.notMem⟩, rfl⟩
  · exact .add h _ hn

theorem KeptShut.closeUpTo {name : Text} {l' : Ledger} (hn : l.IsShut n) (hsuffix : stack <:+ l.stack)
    (hclose : Ledger.closeUpTo name l stack = some l') : KeptShut l l' n := by
  induction stack with
  | nil => cases hclose
  | cons m stack ih =>
    have hrest : stack <:+ l.stack := (List.suffix_cons m stack).trans hsuffix
    rw [Ledger.closeUpTo] at hclose
    split at hclose
    · split at hclose
      · obtain rfl := Option.some.inj hclose
        exact ⟨⟨hn.pos, hn.lt, fun hmem => hn.notMem (hrest.subset hmem)⟩, rfl⟩
      · exact ih hrest hclose
    · exact ih hrest hclose

/-- **No event adds to a node that is shut**, and none opens it again. -/
theorem KeptShut.take (h : l.WellFormed) (hn : l.IsShut n) (event : Event) :
    KeptShut l (l.take event) n := by
  cases event with
  | startTag name attributes source =>
    simp only [Ledger.take]
    split
    · exact .add h _ hn
    · obtain ⟨⟨hpos, hlt, hnotMem⟩, hchildren⟩ :=
        KeptShut.add h (.element ⟨name, distinct attributes, some source, false, false, []⟩) hn
      refine ⟨⟨hpos, hlt, fun hmem => ?_⟩, hchildren⟩
      rcases List.mem_cons.mp hmem with rfl | hmem
      · exact Nat.lt_irrefl _ hn.lt
      · exact hn.notMem hmem
  | emptyTag name attributes source => exact .add h _ hn
  | endTag name =>
    simp only [Ledger.take]
    cases hclose : Ledger.closeUpTo name l l.stack with
    | none => exact .addText h _ hn
    | some l' => exact .closeUpTo hn (List.suffix_refl _) hclose
  | data text | reference text => exact .addText h text hn
  | comment text | declaration text | markedSection text | instruction text => exact .add h _ hn

/-- Several events add nothing to a node that is shut. -/
theorem KeptShut.foldl_take (h : l.WellFormed) (hn : l.IsShut n) (events : List Event) :
    KeptShut l (events.foldl Ledger.take l) n := by
  induction events generalizing l with
  | nil => exact ⟨hn, rfl⟩
  | cons event events ih =>
    have hfirst := KeptShut.take h hn event
    have hrest := ih (h.take event) hfirst.isShut
    exact ⟨hrest.isShut, hrest.children.trans hfirst.children⟩

/-! ## Texts that follow each other -/

/-- An event that adds text: a text, a reference, or an end tag that no open element waits for. -/
def IsTextual (l : Ledger) : Event → Prop
  | .data _ | .reference _ => True
  | .endTag name => ∀ n ∈ l.stack, ∀ tag, l.content n = .element tag → tag.name ≠ name
  | _ => False

theorem closeUpTo_eq_none {name : Text}
    (h : ∀ n ∈ stack, ∀ tag, l.content n = .element tag → tag.name ≠ name) :
    closeUpTo name l stack = none := by
  induction stack with
  | nil => rfl
  | cons n stack ih =>
    rw [List.forall_mem_cons] at h
    rw [closeUpTo]
    split
    · rename_i tag htag
      rw [if_neg (by simpa using h.1 tag (Content.tag?_eq_some_iff.mp htag))]
      exact ih h.2
    · exact ih h.2

/-- Such an event adds its source as text. -/
theorem take_eq_addText {event : Event} (h : l.IsTextual event) :
    l.take event = l.addText event.source := by
  cases event with
  | endTag name =>
    rw [take, closeUpTo_eq_none h]
    rfl
  | data text | reference text => rfl
  | _ => exact h.elim

/-- The text at the end of the innermost open node, empty if there is none. -/
def endingText (l : Ledger) : Text :=
  (l.lastText?.map Prod.snd).getD []

/-- Added text makes one text with the one in front of it. -/
theorem lastText?_addText (h : l.WellFormed) (data : Text) :
    ∃ n, (l.addText data).lastText? = some (n, l.endingText ++ data) := by
  unfold addText
  split
  · rename_i n before hlast
    obtain ⟨hlast', -⟩ := lastText?_eq_some_iff.mp hlast
    refine ⟨n, lastText?_eq_some_iff.mpr ⟨hlast', ?_⟩⟩
    rw [content_revise_self, endingText, hlast]
    rfl
  · rename_i hlast
    refine ⟨l.size, lastText?_eq_some_iff.mpr ⟨?_, ?_⟩⟩
    · show (l.add (.text data)).IsLast l.size l.current
      rw [IsLast, h.children_add, if_pos rfl, List.getLast?_concat]
    · rw [content_add_size, endingText, hlast]
      rfl

/-- Added text leaves the open elements open, with their names. -/
theorem isTextual_addText (h : l.WellFormed) (data : Text) {event : Event} (he : l.IsTextual event) :
    (l.addText data).IsTextual event := by
  have hstack : (l.addText data).stack = l.stack := by
    unfold addText
    split <;> rfl
  have hcontent : ∀ n ∈ l.stack, (l.addText data).content n = l.content n := by
    intro n hn
    unfold addText
    split
    · rename_i m before hlast
      obtain ⟨hlast, -⟩ := lastText?_eq_some_iff.mp hlast
      have hshut := h.isShut_of_mem_current (List.mem_of_getLast? hlast)
      exact content_revise_of_ne _ fun heq => hshut.notMem (heq ▸ hn)
    · exact content_add_of_lt _ (h.lt_size (List.mem_append_left _ hn))
  cases event with
  | endTag name =>
    intro n hn tag htag
    rw [hstack] at hn
    rw [hcontent n hn] at htag
    exact he n hn tag htag
  | data text | reference text => trivial
  | _ => exact he.elim

/-- **Texts that follow each other become one text node**, whatever references and end tags without
element stand among them. -/
theorem lastText?_foldl_take (h : l.WellFormed) {run : List Event} (hrun : ∀ e ∈ run, l.IsTextual e)
    (hne : run ≠ []) :
    ∃ n, (run.foldl take l).lastText? = some (n, l.endingText ++ run.flatMap Event.source) := by
  induction run generalizing l with
  | nil => exact absurd rfl hne
  | cons event run ih =>
    rw [List.forall_mem_cons] at hrun
    have htext := take_eq_addText hrun.1
    obtain ⟨n, hlast⟩ := lastText?_addText h event.source
    rw [List.foldl_cons, List.flatMap_cons, ← List.append_assoc]
    cases run with
    | nil => exact ⟨n, by rw [htext, List.foldl_nil, List.flatMap_nil, List.append_nil, hlast]⟩
    | cons next run =>
      have hkept : ∀ e ∈ next :: run, (l.take event).IsTextual e := by
        rw [htext]
        exact fun e he => isTextual_addText h _ (hrun.2 e he)
      have hending : (l.take event).endingText = l.endingText ++ event.source := by
        rw [htext, endingText, hlast]
        rfl
      rw [← hending]
      exact ih (h.take event) hkept (List.cons_ne_nil _ _)

/-- A binding that a reference and an end tag without element interrupt stays one text. -/
example :
    (ofEvents [.startTag "p".toList [] "<p>".toList, .data "[[a".toList, .reference "&amp;".toList,
        .endTag "i".toList, .data "b]]".toList]).lastText?
      = some (2, "[[a&amp;</i>b]]".toList) := by
  decide +kernel

end Ledger
end DataBinding.Markup
