/-
# Raw text

Inside a script or style sheet everything is text up to the end tag of the element.  A document that
was read therefore holds no such element with another node than one text, or with its own end tag in
this text.  The search for the end tag also finds what is none, such as one with the long s; a raw
element is left open only if nothing stands behind such a false end.  The key facts are

* `rawStep_piece` : what one step can do inside a raw element;
* `tidy_of_parse` : the raw elements of a document that was read are tidy.
-/
import DataBinding.Proofs.Markup.EndTag
import DataBinding.Proofs.Markup.Listing
import DataBinding.Proofs.Markup.Reading
import DataBinding.Proofs.Markup.Writing

namespace DataBinding.Markup

/-! ## Steps inside a raw element -/

/-- In a text that the given rest follows, the end tag of an element starts nowhere. -/
def Unended (name t rest : Text) : Prop :=
  ∀ u v, t = u ++ v → v ≠ [] → ¬ EndsElement name (v ++ rest)

/-- What is found in the search for the end tag of an element, up to its end. -/
structure IsFound (name v : Text) : Prop where
  found : endsRaw name v = true
  form : ∃ w, v = '<' :: (w ++ ['>']) ∧ ∀ c, IsMark c → c ∉ name → c ∉ w

/-- What is cut off inside a raw element: the text in front of what is found in the search for the
end tag, or what is found, if it is not the end tag. -/
inductive RawCut (name cut rest : Text) : Prop
  | text (nonempty : cut ≠ []) (ahead : endsRaw name rest = true)
      (before : ∀ u v, cut = u ++ v → v ≠ [] → endsRaw name (v ++ rest) = false)
  | falseEnd (found : IsFound name cut) (ends : ¬ EndsElement name (cut ++ rest))

/-- What one step can do inside a raw element: it takes some text, or the end tag, or it stops, since
nothing is found in the search for the end tag. -/
inductive RawStep (name t : Text) : Step → Prop
  | data {cut rest : Text} (split : t = cut ++ rest) (isCut : RawCut name cut rest) :
      RawStep name t (.advance [.data cut] cut.length (some name))
  | close {n : Nat} (ends : EndsElement name t) :
      RawStep name t (.advance [.endTag name] n none)
  | stop (missing : ∀ u v, t = u ++ v → v ≠ [] → endsRaw name v = false) :
      RawStep name t (.stop [] 0)

/-- A text ends with what is found in the search for the end tag of an element. -/
def EndsFalsely (name t : Text) : Prop :=
  ∃ u v, t = u ++ v ∧ IsFound name v

section Steps

variable {name t cut rest : Text}

/-- A search fails in front of the place where it succeeds. -/
theorem eq_none_of_firstMatch? {α : Type} {reader : Text → Option α} {n : Nat} {a : α}
    (h : firstMatch? reader t = some (n, a)) {u v : Text} (ht : t = u ++ v) (hu : u.length < n) :
    reader v = none := by
  induction t generalizing n u with
  | nil => cases h
  | cons c t ih =>
    rw [firstMatch?] at h
    split at h
    · cases h
      exact absurd hu (Nat.not_lt_zero _)
    · rename_i hreader
      obtain ⟨⟨m, b⟩, hm, heq⟩ := Option.map_eq_some_iff.mp h
      cases heq
      cases u with
      | nil =>
        rw [List.nil_append] at ht
        rwa [← ht]
      | cons x u => exact ih hm (List.cons.inj ht).2 (by simpa using hu)

/-- A search that fails succeeds nowhere. -/
theorem eq_none_of_firstMatch?_eq_none {α : Type} {reader : Text → Option α}
    (h : firstMatch? reader t = none) {u v : Text} (ht : t = u ++ v) (hv : v ≠ []) :
    reader v = none := by
  induction t generalizing u with
  | nil => exact absurd (List.append_eq_nil_iff.mp ht.symm).2 hv
  | cons c t ih =>
    rw [firstMatch?] at h
    split at h
    · cases h
    · rename_i hreader
      cases u with
      | nil =>
        rw [List.nil_append] at ht
        rwa [← ht]
      | cons x u => exact ih (Option.map_eq_none_iff.mp h) (List.cons.inj ht).2

/-- The characters before the end of a tag. -/
theorem before?_append {u r : Text} (hu : '>' ∉ u) : before? (· == '>') (u ++ '>' :: r) = some u.length := by
  have htake : (u ++ '>' :: r).takeWhile (!(· == '>') ·) = u := by
    refine Text.takeWhile_append_until (fun x hx => ?_) (by simp)
    rw [beq_eq_false_iff_ne]
    exact fun h => hu (h ▸ hx)
  unfold before?
  simp [htake]

/-- What is found starts with the one mark that starts a tag in it. -/
theorem IsFound.exists_cons {v : Text} (h : IsFound name v) :
    ∃ r, v = '<' :: r ∧ ∀ c, IsMark c → c ∉ name → c ≠ '>' → c ∉ r := by
  obtain ⟨w, rfl, hw⟩ := h.form
  refine ⟨w ++ ['>'], rfl, fun c hmark hname hgt hmem => ?_⟩
  rcases List.mem_append.mp hmem with hmem | hmem
  · exact hw c hmark hname hmem
  · exact hgt (List.mem_singleton.mp hmem)

/-- A false end stands behind what it does not hold. -/
theorem EndsFalsely.of_append_cons {a b : Text} {c : Char} (hmark : IsMark c) (hname : c ∉ name)
    (hlt : c ≠ '<') (hgt : c ≠ '>') (h : EndsFalsely name (a ++ c :: b)) : EndsFalsely name b := by
  obtain ⟨u, v, hsplit, hv⟩ := h
  obtain ⟨r, rfl, hr⟩ := hv.exists_cons
  rcases List.append_eq_append_iff.mp hsplit with ⟨x, -, hx⟩ | ⟨x, -, hx⟩
  · cases x with
    | nil => exact absurd (List.cons.inj hx).1 hlt
    | cons d x => exact ⟨x, _, (List.cons.inj hx).2, hv⟩
  · cases x with
    | nil => exact absurd (List.cons.inj hx).1.symm hlt
    | cons d x =>
      refine absurd ?_ (hr c hmark hname hgt)
      rw [(List.cons.inj hx).2]
      exact List.mem_append_right _ List.mem_cons_self

theorem EndsFalsely.append_left {t : Text} (h : EndsFalsely name t) (front : Text) :
    EndsFalsely name (front ++ t) := by
  obtain ⟨u, v, rfl, hv⟩ := h
  exact ⟨front ++ u, v, by rw [List.append_assoc], hv⟩

theorem RawCut.ne_nil (h : RawCut name cut rest) : cut ≠ [] := by
  cases h with
  | text nonempty => exact nonempty
  | falseEnd found =>
    obtain ⟨r, rfl, -⟩ := found.exists_cons
    exact List.cons_ne_nil _ _

/-- The end tag does not start in what is cut off. -/
theorem RawCut.unended (hlt : '<' ∉ name) (h : RawCut name cut rest) : Unended name cut rest := by
  intro u v hcut hv hends
  cases h with
  | text _ _ before =>
    have hfound := hends.endsRaw
    rw [before u v hcut hv] at hfound
    cases hfound
  | falseEnd found ends =>
    obtain ⟨r, rfl, hr⟩ := found.exists_cons
    cases u with
    | nil => exact ends (hcut ▸ hends)
    | cons x u =>
      -- an end tag inside what is found would start with a mark that it does not hold
      obtain ⟨y, v, rfl⟩ := List.exists_cons_of_ne_nil hv
      obtain ⟨_, hstart⟩ := hends.exists_cons
      obtain rfl : y = '<' := (List.cons.inj hstart).1
      refine hr '<' (by decide) hlt (by decide) ?_
      rw [(List.cons.inj hcut).2]
      exact List.mem_append_right _ List.mem_cons_self

/-- What is found at the end of a text stands behind what is cut off, or is cut off as a whole. -/
theorem RawCut.endsFalsely (hlt : '<' ∉ name) (hgt : '>' ∉ name) (h : RawCut name cut rest)
    (hends : EndsFalsely name (cut ++ rest)) : rest = [] ∨ EndsFalsely name rest := by
  obtain ⟨u, v, huv, hv⟩ := hends
  rcases List.append_eq_append_iff.mp huv with ⟨x, -, rfl⟩ | ⟨x, rfl, rfl⟩
  · exact .inr ⟨x, v, rfl, hv⟩
  · cases x with
    | nil => exact .inr ⟨[], _, rfl, hv⟩
    | cons c x =>
      left
      cases h with
      | text _ _ before =>
        have hfound := hv.found
        rw [before u (c :: x) rfl (by simp)] at hfound
        cases hfound
      | falseEnd found =>
        obtain ⟨r, hr, hmarks⟩ := found.exists_cons
        obtain ⟨w, hw, hgts⟩ := hv.form
        obtain rfl : c = '<' := (List.cons.inj hw).1
        cases u with
        | cons y u =>
          refine absurd ?_ (hmarks '<' (by decide) hlt (by decide))
          rw [← (List.cons.inj hr).2]
          exact List.mem_append_right _ List.mem_cons_self
        | nil =>
          -- both are found at one place, and end at the first end of a tag
          obtain ⟨w', hw', -⟩ := found.form
          have hboth : w' ++ '>' :: rest = w ++ ['>'] := by
            have := (List.cons.inj hw).2
            rw [(List.cons.inj hw').2] at this
            simpa using this
          rcases List.append_eq_append_iff.mp hboth with ⟨z, hz, hrest⟩ | ⟨z, rfl, hrest⟩
          · cases z with
            | nil => simpa using hrest
            | cons d z =>
              obtain rfl : d = '>' := (List.cons.inj hrest).1.symm
              refine absurd ?_ (hgts '>' (by decide) hgt)
              rw [hz]
              exact List.mem_append_right _ List.mem_cons_self
          · have hlength := congrArg List.length hrest
            simp only [List.length_append, List.length_cons, List.length_nil] at hlength
            exact List.length_eq_zero_iff.mp (by omega)

/-- What is found in the search for the end tag is the end tag, or text. -/
theorem rawStep_endTag (hgt : '>' ∉ name) (h : endsRaw name t = true) :
    RawStep name t (endTag (some name) t) := by
  obtain ⟨w, rest, rfl, hw, hfound⟩ := exists_of_endsRaw h
  have hclose : '>' ∉ '<' :: w := by simpa using hw '>' (by decide) hgt
  have hbefore : before? (· == '>') ('<' :: (w ++ '>' :: rest)) = some (w.length + 1) :=
    before?_append hclose
  have htake : ('<' :: (w ++ '>' :: rest)).take (w.length + 1 + 1) = '<' :: (w ++ ['>']) :=
    take_append_cons ('<' :: w) rest '>'
  have hlength : w.length + 1 + 1 = ('<' :: (w ++ ['>'])).length := by simp
  have hsplit : '<' :: (w ++ '>' :: rest) = ('<' :: (w ++ ['>'])) ++ rest := by simp
  have hdata : ¬ EndsElement name ('<' :: (w ++ '>' :: rest)) →
      RawStep name ('<' :: (w ++ '>' :: rest))
        (.advance [.data ('<' :: (w ++ ['>']))] (w.length + 1 + 1) (some name)) := by
    intro hnot
    rw [hlength]
    exact .data hsplit (.falseEnd ⟨hfound [], w, rfl, hw⟩ (hsplit ▸ hnot))
  unfold endTag
  rw [hbefore]
  dsimp only
  rw [htake]
  cases hplain : plainEndTag? ('<' :: (w ++ '>' :: rest)) with
  | none => exact hdata (by simp [EndsElement, hplain])
  | some found =>
    dsimp only
    split
    · rename_i hname
      rw [eq_of_beq hname]
      exact .close (by rw [EndsElement, hplain, Option.map_some, eq_of_beq hname])
    · rename_i hname
      refine hdata fun hends => hname ?_
      rw [EndsElement, hplain, Option.map_some] at hends
      exact beq_iff_eq.mpr (Option.some.inj hends)

/-- **What one step can do inside a raw element.** -/
theorem rawStep_piece (atEnd : Bool) (t : Text) (hgt : '>' ∉ name) :
    RawStep name t (piece atEnd (some name) t) := by
  have hmissing : ∀ {v : Text}, (if endsRaw name v then some () else none) = none →
      endsRaw name v = false := by
    intro v h
    simpa using h
  unfold piece
  dsimp only
  split
  · rename_i hnone
    exact .stop fun u v ht hv => hmissing (eq_none_of_firstMatch?_eq_none hnone ht hv)
  · rename_i hmatch
    obtain ⟨u, r, rfl, hu, hr⟩ := eq_append_of_firstMatch? hmatch
    obtain rfl : u = [] := List.length_eq_zero_iff.mp hu
    split at hr
    · rename_i hfound
      exact rawStep_endTag hgt hfound
    · cases hr
  · rename_i hpos hmatch
    obtain ⟨u, r, rfl, rfl, hr⟩ := eq_append_of_firstMatch? hmatch
    rw [List.take_left]
    refine .data rfl (.text (fun h => hpos (by rw [h]; rfl)) (by simpa using hr) ?_)
    rintro u' v rfl hv
    refine hmissing (eq_none_of_firstMatch? hmatch (List.append_assoc ..) ?_)
    rw [List.length_append]
    have := List.length_pos_iff.mpr hv
    omega

end Steps

/-! ## Tidy documents -/

/-- The nodes for a text: none if there is nothing. -/
def textNodes (t : Text) : List Node :=
  if t = [] then [] else [.text t]

/-- What a raw element may hold: a text without the end tag of the element.  If there is any, the
element was opened, and it was closed unless the text ends with a false end. -/
structure Tag.Holds (tag : Tag) (t : Text) : Prop where
  unended : ¬ HoldsEnd tag.name t
  opened : t = [] ∨ tag.selfClosing = false
  closed : t = [] ∨ tag.closed = true ∨ EndsFalsely tag.name t

mutual

/-- A raw element holds one text at most, and so do all below. -/
def Node.Tidy : Node → Prop
  | .element tag children =>
    (isRawText tag.name = true → ∃ t, children = textNodes t ∧ tag.Holds t) ∧
      Node.TidyAll children
  | _ => True

/-- Nodes that follow each other are tidy. -/
def Node.TidyAll : List Node → Prop
  | [] => True
  | node :: nodes => node.Tidy ∧ Node.TidyAll nodes

end

theorem Node.tidyAll_iff {nodes : List Node} :
    Node.TidyAll nodes ↔ ∀ node ∈ nodes, node.Tidy := by
  induction nodes with
  | nil => simp [Node.TidyAll]
  | cons node nodes ih => simp [Node.TidyAll, ih]

/-- The nodes for a text are tidy. -/
theorem tidy_of_mem_textNodes {t : Text} : ∀ node ∈ textNodes t, node.Tidy := by
  intro node hnode
  unfold textNodes at hnode
  split at hnode
  · cases hnode
  · rw [List.mem_singleton.mp hnode]
    exact trivial

theorem reverse_textNodes (t : Text) : (textNodes t).reverse = textNodes t := by
  unfold textNodes
  split <;> rfl

/-- The names of raw elements hold no mark of a tag. -/
theorem notMem_of_isRawText {name : Text} (h : isRawText name = true) : '<' ∉ name ∧ '>' ∉ name := by
  unfold isRawText at h
  rw [Bool.or_eq_true, beq_iff_eq, beq_iff_eq] at h
  rcases h with rfl | rfl <;> decide

namespace Growth

/-- Everything complete in a tree under construction is tidy, and no raw element is open. -/
structure Calm (g : Growth) : Prop where
  nodes : ∀ node ∈ g.nodes, node.Tidy
  outer : ∀ entry ∈ g.outer, isRawText entry.1.name = false ∧ ∀ node ∈ entry.2, node.Tidy

variable {g : Growth} {nodes : List Node} {outer : List (Tag × List Node)}

theorem Calm.add (h : g.Calm) {node : Node} (hnode : node.Tidy) : (g.add node).Calm :=
  ⟨List.forall_mem_cons.mpr ⟨hnode, h.nodes⟩, h.outer⟩

theorem Calm.addText (h : g.Calm) (data : Text) : (g.addText data).Calm := by
  obtain ⟨nodes, outer⟩ := g
  unfold Growth.addText
  split
  · rename_i before rest hnodes
    refine ⟨List.forall_mem_cons.mpr ⟨trivial, fun node hnode => h.nodes node ?_⟩, h.outer⟩
    rw [hnodes]
    exact List.mem_cons_of_mem _ hnode
  · exact ⟨List.forall_mem_cons.mpr ⟨trivial, h.nodes⟩, h.outer⟩

/-- An element that is no raw one is tidy if its contents are. -/
theorem tidy_element {tag : Tag} (htag : isRawText tag.name = false)
    (hnodes : ∀ node ∈ nodes, node.Tidy) : (Node.element tag nodes.reverse).Tidy :=
  ⟨by simp [htag], Node.tidyAll_iff.mpr fun node hnode => hnodes node (List.mem_reverse.mp hnode)⟩

/-- A raw element that holds one text is tidy. -/
theorem tidy_rawElement {tag : Tag} {t : Text} (ht : tag.Holds t) :
    (Node.element tag (textNodes t).reverse).Tidy := by
  rw [reverse_textNodes]
  exact ⟨fun _ => ⟨t, rfl, ht⟩, Node.tidyAll_iff.mpr tidy_of_mem_textNodes⟩

theorem calm_closeUpTo {name : Text} (h : closeUpTo name nodes outer = some g)
    (hcalm : Calm ⟨nodes, outer⟩) : g.Calm := by
  induction outer generalizing nodes with
  | nil => simp [closeUpTo] at h
  | cons entry outer ih =>
    obtain ⟨tag, before⟩ := entry
    obtain ⟨htag, hbefore⟩ := hcalm.outer (tag, before) List.mem_cons_self
    have houter := fun e he => hcalm.outer e (List.mem_cons_of_mem _ he)
    rw [closeUpTo] at h
    split at h
    · obtain rfl := Option.some.inj h
      exact ⟨List.forall_mem_cons.mpr ⟨tidy_element htag hcalm.nodes, hbefore⟩, houter⟩
    · exact ih h ⟨List.forall_mem_cons.mpr ⟨tidy_element htag hcalm.nodes, hbefore⟩, houter⟩

theorem tidy_finish (hcalm : Calm ⟨nodes, outer⟩) : ∀ node ∈ finish nodes outer, node.Tidy := by
  induction outer generalizing nodes with
  | nil => exact fun node hnode => hcalm.nodes node (List.mem_reverse.mp hnode)
  | cons entry outer ih =>
    obtain ⟨tag, before⟩ := entry
    obtain ⟨htag, hbefore⟩ := hcalm.outer (tag, before) List.mem_cons_self
    exact ih ⟨List.forall_mem_cons.mpr ⟨tidy_element htag hcalm.nodes, hbefore⟩,
      fun e he => hcalm.outer e (List.mem_cons_of_mem _ he)⟩

/-- What was cut off inside a raw element, in front of the rest. -/
def Seam (name t rest : Text) : Prop :=
  t = [] ∨ EndsFalsely name t ∨ endsRaw name rest = true

/-- A tree under construction agrees with the raw element that is open in the cutting: it is the
innermost open element, and holds a text in which, before the rest, its end tag does not start. -/
inductive Follows (rest : Text) : Option Text → Growth → Prop
  | plain {g : Growth} (calm : g.Calm) : Follows rest none g
  | raw {tag : Tag} {t : Text} {before : List Node} {outer : List (Tag × List Node)}
      (raw : isRawText tag.name = true) (opened : tag.selfClosing = false)
      (calm : Calm ⟨before, outer⟩) (unended : Unended tag.name t rest)
      (seam : Seam tag.name t rest) :
      Follows rest (some tag.name) ⟨textNodes t, (tag, before) :: outer⟩

/-- Text is added to the text of a raw element. -/
theorem addText_textNodes (t data : Text) (hdata : data ≠ []) (outer : List (Tag × List Node)) :
    addText ⟨textNodes t, outer⟩ data = ⟨textNodes (t ++ data), outer⟩ := by
  by_cases ht : t = []
  · simp [addText, textNodes, ht, hdata]
  · simp [addText, textNodes, ht]

/-- The start tag of a raw element opens it. -/
theorem take_startTag_of_isRawText {name : Text} (h : isRawText name = true)
    (attributes : List (Text × Option Text)) (source : Text) (g : Growth) :
    g.take (.startTag name attributes source)
      = g.openElement ⟨name, distinct attributes, some source, false, false, []⟩ := by
  have hvoid : voidElements.contains name = false := by
    unfold isRawText at h
    rw [Bool.or_eq_true, beq_iff_eq, beq_iff_eq] at h
    rcases h with rfl | rfl <;> decide
  simp only [take, hvoid, Bool.false_eq_true, if_false]

/-- A start tag opens a raw element, another element, or an element without contents. -/
theorem Calm.follows_startTag (h : g.Calm) {name : Text} {attributes : List (Text × Option Text)}
    {source rest : Text} :
    Follows rest (if isRawText name then some name else none)
      (g.take (.startTag name attributes source)) := by
  cases hraw : isRawText name with
  | true =>
    rw [take_startTag_of_isRawText hraw, if_pos rfl]
    exact @Follows.raw _ ⟨name, distinct attributes, some source, false, false, []⟩ [] _ _ hraw rfl h
      (fun u v huv hv => absurd (List.append_eq_nil_iff.mp huv.symm).2 hv) (.inl rfl)
  | false =>
    simp only [take, Bool.false_eq_true, if_false]
    split
    · exact .plain (h.add (@tidy_element [] _ hraw (by simp)))
    · exact .plain ⟨by simp [openElement], List.forall_mem_cons.mpr ⟨⟨hraw, h.nodes⟩, h.outer⟩⟩

/-- A complete piece outside raw elements. -/
theorem Calm.follows_advance (h : g.Calm) {t rest : Text} {events : List Event} {n : Nat}
    {next : Option Text} (hstep : Advance none t events n next) :
    Follows rest next (events.foldl take g) := by
  cases hstep with
  | data => exact .plain (h.addText _)
  | reference => exact .plain (h.addText _)
  | startTag => exact h.follows_startTag
  | emptyTag =>
    exact .plain (h.add ⟨fun _ => ⟨[], rfl, not_holdsEnd_of_notMem (by simp), .inl rfl, .inl rfl⟩,
      trivial⟩)
  | @endTag name =>
    refine .plain ?_
    show (take g (.endTag name)).Calm
    simp only [take]
    cases hclose : closeUpTo name g.nodes g.outer with
    | none => exact h.addText _
    | some closed => exact calm_closeUpTo hclose h
  | nothing => exact .plain h
  | declaration | instruction => exact .plain (h.add trivial)
  | @remark event _ _ _ _ _ rebuilt =>
    cases event with
    | comment | markedSection => exact .plain (h.add trivial)
    | endTag name =>
      refine .plain ?_
      show (take g (.endTag name)).Calm
      simp only [take]
      cases hclose : closeUpTo name g.nodes g.outer with
      | none => exact h.addText _
      | some closed => exact calm_closeUpTo hclose h
    | startTag | emptyTag | data | reference | declaration | instruction => cases rebuilt

/-- A stop outside raw elements. -/
theorem Calm.follows_halt (h : g.Calm) {atEnd : Bool} {t rest : Text} {events : List Event} {n : Nat}
    (hstep : Halt atEnd t events n) : Follows rest none (events.foldl take g) := by
  cases hstep with
  | here | lost => exact .plain h
  | sign => exact .plain (h.addText _)

end Growth

section Whole

open Growth

variable {atEnd : Bool} {raw last : Option Text} {t rest : Text} {pieces : List Piece} {g : Growth}

/-- One step inside a raw element keeps the tree in agreement with the cutting. -/
theorem Growth.Follows.step {name : Text} (h : Follows t (some name) g) {events : List Event} {n : Nat}
    {next : Option Text} (hstep : piece atEnd (some name) t = .advance events n next) :
    Follows (t.drop n) next (events.foldl take g) := by
  cases h with
  | @raw tag u before outer hraw opened calm unended seam =>
    obtain ⟨hlt, hgt⟩ := notMem_of_isRawText hraw
    have hform := rawStep_piece atEnd t hgt
    rw [hstep] at hform
    cases hform with
    | @data cut rest split isCut =>
      subst split
      have unended' := isCut.unended hlt
      rw [List.drop_left]
      show Follows rest _ (addText ⟨textNodes u, (tag, before) :: outer⟩ cut)
      rw [addText_textNodes u cut isCut.ne_nil]
      refine .raw hraw opened calm ?_ ?_
      · -- an end tag in the longer text would start in what was read before or in what was cut now
        intro v w hvw hw hends
        rcases List.append_eq_append_iff.mp hvw with ⟨x, -, hx⟩ | ⟨x, hx, rfl⟩
        · exact unended' x w hx hw hends
        · by_cases hnil : x = []
          · subst hnil
            exact unended' [] cut rfl isCut.ne_nil (by simpa using hends)
          · rw [List.append_assoc] at hends
            exact unended v x hx hnil hends
      · cases isCut with
        | text _ ahead => exact .inr (.inr ahead)
        | falseEnd found => exact .inr (.inl ⟨u, cut, rfl, found⟩)
    | close ends =>
      refine .plain ?_
      show (take _ (.endTag tag.name)).Calm
      simp only [take, closeUpTo, beq_self_eq_true, if_true, Option.getD_some]
      refine ⟨List.forall_mem_cons.mpr ⟨?_, calm.nodes⟩, calm.outer⟩
      refine @tidy_rawElement { tag with closed := true } u ⟨?_, .inr opened, .inr (.inl rfl)⟩
      rintro ⟨v, w, rfl, hw⟩
      obtain ⟨r, hr⟩ := hw.exists_cons
      exact unended v w rfl (by simp [hr]) (hw.append t)

/-- **The tree and the cutting agree** on the raw element that is open. -/
theorem Cuts.follows (h : Cuts atEnd raw t pieces last rest) (hg : Follows t raw g) :
    Follows rest last ((pieces.flatMap Piece.events).foldl take g) := by
  induction h generalizing g with
  | done => exact hg
  | @stop raw t events n hne hstep =>
    rw [List.flatMap_singleton]
    cases hg with
    | plain calm => exact calm.follows_halt (halt_of_piece hstep)
    | @raw tag u before outer hraw opened calm unended seam =>
      have hform := rawStep_piece atEnd t (notMem_of_isRawText hraw).2
      rw [hstep] at hform
      cases hform
      exact .raw hraw opened calm unended seam
  | pause => exact hg
  | next hne hstep _ ih =>
    rw [List.flatMap_cons, List.foldl_append]
    -- what follows is read with the element that is open behind the piece
    refine ih ?_
    cases hg with
    | plain calm => exact calm.follows_advance (advance_of_piece hne hstep)
    | raw hraw opened calm unended seam =>
      exact (Follows.raw hraw opened calm unended seam).step hstep
  | @plain raw _ t _ _ _ hstep =>
    rename_i ih
    rw [List.flatMap_cons, List.foldl_append]
    refine ih ?_
    cases hg with
    | plain calm => exact .plain (calm.addText _)
    | raw hraw =>
      have hform := rawStep_piece atEnd t (notMem_of_isRawText hraw).2
      rw [hstep] at hform
      cases hform

/-- Where the cutting stops inside a raw element, nothing is found in the search for its end tag. -/
theorem Cuts.endsRaw_eq_false {name : Text} (h : Cuts atEnd raw t pieces (some name) rest)
    (hraw : isRawText name = true) : endsRaw name rest = false := by
  have hgt := (notMem_of_isRawText hraw).2
  generalize hlast : some name = last at h
  induction h with
  | done => rfl
  | @stop raw t events n hne hstep =>
    subst hlast
    have hform := rawStep_piece atEnd t hgt
    rw [hstep] at hform
    cases hform with
    | stop missing => exact missing [] _ rfl hne
  | @pause raw t hne hstep =>
    subst hlast
    have hform := rawStep_piece atEnd t hgt
    rw [hstep] at hform
    cases hform
  | next _ _ _ ih => exact ih hlast
  | plain _ _ _ _ ih => exact ih hlast

/-- **A document that was read is tidy.** -/
theorem Document.tidy_of_parse {document : Document} (h : Document.parse t = .ok document) :
    Node.TidyAll document.children := by
  obtain ⟨read, hevents, rfl⟩ := Document.exists_events_of_parse h
  obtain ⟨first, raw, middle, later, last, rest, hfirst, hlater⟩ := exists_cuts_of_events hevents
  obtain rfl := Except.ok.inj ((events_of_cuts hfirst hlater).symm.trans hevents)
  have hempty : Follows t none Growth.empty := .plain ⟨by simp [Growth.empty], by simp [Growth.empty]⟩
  have hend := hlater.follows (hfirst.follows hempty)
  rw [← List.foldl_append] at hend
  refine Node.tidyAll_iff.mpr ?_
  unfold Document.ofEvents
  rw [List.foldl_append]
  generalize (first.flatMap Piece.events ++ later.flatMap Piece.events).foldl take Growth.empty = g
    at hend
  cases hend with
  | plain calm =>
    split
    · exact tidy_finish (calm.addText _)
    · exact tidy_finish calm
  | @raw tag u before outer hraw opened calm unended seam =>
    -- the open element ends with the document
    show ∀ node ∈ finish (.element tag (textNodes u).reverse :: before) outer, node.Tidy
    refine tidy_finish ⟨List.forall_mem_cons.mpr ⟨?_, calm.nodes⟩, calm.outer⟩
    refine tidy_rawElement ⟨?_, .inr opened, ?_⟩
    · rintro ⟨v, w, rfl, hw⟩
      obtain ⟨r, hr⟩ := hw.exists_cons
      exact unended v w rfl (by simp [hr]) (hw.append rest)
    · rcases seam with hnil | hends | hahead
      · exact .inl hnil
      · exact .inr (.inr hends)
      · rw [hlater.endsRaw_eq_false hraw] at hahead
        cases hahead

end Whole

end DataBinding.Markup
