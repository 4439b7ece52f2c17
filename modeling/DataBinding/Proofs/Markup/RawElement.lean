/-
# Reading raw elements back

A script or style sheet is written as its start tag, its text and, if it was closed, its end tag.
Reading this gives the element back as long as the start tag is read as itself, since then the cutting
takes the whole text in front of the end tag.  The key facts are

* `exists_cuts_raw`      : a raw text without the end tag of its element is cut into texts;
* `parse_rawElement_iff` : a raw element is read back exactly if its end tag does not stand in its
  text.
-/
import DataBinding.Proofs.Markup.RawText

namespace DataBinding.Markup

/-! ## Cutting a raw text -/

/-- The end tag that is written for a raw element ends it. -/
theorem endsElement_endTagSource {name : Text} (h : isRawText name = true) :
    EndsElement name (endTagSource name) := by
  unfold isRawText at h
  rw [Bool.or_eq_true, beq_iff_eq, beq_iff_eq] at h
  rcases h with rfl | rfl <;> rfl

/-- The end tag that is written for a raw element is cut off as a whole. -/
theorem cuts_endTagSource (atEnd : Bool) {name : Text} (h : isRawText name = true) :
    Cuts atEnd (some name) (endTagSource name) [⟨endTagSource name, [.endTag name]⟩] none [] := by
  have hstep : piece atEnd (some name) (endTagSource name)
      = .advance [.endTag name] (endTagSource name).length none := by
    unfold isRawText at h
    rw [Bool.or_eq_true, beq_iff_eq, beq_iff_eq] at h
    rcases h with rfl | rfl <;> rfl
  have hrest : Cuts atEnd none ((endTagSource name).drop (endTagSource name).length) [] none [] := by
    rw [List.drop_length]
    exact .done
  have hcuts := Cuts.next (by simp [endTagSource]) hstep hrest
  rwa [List.take_length] at hcuts

/-- What ends a raw text: the end tag behind it, or the end of all text behind a false end. -/
inductive Ended (name t closing : Text) : Prop
  | byTag (ends : EndsElement name closing)
  | falsely (nothing : closing = []) (ends : t = [] ∨ EndsFalsely name t)

/-- What ends a text stands behind what is cut off of it, and ends what is left. -/
theorem Ended.exists_append {name t closing cut rest : Text} (hlt : '<' ∉ name) (hgt : '>' ∉ name)
    (h : Ended name t closing) (hne : t ≠ []) (split : t ++ closing = cut ++ rest)
    (hcut : RawCut name cut rest) :
    ∃ t', t = cut ++ t' ∧ rest = t' ++ closing ∧ Ended name t' closing := by
  cases h with
  | byTag ends =>
    obtain ⟨tail, rfl⟩ := ends.exists_cons
    rcases List.append_eq_append_iff.mp split with ⟨x, rfl, hx⟩ | ⟨x, hx, hrest⟩
    · cases x with
      | nil => exact ⟨[], by simp, by simpa using hx.symm, .byTag ends⟩
      | cons c x =>
        refine absurd ?_ (hcut.unended hlt t (c :: x) rfl (by simp))
        rwa [← hx]
    · exact ⟨x, hx, hrest, .byTag ends⟩
  | falsely nothing ends =>
    subst nothing
    rw [List.append_nil] at split
    subst split
    exact ⟨rest, rfl, (List.append_nil rest).symm,
      .falsely rfl (hcut.endsFalsely hlt hgt (ends.resolve_left hne))⟩

/-- **A raw text without the end tag** is cut into texts up to what ends it. -/
theorem exists_cuts_raw (atEnd : Bool) {name t closing : Text} (hraw : isRawText name = true)
    (hended : Ended name t closing) (hno : ¬ HoldsEnd name t) :
    ∃ pieces : List Piece, (∀ p ∈ pieces, p.events = [.data p.cut] ∧ p.cut ≠ []) ∧
      pieces.flatMap Piece.cut = t ∧
      ∀ {more : List Piece} {last : Option Text} {rest : Text},
        Cuts atEnd (some name) closing more last rest →
          Cuts atEnd (some name) (t ++ closing) (pieces ++ more) last rest := by
  obtain ⟨hlt, hgt⟩ := notMem_of_isRawText hraw
  induction hn : t.length using Nat.strong_induction_on generalizing t with
  | _ n ih =>
    subst hn
    by_cases ht : t = []
    · subst ht
      exact ⟨[], by simp, rfl, fun h => h⟩
    · have hne : t ++ closing ≠ [] := by simp [ht]
      have hform := rawStep_piece atEnd (t ++ closing) hgt
      cases hstep : piece atEnd (some name) (t ++ closing) with
      | advance events n next =>
        rw [hstep] at hform
        cases hform with
        | @data cut rest split isCut =>
          obtain ⟨t', rfl, rfl, hended'⟩ := hended.exists_append hlt hgt ht split isCut
          have hshort : t'.length < (cut ++ t').length := by
            rw [List.length_append]
            have := List.length_pos_iff.mpr isCut.ne_nil
            omega
          obtain ⟨pieces, hpieces, rfl, hcuts⟩ :=
            ih _ hshort hended' (fun h => hno (h.append_left cut)) rfl
          refine ⟨⟨cut, [.data cut]⟩ :: pieces, ?_, rfl, fun hmore => ?_⟩
          · exact List.forall_mem_cons.mpr ⟨⟨rfl, isCut.ne_nil⟩, hpieces⟩
          · have htail := hcuts hmore
            have hdrop : (cut ++ pieces.flatMap Piece.cut ++ closing).drop cut.length
                = pieces.flatMap Piece.cut ++ closing := by
              rw [List.append_assoc, List.drop_left]
            have htake : (cut ++ pieces.flatMap Piece.cut ++ closing).take cut.length = cut := by
              rw [List.append_assoc, List.take_left]
            rw [← hdrop] at htail
            have hall := Cuts.next hne hstep htail
            rwa [htake] at hall
        | close ends =>
          refine absurd ⟨[], t, rfl, ?_⟩ hno
          cases hended with
          | byTag hclosing =>
            obtain ⟨tail, rfl⟩ := hclosing.exists_cons
            exact EndsElement.of_append_cons (by decide) ht ends
          | falsely nothing => rwa [nothing, List.append_nil] at ends
      | stop events n =>
        rw [hstep] at hform
        cases hform with
        | stop missing =>
          -- what ends the text would have been found
          cases hended with
          | byTag hclosing =>
            obtain ⟨tail, rfl⟩ := hclosing.exists_cons
            have hfound := hclosing.endsRaw
            rw [missing t _ rfl (List.cons_ne_nil _ _)] at hfound
            cases hfound
          | falsely nothing ends =>
            obtain ⟨u, v, rfl, hv⟩ := ends.resolve_left ht
            obtain ⟨r, rfl, -⟩ := hv.exists_cons
            have hfound := hv.found
            rw [missing u _ (by rw [nothing, List.append_nil]) (List.cons_ne_nil _ _)] at hfound
            cases hfound
      | incomplete =>
        rw [hstep] at hform
        cases hform
      | refused fault =>
        rw [hstep] at hform
        cases hform

/-- Texts are added to the text of the innermost open element. -/
theorem Growth.foldl_take_data {pieces : List Piece}
    (h : ∀ p ∈ pieces, p.events = [.data p.cut] ∧ p.cut ≠ []) (t : Text)
    (outer : List (Tag × List Node)) :
    (pieces.flatMap Piece.events).foldl take ⟨textNodes t, outer⟩
      = ⟨textNodes (t ++ pieces.flatMap Piece.cut), outer⟩ := by
  induction pieces generalizing t with
  | nil => simp
  | cons p pieces ih =>
    obtain ⟨⟨hevents, hcut⟩, hrest⟩ := List.forall_mem_cons.mp h
    rw [List.flatMap_cons, List.flatMap_cons, List.foldl_append, hevents, ← List.append_assoc,
      ← ih hrest]
    exact congrArg (fun g => (pieces.flatMap Piece.events).foldl take g)
      (addText_textNodes t p.cut hcut outer)

/-! ## Elements -/

/-- What is written behind the contents of an element. -/
def Tag.closing (tag : Tag) : Text :=
  if tag.closed then endTagSource tag.name else []

/-- In front of what follows it, the start tag of an element is read as itself. -/
def Tag.ReadsBack (tag : Tag) (behind : Text) : Prop :=
  ∃ attributes, piece false none (tag.write ++ behind)
    = .advance [.startTag tag.name attributes tag.write] tag.write.length
        (if isRawText tag.name then some tag.name else none)

section Elements

variable {tag : Tag} {t : Text}

/-- What is written behind the text of a raw element ends it, and is cut into what closes it. -/
theorem Tag.Holds.exists_cuts (hraw : isRawText tag.name = true) (hne : t ≠ []) (h : tag.Holds t) :
    Ended tag.name t tag.closing ∧ ∃ more last, Cuts false (some tag.name) tag.closing more last [] ∧
      more.flatMap Piece.events = if tag.closed then [.endTag tag.name] else [] := by
  cases hclosed : tag.closed with
  | true =>
    rw [Tag.closing, if_pos hclosed]
    exact ⟨.byTag (endsElement_endTagSource hraw), _, _, cuts_endTagSource false hraw, rfl⟩
  | false =>
    have hends : EndsFalsely tag.name t := (h.closed.resolve_left hne).resolve_left (by simp [hclosed])
    rw [Tag.closing, hclosed]
    exact ⟨.falsely rfl (.inr hends), [], _, .done, rfl⟩

/-- **A raw element** whose end tag does not stand in its text is read back. -/
theorem parse_rawElement (hraw : isRawText tag.name = true)
    (hback : tag.ReadsBack (t ++ tag.closing)) (hne : t ≠ []) (h : tag.Holds t) :
    ∃ read : Tag, read.name = tag.name ∧
      Document.parse (Node.write (.element tag [.text t])) = .ok ⟨[.element read [.text t]]⟩ := by
  obtain ⟨attributes, hstep⟩ := hback
  rw [if_pos hraw] at hstep
  obtain ⟨hended, more, last, hmore, hmoreEvents⟩ := h.exists_cuts hraw hne
  obtain ⟨pieces, hpieces, hcut, hcuts⟩ := exists_cuts_raw false hraw hended h.unended
  have hwrite : Node.write (.element tag [.text t]) = tag.write ++ (t ++ tag.closing) := by
    simp [Node.write, Node.writeAll, Tag.closing]
  -- the pieces are the start tag, those of the text, and the end tag
  have hinner := hcuts hmore
  have hdrop : (tag.write ++ (t ++ tag.closing)).drop tag.write.length = t ++ tag.closing :=
    List.drop_left
  rw [← hdrop] at hinner
  have hall := Cuts.next (by simp [hne]) hstep hinner
  rw [List.take_left] at hall
  have hfill := Growth.foldl_take_data hpieces []
    [(⟨tag.name, distinct attributes, some tag.write, false, false, []⟩, [])]
  rw [hcut, List.nil_append] at hfill
  have hnodes : textNodes t = [.text t] := if_neg hne
  refine ⟨⟨tag.name, distinct attributes, some tag.write, false, tag.closed, []⟩, rfl, ?_⟩
  rw [hwrite, Document.parse, events_of_cuts hall .done]
  have hevents : Document.ofEvents (.startTag tag.name attributes tag.write ::
      (pieces.flatMap Piece.events ++ if tag.closed then [.endTag tag.name] else []))
      = ⟨[.element ⟨tag.name, distinct attributes, some tag.write, false, tag.closed, []⟩
          [.text t]]⟩ := by
    have hopen : ∀ tag : Tag, Growth.empty.openElement tag = ⟨textNodes [], [(tag, [])]⟩ :=
      fun _ => by simp [Growth.empty, Growth.openElement, textNodes]
    rw [Document.ofEvents, List.foldl_cons, Growth.take_startTag_of_isRawText hraw,
      List.foldl_append, hopen, hfill, hnodes]
    cases tag.closed <;> simp [Growth.take, Growth.closeUpTo, Growth.finish]
  rw [← hevents, ← hmoreEvents]
  refine congrArg (fun read => Except.ok (Document.ofEvents read)) ?_
  simp

/-- **A raw element is read back** exactly if its end tag does not stand in its text. -/
theorem parse_rawElement_iff (hraw : isRawText tag.name = true)
    (hback : tag.ReadsBack (t ++ tag.closing)) (hne : t ≠ [])
    (hclosed : tag.closed = true ∨ EndsFalsely tag.name t) (hopened : tag.selfClosing = false) :
    (∃ read : Tag, read.name = tag.name ∧
      Document.parse (Node.write (.element tag [.text t])) = .ok ⟨[.element read [.text t]]⟩) ↔
      ¬ HoldsEnd tag.name t := by
  constructor
  · rintro ⟨read, hname, hparse⟩
    have htidy := Document.tidy_of_parse hparse
    rw [← hname] at hraw ⊢
    obtain ⟨⟨hholds, -⟩, -⟩ := htidy
    obtain ⟨u, hu, hholds⟩ := hholds hraw
    obtain rfl : t = u := by
      unfold textNodes at hu
      split at hu
      · cases hu
      · simpa using hu
    exact hholds.unended
  · intro hno
    exact parse_rawElement hraw hback hne ⟨hno, .inr hopened, .inr hclosed⟩

end Elements

/-! ## Elements of documents -/

/-- A node below tidy nodes is tidy. -/
theorem Node.TidyAll.nodeAt? {nodes : List Node} (h : Node.TidyAll nodes) {address : Address}
    {node : Node} (hnode : Document.nodeAt? nodes address = some node) : node.Tidy := by
  refine Document.nodeAt?_keeps (fun tag children htidy => ?_) (Node.tidyAll_iff.mp h) hnode
  exact Node.tidyAll_iff.mp htidy.2

/-- The text of a raw element of a document that was read is its only node. -/
theorem Document.rawText_of_parse {html : Text} {document : Document}
    (h : Document.parse html = .ok document) {address : Address} {tag : Tag} {t : Text}
    {rest : List Node} (helement : document.get? address = some (.element tag (.text t :: rest)))
    (hraw : isRawText tag.name = true) : rest = [] ∧ t ≠ [] ∧ tag.Holds t := by
  obtain ⟨hholds, -⟩ := (Document.tidy_of_parse h).nodeAt? helement
  obtain ⟨u, hu, hholds⟩ := hholds hraw
  unfold textNodes at hu
  split at hu
  · cases hu
  · rename_i hne
    obtain ⟨hnode, hrest⟩ := List.cons.inj hu
    obtain rfl := Node.text.inj hnode
    exact ⟨hrest, hne, hholds⟩

end DataBinding.Markup
