/-
# Texts that are one start tag

A start tag is a name, separators, and rows of attributes up to the end of the tag.  Every text that
is read as one start tag, and nothing else, has these parts.

* `startTag?`              : the tag that a text is read as;
* `startTag?_eq_some_iff`  : it is read off the parts of the text.
-/
import DataBinding.Markup.Tree
import DataBinding.Proofs.Markup.Splicing

namespace DataBinding.Markup

/-! ## Reading one start tag -/

/-- The tag that a text is read as, if the text is one start tag as a whole. -/
def startTag? (t : Text) : Option Tag :=
  match events t with
  | .ok [.startTag name attributes source] =>
    if source = t then some ⟨name, distinct attributes, some source, false, false, []⟩ else none
  | .ok [.emptyTag name attributes source] =>
    if source = t then some ⟨name, distinct attributes, some source, true, false, []⟩ else none
  | _ => none

/-- The event of a start tag. -/
def startEvent (name : Text) (attributes : List (Text × Option Text)) (selfClosing : Bool)
    (source : Text) : Event :=
  if selfClosing then .emptyTag name attributes source else .startTag name attributes source

/-- The source that the event of a start tag remembers. -/
def Event.startSource? : Event → Option Text
  | .startTag _ _ source => some source
  | .emptyTag _ _ source => some source
  | _ => none

/-- The events of a step. -/
def Step.events : Step → List Event
  | .advance events _ _ => events
  | .stop events _ => events
  | _ => []

section Steps

variable {e : Event} {raw : Option Text} {t : Text}

/-- A step gives no start tag. -/
def Step.Startless (step : Step) : Prop :=
  ∀ e ∈ step.events, e.startSource? = none

theorem startless_upToTagEnd {event : Text → Event} (h : ∀ u, (event u).startSource? = none) :
    (upToTagEnd event t).Startless := by
  unfold upToTagEnd
  split <;> simp [Step.Startless, Step.events, h]

theorem startless_endTag : (endTag raw t).Startless := by
  unfold endTag
  split
  · simp [Step.Startless, Step.events]
  · dsimp only
    split
    · simp [Step.Startless, Step.events, Event.startSource?]
    · split <;> simp [Step.Startless, Step.events, Event.startSource?]
    · simp [Step.Startless, Step.events, Event.startSource?]
    · split
      · simp [Step.Startless, Step.events, Event.startSource?]
      · split <;> simp [Step.Startless, Step.events, Event.startSource?]

theorem startless_comment : (comment t).Startless := by
  unfold comment
  split <;> simp [Step.Startless, Step.events, Event.startSource?]

theorem startless_markedSection : (markedSection t).Startless := by
  unfold markedSection
  dsimp only
  split
  · simp [Step.Startless, Step.events]
  · split
    · simp [Step.Startless, Step.events]
    · split
      · simp [Step.Startless, Step.events]
      · split
        · split <;> simp [Step.Startless, Step.events, Event.startSource?]
        · split
          · split <;> simp [Step.Startless, Step.events, Event.startSource?]
          · simp [Step.Startless, Step.events]

theorem startless_declaration : (declaration t).Startless := by
  unfold declaration
  split
  · exact startless_comment
  · exact startless_markedSection
  · split
    · split <;> simp [Step.Startless, Step.events, Event.startSource?]
    · exact startless_upToTagEnd fun _ => rfl

theorem startless_ampersand {atEnd : Bool} : (ampersand atEnd t).Startless := by
  unfold ampersand
  split
  · split
    · simp [Step.Startless, Step.events, Event.startSource?]
    · split <;> simp [Step.Startless, Step.events, Event.startSource?]
  · split
    · simp [Step.Startless, Step.events, Event.startSource?]
    · split
      · simp [Step.Startless, Step.events]
      · split <;> simp [Step.Startless, Step.events, Event.startSource?]
      · split <;> simp [Step.Startless, Step.events, Event.startSource?]
      · simp [Step.Startless, Step.events]

/-- **A start tag comes from one place only**: it is read behind an angle bracket and a name. -/
theorem read_of_piece {atEnd : Bool} {source : Text} (hne : t ≠ [])
    (he : e ∈ (piece atEnd raw t).events) (hsource : e.startSource? = some source) :
    t.head? = some '<' ∧ ∃ name small attributes selfClosing n, tagName? (t.drop 1) = some name ∧
      StartTag.read name t = .complete small attributes selfClosing n ∧ source = t.take n ∧
      e = startEvent small attributes selfClosing (t.take n) := by
  have hstartless : ∀ {step : Step}, step.Startless → e ∉ step.events := by
    intro step hstep hmem
    rw [hstep e hmem] at hsource
    cases hsource
  unfold piece at he
  split at he
  · -- inside a raw element there are texts and end tags
    split at he
    · cases he
    · exact absurd he (hstartless startless_endTag)
    · refine absurd he (hstartless ?_)
      simp [Step.Startless, Step.events, Event.startSource?]
  · split at he
    · rename_i hrun
      split at he
      · exact absurd he (hstartless startless_ampersand)
      · rename_i hamp
        have hhead : t.head? = some '<' := by
          cases t with
          | nil => exact absurd rfl hne
          | cons c t =>
            by_contra hlt
            rw [List.head?_cons, Option.some.injEq] at hlt
            rw [List.takeWhile_cons_of_pos (by simpa [hlt] using hamp)] at hrun
            cases hrun
        refine ⟨hhead, ?_⟩
        unfold angle at he
        split at he
        · rename_i name hname
          unfold startTag at he
          split at he
          · cases he
          · refine absurd he (hstartless ?_)
            simp [Step.Startless, Step.events, Event.startSource?]
          · rename_i hread
            obtain rfl := List.mem_singleton.mp he
            exact ⟨name, _, _, true, _, hname, hread, (Option.some.inj hsource).symm, rfl⟩
          · rename_i hread
            obtain rfl := List.mem_singleton.mp he
            exact ⟨name, _, _, false, _, hname, hread, (Option.some.inj hsource).symm, rfl⟩
          · cases he
        · exact absurd he (hstartless startless_endTag)
        · exact absurd he (hstartless (startless_upToTagEnd fun _ => rfl))
        · exact absurd he (hstartless startless_declaration)
        · refine absurd he (hstartless ?_)
          split <;> simp [Step.Startless, Step.events, Event.startSource?]
    · refine absurd he (hstartless ?_)
      simp [Step.Startless, Step.events, Event.startSource?]

end Steps

/-! ## The parts of a start tag -/

/-- A name that a tag may have: a plain letter, and then anything that does not end a name. -/
def IsTagName (name : Text) : Prop :=
  ∃ c more, name = c :: more ∧ c.isAlpha = true ∧ ∀ x ∈ more, endsTagName x = false

/-- The parts of a start tag as they are written: its name, the separators behind it, the rows of its
attributes, and its end. -/
structure TagParts where
  name : Text
  gap : Text
  rows : List Row
  last : Text

namespace TagParts

/-- The start tag as it is written. -/
def text (parts : TagParts) : Text :=
  '<' :: (parts.name ++ (parts.gap ++ rowsText parts.rows parts.last))

/-- The character in front of the first attribute. -/
def previous (parts : TagParts) : Char :=
  ('<' :: (parts.name ++ parts.gap)).getLastD '<'

/-- The tag ends in a slash. -/
def closes (parts : TagParts) : Bool :=
  parts.last == ['/', '>'] || (parts.rows.isEmpty && parts.gap.getLast? == some '/')

/-- The attributes as they are read. -/
def attributes (parts : TagParts) : List (Text × Option Text) :=
  parts.rows.map fun row => row.toAttribute.decoded

/-- The tag that is read. -/
def tag (parts : TagParts) : Tag :=
  ⟨parts.name.lowerCase, distinct parts.attributes, some parts.text, parts.closes, false, []⟩

/-- The parts have the form of a start tag, whatever follows it. -/
structure IsFormed (parts : TagParts) : Prop where
  name : IsTagName parts.name
  stop : ∀ c, (parts.gap ++ rowsText parts.rows parts.last).head? = some c → endsTagName c = true
  gap : ∀ c ∈ parts.gap, (c == '/' || Text.isBlank c) = true
  full : ∀ c, (rowsText parts.rows parts.last).head? = some c → (c == '/' || Text.isBlank c) = false
  last : IsTagEnd parts.last
  decodes : overlongIn? (parts.rows.map Row.toAttribute) = none

/-- The parts are read as what they are in front of a text. -/
structure ReadsBefore (parts : TagParts) (behind : Text) : Prop extends IsFormed parts where
  listed : Listed parts.previous parts.rows (parts.last ++ behind)

/-- The parts alone are read as what they are. -/
structure Reads (parts : TagParts) : Prop extends IsFormed parts where
  listed : Listed parts.previous parts.rows parts.last

theorem Reads.before_nil {parts : TagParts} (h : parts.Reads) : parts.ReadsBefore [] :=
  ⟨h.toIsFormed, by rw [List.append_nil]; exact h.listed⟩

theorem ReadsBefore.reads {parts : TagParts} (h : parts.ReadsBefore []) : parts.Reads :=
  ⟨h.toIsFormed, by rw [← List.append_nil parts.last]; exact h.listed⟩

end TagParts

/-- A name is read up to where it ends. -/
theorem tagName?_append {name r : Text} (h : IsTagName name)
    (hr : ∀ c, r.head? = some c → endsTagName c = true) : tagName? (name ++ r) = some name := by
  obtain ⟨c, more, rfl, hc, hmore⟩ := h
  rw [List.cons_append, tagName?, if_pos hc, Text.takeWhile_append_until hmore hr]

/-- What is read as the name of a tag is one. -/
theorem exists_tagName {t name : Text} (h : tagName? t = some name) :
    ∃ r, t = name ++ r ∧ IsTagName name ∧ ∀ c, r.head? = some c → endsTagName c = true := by
  cases t with
  | nil => cases h
  | cons c t =>
    rw [tagName?] at h
    split at h
    · rename_i hc
      obtain ⟨more, r, rfl, hmore, hr⟩ := Text.exists_run_until endsTagName t
      rw [Text.takeWhile_append_until hmore hr] at h
      cases h
      exact ⟨r, rfl, ⟨c, more, rfl, hc, hmore⟩, hr⟩
    · cases h

/-- Behind the name and the separators the attributes decide how a start tag is read. -/
theorem read_eq {name gap body : Text} (hgap : ∀ c ∈ gap, (c == '/' || Text.isBlank c) = true)
    (hfull : ∀ c, body.head? = some c → (c == '/' || Text.isBlank c) = false)
    {attributes : List RawAttribute} {n : Nat}
    (hread : attributesFrom 0 (('<' :: (name ++ gap)).getLastD '<') body = (attributes, n)) :
    StartTag.read name ('<' :: (name ++ (gap ++ body))) =
      match body.drop n with
      | '>' :: _ => StartTag.unlessRefused attributes <|
          .complete name.lowerCase (attributes.map RawAttribute.decoded)
            (n == 0 && gap.getLast? == some '/') (name.length + gap.length + n + 2)
      | '/' :: '>' :: _ => StartTag.unlessRefused attributes <|
          .complete name.lowerCase (attributes.map RawAttribute.decoded) true
            (name.length + gap.length + n + 3)
      | [] => .incomplete
      | c :: _ =>
        if c.isAlpha || c == '=' || c == '/' then .incomplete
        else StartTag.unlessRefused attributes (.junk (name.length + gap.length + n + 1)) := by
  have hdrop : ('<' :: (name ++ (gap ++ body))).drop (1 + name.length) = gap ++ body := by
    rw [Nat.add_comm, List.drop_succ_cons, List.drop_left]
  have hrun : (gap ++ body).takeWhile (fun c => c == '/' || Text.isBlank c) = gap :=
    Text.takeWhile_append_stop hgap hfull
  have hrest : ('<' :: (name ++ (gap ++ body))).drop (1 + name.length + gap.length + n)
      = body.drop n := by
    rw [← List.drop_drop, ← List.drop_drop, hdrop, List.drop_left]
  have hlength : 1 + name.length + gap.length + n = name.length + gap.length + n + 1 := by
    omega
  rw [StartTag.read]
  simp only [hdrop, hrun, List.take_left, List.drop_left, List.cons_append, hread, hrest]
  generalize 1 + name.length + gap.length + n = stop at hlength ⊢
  subst hlength
  rfl

namespace TagParts

theorem IsFormed.tagName?_eq {parts : TagParts} (h : parts.IsFormed) :
    tagName? (parts.text.drop 1) = some parts.name :=
  tagName?_append h.name h.stop

theorem unlessRefused_of_decodes {attributes : List RawAttribute}
    (h : overlongIn? attributes = none) (tag : StartTag) :
    StartTag.unlessRefused attributes tag = tag := by
  rw [StartTag.unlessRefused, h]

theorem text_append (parts : TagParts) (behind : Text) : parts.text ++ behind
    = '<' :: (parts.name ++ (parts.gap ++ rowsText parts.rows (parts.last ++ behind))) := by
  simp [text, rowsText]

theorem head?_rowsText_append {rows : List Row} {last : Text} (hlast : IsTagEnd last) (behind : Text) :
    (rowsText rows (last ++ behind)).head? = (rowsText rows last).head? := by
  have hne : (last ++ behind).head? = last.head? := by
    rcases hlast with rfl | rfl <;> rfl
  exact head?_append_congr _ hne

/-- **A start tag is read as its parts** in front of a text. -/
theorem ReadsBefore.read_eq {parts : TagParts} {behind : Text} (h : parts.ReadsBefore behind) :
    StartTag.read parts.name (parts.text ++ behind)
      = .complete parts.name.lowerCase parts.attributes parts.closes parts.text.length := by
  have hdrop : (rowsText parts.rows (parts.last ++ behind)).drop (parts.rows.flatMap Row.text).length
      = parts.last ++ behind := List.drop_left
  have hlength : parts.text.length = parts.name.length + parts.gap.length
      + (parts.rows.flatMap Row.text).length + parts.last.length + 1 := by
    simp only [text, rowsText, List.length_cons, List.length_append]
    omega
  have hempty : ((parts.rows.flatMap Row.text).length == 0) = parts.rows.isEmpty := by
    cases hrows : parts.rows with
    | nil => rfl
    | cons row rows =>
      have hlisted := h.listed
      rw [hrows] at hlisted
      cases hlisted with
      | next _ hhead _ =>
        have := hhead.length_pos
        have hpos : ((row :: rows).flatMap Row.text).length ≠ 0 := by
          rw [List.flatMap_cons, List.length_append]
          omega
        simpa using hpos
  have hfull : ∀ c, (rowsText parts.rows (parts.last ++ behind)).head? = some c →
      (c == '/' || Text.isBlank c) = false := by
    rw [head?_rowsText_append h.last]
    exact h.full
  rw [text_append, Markup.read_eq h.gap hfull h.listed.attributesFrom_eq, hdrop, hlength, hempty,
    List.map_map]
  rcases h.last with hlast | hlast
  · simp [hlast, closes, attributes, Function.comp_def, unlessRefused_of_decodes h.decodes]
  · simp [hlast, closes, attributes, Function.comp_def, unlessRefused_of_decodes h.decodes]

/-- A start tag alone is read as its parts. -/
theorem Reads.read_eq {parts : TagParts} (h : parts.Reads) :
    StartTag.read parts.name parts.text
      = .complete parts.name.lowerCase parts.attributes parts.closes parts.text.length := by
  have hread := h.before_nil.read_eq
  rwa [List.append_nil] at hread

end TagParts

theorem unlessRefused_eq_complete {attributes : List RawAttribute} {tag : StartTag} {name : Text}
    {found : List (Text × Option Text)} {selfClosing : Bool} {n : Nat}
    (h : StartTag.unlessRefused attributes tag = .complete name found selfClosing n) :
    overlongIn? attributes = none ∧ tag = .complete name found selfClosing n := by
  unfold StartTag.unlessRefused at h
  split at h
  · cases h
  · exact ⟨‹_›, h⟩

/-- **What is read as a start tag** has the parts of one. -/
theorem exists_partsBefore {u name small : Text} {attributes : List (Text × Option Text)}
    {selfClosing : Bool} {n : Nat} (hname : tagName? u = some name)
    (h : StartTag.read name ('<' :: u) = .complete small attributes selfClosing n) :
    ∃ (parts : TagParts) (behind : Text), parts.ReadsBefore behind ∧
      parts.text ++ behind = '<' :: u ∧ parts.name = name := by
  obtain ⟨after, rfl, htag, hstop⟩ := exists_tagName hname
  obtain ⟨gap, body, rfl, hgap, hfull⟩ :=
    Text.exists_run (fun c => c == '/' || Text.isBlank c) after
  obtain ⟨raw, m, hread⟩ : ∃ raw m,
      attributesFrom 0 (('<' :: (name ++ gap)).getLastD '<') body = (raw, m) := ⟨_, _, rfl⟩
  rw [read_eq hgap hfull hread] at h
  -- the end of the tag follows the attributes, and its values were decoded
  obtain ⟨last, behind, hdrop, hlast, hdecodes⟩ : ∃ last behind, body.drop m = last ++ behind ∧
      IsTagEnd last ∧ overlongIn? raw = none := by
    split at h
    · rename_i r hdrop
      exact ⟨['>'], r, hdrop, .inl rfl, (unlessRefused_eq_complete h).1⟩
    · rename_i r hdrop
      exact ⟨['/', '>'], r, hdrop, .inr rfl, (unlessRefused_eq_complete h).1⟩
    · cases h
    · split at h
      · cases h
      · cases (unlessRefused_eq_complete h).2
  have hzero : attributeName (body.drop m) = 0 := by
    rw [hdrop]
    rcases hlast with rfl | rfl <;> rfl
  obtain ⟨rows, rest, rfl, hrest, hlisted⟩ := exists_listed hread hzero
  obtain rfl := hrest.trans hdrop
  rw [hlisted.attributesFrom_eq] at hread
  rw [← (Prod.mk.inj hread).1] at hdecodes
  have hhead : (rowsText rows (last ++ behind)).head? = (rowsText rows last).head? :=
    TagParts.head?_rowsText_append hlast behind
  rw [head?_append_congr gap hhead] at hstop
  rw [hhead] at hfull
  refine ⟨⟨name, gap, rows, last⟩, behind, ⟨⟨htag, hstop, hgap, hfull, hlast, hdecodes⟩, hlisted⟩, ?_, rfl⟩
  rw [TagParts.text_append]

/-- What is read as a start tag up to its end has the parts of one. -/
theorem exists_parts {u name small : Text} {attributes : List (Text × Option Text)}
    {selfClosing : Bool} {n : Nat} (hname : tagName? u = some name)
    (h : StartTag.read name ('<' :: u) = .complete small attributes selfClosing n)
    (hn : ('<' :: u).length ≤ n) :
    ∃ parts : TagParts, parts.Reads ∧ parts.text = '<' :: u ∧ parts.name = name := by
  obtain ⟨parts, behind, hparts, htext, rfl⟩ := exists_partsBefore hname h
  have hread := hparts.read_eq
  rw [htext, h] at hread
  obtain ⟨-, -, -, rfl⟩ := StartTag.complete.inj hread
  rw [← htext, List.length_append] at hn
  obtain rfl : behind = [] := List.length_eq_zero_iff.mp (by omega)
  rw [List.append_nil] at htext
  exact ⟨parts, hparts.reads, htext, rfl⟩

/-! ## Texts as a whole -/

/-- The events of a text that is one start tag. -/
theorem events_of_startTag? {t : Text} {tag : Tag} (h : startTag? t = some tag) :
    ∃ name attributes selfClosing, events t = .ok [startEvent name attributes selfClosing t] ∧
      tag = ⟨name, distinct attributes, some t, selfClosing, false, []⟩ := by
  unfold startTag? at h
  split at h
  · rename_i name attributes source hevents
    split at h
    · rename_i hsource
      subst hsource
      exact ⟨name, attributes, false, hevents, (Option.some.inj h).symm⟩
    · cases h
  · rename_i name attributes source hevents
    split at h
    · rename_i hsource
      subst hsource
      exact ⟨name, attributes, true, hevents, (Option.some.inj h).symm⟩
    · cases h
  · cases h

/-- A text with the event of one start tag is this tag. -/
theorem startTag?_of_events {t name : Text} {attributes : List (Text × Option Text)}
    {selfClosing : Bool} (h : events t = .ok [startEvent name attributes selfClosing t]) :
    startTag? t = some ⟨name, distinct attributes, some t, selfClosing, false, []⟩ := by
  cases selfClosing <;> simp [startTag?, h, startEvent]

/-- A start tag among the events of pieces was read somewhere in the text. -/
theorem Cuts.exists_step {atEnd : Bool} {raw last : Option Text} {t rest : Text} {pieces : List Piece}
    (h : Cuts atEnd raw t pieces last rest) {e : Event} {source : Text}
    (he : e ∈ pieces.flatMap Piece.events) (hsource : e.startSource? = some source) :
    ∃ n current, t.drop n ≠ [] ∧ e ∈ (piece atEnd current (t.drop n)).events := by
  induction h with
  | done | pause => cases he
  | @stop raw t events n hne hstep =>
    rw [List.flatMap_cons, List.flatMap_nil, List.append_nil] at he
    exact ⟨0, raw, hne, by rw [List.drop_zero, hstep]; exact he⟩
  | @next raw open' last t rest events n pieces hne hstep htail ih =>
    rw [List.flatMap_cons, List.mem_append] at he
    rcases he with he | he
    · exact ⟨0, raw, hne, by rw [List.drop_zero, hstep]; exact he⟩
    · obtain ⟨m, current, hm, hmem⟩ := ih he
      rw [List.drop_drop] at hm hmem
      exact ⟨n + m, current, hm, hmem⟩
  | @plain raw last t rest pieces hne hstep hfinal htail ih =>
    rw [List.flatMap_cons, List.mem_append] at he
    rcases he with he | he
    · rw [List.mem_singleton.mp he] at hsource
      cases hsource
    · obtain ⟨m, current, hm, hmem⟩ := ih he
      rw [List.drop_drop] at hm hmem
      exact ⟨_, current, hm, hmem⟩

/-- A start tag among the events of a text was read somewhere in it. -/
theorem exists_step_of_events {t : Text} {found : List Event} (h : events t = .ok found) {e : Event}
    (he : e ∈ found) {source : Text} (hsource : e.startSource? = some source) :
    ∃ n atEnd current, t.drop n ≠ [] ∧ e ∈ (piece atEnd current (t.drop n)).events := by
  obtain ⟨first, raw, middle, later, last, rest, hfirst, hlater⟩ := exists_cuts_of_events h
  rw [events_of_cuts hfirst hlater] at h
  cases h
  rcases List.mem_append.mp he with he | he
  · rcases List.mem_append.mp he with he | he
    · obtain ⟨n, current, hne, hmem⟩ := hfirst.exists_step he hsource
      exact ⟨n, false, current, hne, hmem⟩
    · obtain ⟨n, current, hne, hmem⟩ := hlater.exists_step he hsource
      have hmiddle : middle = t.drop (first.flatMap Piece.cut).length := by
        rw [← hfirst.append_eq, List.drop_left]
      rw [hmiddle, List.drop_drop] at hne hmem
      exact ⟨_, true, current, hne, hmem⟩
  · split at he
    · rw [List.mem_singleton.mp he] at hsource
      cases hsource
    · cases he

/-- A start tag that covers a whole text was read at its head. -/
theorem exists_piece {t : Text} {found : List Event} (h : events t = .ok found) {e : Event}
    (he : e ∈ found) (hsource : e.startSource? = some t) :
    t ≠ [] ∧ ∃ atEnd raw, e ∈ (piece atEnd raw t).events := by
  obtain ⟨n, atEnd, current, hne, hmem⟩ := exists_step_of_events h he hsource
  -- the source of a tag that starts later is shorter than the text
  obtain ⟨-, _, _, _, _, m, -, -, hcut, -⟩ := read_of_piece hne hmem hsource
  have hlength := congrArg List.length hcut
  rw [List.length_take, List.length_drop] at hlength
  have hpos : 0 < (t.drop n).length := List.length_pos_iff.mpr hne
  rw [List.length_drop] at hpos
  obtain rfl : n = 0 := by omega
  rw [List.drop_zero] at hne hmem
  exact ⟨hne, atEnd, current, hmem⟩

theorem startSource?_startEvent (name : Text) (attributes : List (Text × Option Text))
    (selfClosing : Bool) (source : Text) :
    (startEvent name attributes selfClosing source).startSource? = some source := by
  cases selfClosing <;> rfl

theorem startEvent_inj {name name' source source' : Text}
    {attributes attributes' : List (Text × Option Text)} {selfClosing selfClosing' : Bool}
    (h : startEvent name attributes selfClosing source
      = startEvent name' attributes' selfClosing' source') :
    name = name' ∧ attributes = attributes' ∧ selfClosing = selfClosing' := by
  cases selfClosing <;> cases selfClosing' <;> cases h <;> exact ⟨rfl, rfl, rfl⟩

/-- **A start tag is cut off** in front of a text. -/
theorem TagParts.ReadsBefore.piece_eq {parts : TagParts} {behind : Text}
    (h : parts.ReadsBefore behind) (atEnd : Bool) :
    piece atEnd none (parts.text ++ behind)
      = .advance [startEvent parts.name.lowerCase parts.attributes parts.closes parts.text]
        parts.text.length
        (if !parts.closes && isRawText parts.name.lowerCase then some parts.name.lowerCase else none) := by
  have hangle : piece atEnd none (parts.text ++ behind) = angle none (parts.text ++ behind) := rfl
  have hname : tagName? ((parts.text ++ behind).drop 1) = some parts.name := by
    rw [parts.text_append]
    refine tagName?_append h.name ?_
    rw [head?_append_congr _ (head?_rowsText_append h.last behind)]
    exact h.stop
  rw [hangle]
  unfold angle
  simp only [hname]
  rw [startTag, h.read_eq]
  cases parts.closes with
  | false =>
    dsimp only
    rw [List.take_left]
    rfl
  | true =>
    dsimp only
    rw [List.take_left]
    rfl

/-- The event of a start tag with the given parts is the only one of its text. -/
theorem TagParts.Reads.events_eq {parts : TagParts} (h : parts.Reads) :
    events parts.text
      = .ok [startEvent parts.name.lowerCase parts.attributes parts.closes parts.text] := by
  have hstep := h.before_nil.piece_eq false
  rw [List.append_nil] at hstep
  generalize (if !parts.closes && isRawText parts.name.lowerCase then some parts.name.lowerCase
    else none) = raw at hstep
  have hrest : Cuts false raw (parts.text.drop parts.text.length) [] raw [] := by
    rw [List.drop_length]
    exact .done
  have hne : parts.text ≠ [] := by
    rw [TagParts.text]
    exact List.cons_ne_nil _ _
  have hcuts := Cuts.next hne hstep hrest
  rw [List.take_length] at hcuts
  rw [events_of_cuts hcuts .done]
  simp

/-- **A text is one start tag** exactly if it has the parts of one. -/
theorem startTag?_eq_some_iff {t : Text} {tag : Tag} :
    startTag? t = some tag ↔ ∃ parts : TagParts, parts.Reads ∧ parts.text = t ∧ parts.tag = tag := by
  constructor
  · intro h
    obtain ⟨small, attributes, selfClosing, hevents, rfl⟩ := events_of_startTag? h
    obtain ⟨hne, atEnd, raw, hmem⟩ :=
      exists_piece hevents (List.mem_singleton_self _) (startSource?_startEvent ..)
    obtain ⟨hhead, name, small', attributes', selfClosing', n, hname, hread, hcut, hevent⟩ :=
      read_of_piece hne hmem (startSource?_startEvent ..)
    obtain ⟨rfl, rfl, rfl⟩ := startEvent_inj hevent
    obtain ⟨u, rfl⟩ := List.head?_eq_some_iff.mp hhead
    rw [List.drop_one, List.tail_cons] at hname
    have hn : ('<' :: u).length ≤ n := by
      have := congrArg List.length hcut
      rw [List.length_take] at this
      omega
    obtain ⟨parts, hparts, htext, rfl⟩ := exists_parts hname hread hn
    have heq := hparts.read_eq
    rw [htext, hread] at heq
    refine ⟨parts, hparts, htext, ?_⟩
    cases heq
    rw [TagParts.tag, htext]
  · rintro ⟨parts, hparts, rfl, rfl⟩
    exact startTag?_of_events hparts.events_eq

/-- A text that is one start tag is read as the document with this element alone. -/
theorem parse_of_startTag? {t : Text} {tag : Tag} (h : startTag? t = some tag) :
    Document.parse t = .ok ⟨[.element tag []]⟩ := by
  obtain ⟨name, attributes, selfClosing, hevents, rfl⟩ := events_of_startTag? h
  rw [Document.parse, hevents]
  cases selfClosing with
  | true => rfl
  | false =>
    have htake : ∀ tag : Tag, Growth.finish (Growth.empty.openElement tag).nodes
        (Growth.empty.openElement tag).outer = [.element tag []] := fun _ => rfl
    show Except.ok (Document.ofEvents [.startTag name attributes t]) = _
    simp only [Document.ofEvents, List.foldl_cons, List.foldl_nil, Growth.take]
    split
    · rfl
    · rw [htake]

end DataBinding.Markup
