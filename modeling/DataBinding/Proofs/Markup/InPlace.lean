/-
# Values in place

Where values are put in place, the source of a start tag is gone over from attribute to attribute, and
copied up to the name of each changed one and from behind its value on.  This file says what is found
on the way, and that no other character of the source is lost or written twice.

* `Scan`, `Scan.unique` : the attributes that the pattern finds one behind the other;
* `Slotted`             : the same attributes as slots that are cut from a text;
* `Splices`             : a source in segments, each with the value of a changed attribute at its end;
* `splice?_segments`    : a tag with new values has the same segments, with the new values in place.
-/
import DataBinding.Proofs.Markup.AttributePattern
import DataBinding.Proofs.Markup.Reading
import DataBinding.Proofs.Markup.Splicing

namespace DataBinding.Markup

/-! ## What is found -/

/-- An attribute that is found in a source: its name, the place behind the name, and the value that
stands there, with the equals sign.  `raw` is the value alone, quotes included. -/
structure Found where
  name : Text
  place : Nat
  value : Text
  raw : Option Text
deriving DecidableEq

/-- What a match that starts at a place finds. -/
def Found.ofMatch? (start : Nat) (m : Match) : Option Found :=
  (m.part? "name").map fun (n, name) =>
    ⟨name, start + n + name.length, m.text.drop (n + name.length), (m.part? "raw").map (·.2)⟩

/-- The attributes of a source from a place on: each one is looked for where the one before ends, as
long as there is one. -/
inductive Scan (source : Text) : Nat → List Found → Prop
  | stop {start : Nat} (nothing : attributePattern.first (source.drop start) = none) :
      Scan source start []
  | next {start : Nat} {m : Match} {found : Found} {founds : List Found}
      (finds : attributePattern.first (source.drop start) = some m)
      (reads : Found.ofMatch? start m = some found)
      (more : Scan source (start + m.text.length) founds) : Scan source start (found :: founds)

/-- **The attributes of a source** are determined by the place. -/
theorem Scan.unique {source : Text} {start : Nat} {founds others : List Found}
    (h : Scan source start founds) (h' : Scan source start others) : founds = others := by
  induction h generalizing others with
  | stop nothing =>
    cases h' with
    | stop => rfl
    | next finds =>
      rw [nothing] at finds
      cases finds
  | next finds reads _ ih =>
    cases h' with
    | stop nothing =>
      rw [nothing] at finds
      cases finds
    | next finds' reads' more' =>
      obtain rfl := Option.some.inj (finds.symm.trans finds')
      obtain rfl := Option.some.inj (reads.symm.trans reads')
      rw [ih more']

/-! ## Slots -/

/-- A text cut into slots and a rest at whose head there is none. -/
inductive Slotted : Text → List Slot → Text → Prop
  | stop {t : Text} (nothing : slot? t = none) : Slotted t [] t
  | next {slot : Slot} {t rest : Text} {slots : List Slot}
      (cut : slot? (slot.text ++ t) = some (slot, slot.text.length)) (more : Slotted t slots rest) :
      Slotted (slot.text ++ t) (slot :: slots) rest

/-- A slot is cut off with its length, and is not empty. -/
theorem length_of_slot? {t : Text} {slot : Slot} {n : Nat} (h : slot? t = some (slot, n)) :
    n = slot.text.length ∧ 0 < n := by
  rw [slot?] at h
  dsimp only at h
  split at h
  · cases h
  · rename_i hname
    rw [List.isEmpty_iff, ← List.length_eq_zero_iff] at hname
    split at h
    · cases h
      constructor
      · simp only [Slot.text, List.length_append]
      · omega
    · cases h
      constructor
      · simp only [Slot.text, List.length_append, List.length_nil, Nat.add_zero]
      · omega

/-- A slot stands at the head of the text from which it is cut. -/
theorem prefix_of_slot? {t : Text} {slot : Slot} {n : Nat} (h : slot? t = some (slot, n)) :
    slot.text <+: t := by
  have hfirst := first_attributePattern t
  rw [h, Option.map_some] at hfirst
  exact Pattern.prefix_of_mem_ways (List.mem_of_head? hfirst)

/-- **Cutting** takes slots from a text until there is none. -/
theorem slotted_slotsFrom (t : Text) : Slotted t (slotsFrom 0 t).1 (slotsFrom 0 t).2 := by
  induction hlength : t.length using Nat.strong_induction_on generalizing t with
  | _ length ih =>
    cases hslot : slot? t with
    | none =>
      rw [slotsFrom_of_none hslot]
      exact .stop hslot
    | some found =>
      obtain ⟨slot, n⟩ := found
      obtain ⟨rfl, hpos⟩ := length_of_slot? hslot
      obtain ⟨r, rfl⟩ := prefix_of_slot? hslot
      have hne : slot.text ++ r ≠ [] := by
        rw [Ne, ← List.length_eq_zero_iff, List.length_append]
        omega
      rw [slotsFrom_of_some hslot hpos hne, List.drop_left]
      rw [List.length_append] at hlength
      exact .next hslot (ih r.length (by omega) r rfl)

/-- Nothing of a text is lost by cutting it. -/
theorem Slotted.append_eq {t rest : Text} {slots : List Slot} (h : Slotted t slots rest) :
    slots.flatMap Slot.text ++ rest = t := by
  induction h with
  | stop => rfl
  | next _ _ ih => rw [List.flatMap_cons, List.append_assoc, ih]

/-- What is found where a slot starts. -/
def Slot.found (slot : Slot) (start : Nat) : Found :=
  ⟨slot.name, start + slot.before.length + slot.name.length, slot.value, slot.raw⟩

/-- What is found where a row of slots starts. -/
def foundsFrom : (start : Nat) → List Slot → List Found
  | _, [] => []
  | start, slot :: slots => slot.found start :: foundsFrom (start + slot.text.length) slots

theorem ofMatch?_toMatch (slot : Slot) (start : Nat) :
    Found.ofMatch? start slot.toMatch = some (slot.found start) := by
  have hvalue : slot.text.drop (slot.before.length + slot.name.length) = slot.value := by
    rw [Slot.text, ← List.length_append, List.drop_left]
  obtain ⟨before, name, value, raw⟩ := slot
  cases raw <;> simp [Found.ofMatch?, Match.part?, Slot.toMatch, Slot.found, hvalue]

/-- **Slots are the attributes** that the pattern finds. -/
theorem Slotted.scan {source t rest : Text} {slots : List Slot} {start : Nat}
    (h : Slotted t slots rest) (ht : source.drop start = t) :
    Scan source start (foundsFrom start slots) := by
  induction h generalizing start with
  | stop nothing =>
    refine .stop ?_
    rw [ht, first_attributePattern, nothing]
    rfl
  | @next slot t rest slots cut more ih =>
    have hfinds : attributePattern.first (source.drop start) = some slot.toMatch := by
      rw [ht, first_attributePattern, cut]
      rfl
    have hbehind : source.drop (start + slot.text.length) = t := by
      rw [← List.drop_drop, ht, List.drop_left]
    exact .next hfinds (ofMatch?_toMatch slot start) (ih hbehind)

theorem exists_found_iff {name : Text} {slots : List Slot} {start : Nat} :
    (∃ found ∈ foundsFrom start slots, found.name.lowerCase = name)
      ↔ ∃ slot ∈ slots, slot.name.lowerCase = name := by
  induction slots generalizing start with
  | nil => simp [foundsFrom]
  | cons slot slots ih =>
    simp only [foundsFrom, List.exists_mem_cons_iff, ih]
    rfl

/-! ## Segments -/

/-- A stretch of a source that ends with the value of a changed attribute: what is kept up to the end
of the name, what is found there, and the new value. -/
structure Segment where
  kept : Text
  found : Found
  new : Option Text

namespace Segment

/-- The stretch with the value that was found. -/
def source (segment : Segment) : Text :=
  segment.kept ++ segment.found.value

/-- The stretch with the new value. -/
def result (segment : Segment) : Text :=
  segment.kept ++ renderValue segment.new segment.found.raw

/-- The stretches stand one behind the other, each value where it was found. -/
def InOrder : (start : Nat) → List Segment → Prop
  | _, [] => True
  | start, segment :: segments =>
    segment.found.place = start + segment.kept.length ∧
      InOrder (segment.found.place + segment.found.value.length) segments

end Segment

/-- A source and a result that differ in the values of a tag's changed attributes: both are the same
segments, with the values that were found in the one and the new values in the other. -/
structure Splices (tag : Tag) (start : Nat) (founds : List Found) (source result : Text)
    (segments : List Segment) (last : Text) : Prop where
  source_eq : source = segments.flatMap Segment.source ++ last
  result_eq : result = segments.flatMap Segment.result ++ last
  inOrder : Segment.InOrder start segments
  found_eq : segments.map Segment.found = founds.filter (·.name.lowerCase ∈ tag.changed)
  name : ∀ segment ∈ segments, segment.found.name <:+ segment.kept
  new : ∀ segment ∈ segments,
    lookUp segment.found.name.lowerCase tag.attributes = some segment.new

/-- A name among the keys has a value. -/
theorem exists_lookUp {name : Text} {attributes : List (Text × Option Text)}
    (h : name ∈ attributes.map Prod.fst) : ∃ value, lookUp name attributes = some value := by
  induction attributes with
  | nil => cases h
  | cons a attributes ih =>
    rw [lookUp_cons]
    by_cases ha : a.1 = name
    · exact ⟨a.2, if_pos ha⟩
    · rw [if_neg ha]
      exact ih ((List.mem_cons.mp h).resolve_left (Ne.symm ha))

section Splices

variable {tag : Tag} {start : Nat} {founds : List Found} {source result kept : Text}
  {segments : List Segment} {last : Text} {slot : Slot} {value : Option Text}

/-- Where nothing follows, all is kept. -/
theorem splices_nil (tag : Tag) (start : Nat) (t : Text) : Splices tag start [] t t [] t where
  source_eq := rfl
  result_eq := rfl
  inOrder := trivial
  found_eq := rfl
  name := by simp
  new := by simp

/-- A changed attribute ends a segment. -/
theorem Splices.changed (hchanged : slot.name.lowerCase ∈ tag.changed)
    (hvalue : lookUp slot.name.lowerCase tag.attributes = some value)
    (h : Splices tag (start + kept.length + slot.text.length) founds source result segments last) :
    Splices tag start (slot.found (start + kept.length) :: founds)
      (kept ++ (slot.text ++ source)) (kept ++ (slot.render tag ++ result))
      (⟨kept ++ slot.before ++ slot.name, slot.found (start + kept.length), value⟩ :: segments)
      last where
  source_eq := by
    simp [h.source_eq, Segment.source, Slot.text, Slot.found]
  result_eq := by
    have hget : tag.get? slot.name.lowerCase = value := by
      rw [Tag.get?, hvalue]
      rfl
    have hrender : slot.render tag = slot.before ++ slot.name ++ renderValue value slot.raw := by
      rw [Slot.render, Slot.isChanged, if_pos (by simpa using hchanged), hget]
    simp [h.result_eq, Segment.result, hrender, Slot.found]
  inOrder := by
    -- the value ends where the slot does
    have hbehind : (slot.found (start + kept.length)).place + slot.value.length
        = start + kept.length + slot.text.length := by
      simp only [Slot.found, Slot.text, List.length_append]
      omega
    refine ⟨?_, ?_⟩
    · simp only [Slot.found, List.length_append]
      omega
    · change Segment.InOrder (_ + slot.value.length) segments
      rw [hbehind]
      exact h.inOrder
  found_eq := by
    have hfound : (slot.found (start + kept.length)).name.lowerCase ∈ tag.changed := hchanged
    rw [List.map_cons, List.filter_cons_of_pos (by simpa using hfound), h.found_eq]
  name := by
    rw [List.forall_mem_cons]
    exact ⟨List.suffix_append _ _, h.name⟩
  new := by
    rw [List.forall_mem_cons]
    exact ⟨hvalue, h.new⟩

/-- An attribute that is not changed is passed over. -/
theorem Splices.passed {found : Found} (hkept : found.name.lowerCase ∉ tag.changed)
    (h : Splices tag start founds source result segments last) :
    Splices tag start (found :: founds) source result segments last where
  source_eq := h.source_eq
  result_eq := h.result_eq
  inOrder := h.inOrder
  found_eq := by
    rw [List.filter_cons_of_neg (by simpa using hkept), h.found_eq]
  name := h.name
  new := h.new

/-- **Slots give segments.**  In front of them may stand what is kept since the last changed value. -/
theorem exists_segments (hkeys : ∀ name ∈ tag.changed, name ∈ tag.attributes.map Prod.fst)
    (slots : List Slot) (start : Nat) (kept rest : Text) :
    ∃ segments last, Splices tag start (foundsFrom (start + kept.length) slots)
      (kept ++ (slots.flatMap Slot.text ++ rest)) (kept ++ (slots.flatMap (·.render tag) ++ rest))
      segments last := by
  induction slots generalizing start kept with
  | nil => exact ⟨[], kept ++ rest, splices_nil tag start (kept ++ rest)⟩
  | cons slot slots ih =>
    simp only [List.flatMap_cons, List.append_assoc, foundsFrom]
    by_cases hchanged : slot.name.lowerCase ∈ tag.changed
    · obtain ⟨value, hvalue⟩ := exists_lookUp (hkeys _ hchanged)
      obtain ⟨segments, last, h⟩ := ih (start + kept.length + slot.text.length) []
      exact ⟨_, last, h.changed hchanged hvalue⟩
    · have hrender : slot.render tag = slot.text := by
        rw [Slot.render, Slot.isChanged, if_neg (by simpa using hchanged), Slot.text]
      obtain ⟨segments, last, h⟩ := ih start (kept ++ slot.text)
      rw [List.length_append, ← Nat.add_assoc, List.append_assoc, List.append_assoc] at h
      rw [hrender]
      exact ⟨segments, last, h.passed hchanged⟩

end Splices

/-! ## The tag -/

/-- A tag is written with the slots of its source, if its changed attributes are found. -/
theorem splice?_of_opening (tag : Tag) {source : Text} {n : Nat} (h : opening? source = some n)
    (start : Nat) :
    splice? tag source =
      if ∀ name ∈ tag.changed, ∃ found ∈ foundsFrom start (slotsFrom 0 (source.drop n)).1,
          found.name.lowerCase = name then
        some (source.take n ++ ((slotsFrom 0 (source.drop n)).1.flatMap (·.render tag)
          ++ (slotsFrom 0 (source.drop n)).2))
      else none := by
  have hiff : (tag.changed.all fun name =>
        (slotsFrom 0 (source.drop n)).1.any fun slot => slot.name.lowerCase == name) = true
      ↔ ∀ name ∈ tag.changed, ∃ found ∈ foundsFrom start (slotsFrom 0 (source.drop n)).1,
          found.name.lowerCase = name := by
    simp only [List.all_eq_true, List.any_eq_true, beq_iff_eq, exists_found_iff]
  rw [splice?, h]
  simp only [hiff, List.append_assoc]

/-- **Values in place.**  A start tag whose changed attributes are among its keys is written from its
source if this starts as a tag and has all the changed attributes.  Then source and result are the same
but for the values of the changed attributes, and these are replaced wherever they are found. -/
theorem splice?_segments (tag : Tag) (source : Text)
    (hkeys : ∀ name ∈ tag.changed, name ∈ tag.attributes.map Prod.fst) :
    (openingPattern.first source = none → splice? tag source = none) ∧
    ∀ opening, openingPattern.first source = some opening →
      ∃ founds, (∀ others, Scan source opening.text.length others ↔ others = founds) ∧
        (splice? tag source = none ↔
          ∃ name ∈ tag.changed, ∀ found ∈ founds, found.name.lowerCase ≠ name) ∧
        ∀ result, splice? tag source = some result →
          ∃ segments last, Splices tag 0 founds source result segments last ∧
            ∀ name ∈ tag.changed, ∃ segment ∈ segments,
              segment.found.name.lowerCase = name := by
  rw [first_openingPattern]
  cases hopening : opening? source with
  | none =>
    constructor
    · intro
      rw [splice?, hopening]
    · intro opening h
      cases h
  | some n =>
    constructor
    · intro h
      cases h
    · rintro _ ⟨⟩
      have hslotted := slotted_slotsFrom (source.drop n)
      have hscan := hslotted.scan (Pattern.drop_length_take n source)
      have hsplice := splice?_of_opening tag hopening (source.take n).length
      obtain ⟨segments, last, hsegments⟩ := exists_segments hkeys (slotsFrom 0 (source.drop n)).1 0
        (source.take n) (slotsFrom 0 (source.drop n)).2
      rw [hslotted.append_eq, List.take_append_drop, Nat.zero_add] at hsegments
      generalize foundsFrom (source.take n).length (slotsFrom 0 (source.drop n)).1 = founds
        at hscan hsplice hsegments
      refine ⟨founds, fun others => ⟨fun h => h.unique hscan, fun h => h ▸ hscan⟩, ?_, ?_⟩
      · rw [hsplice]
        simp
      · intro result hresult
        rw [hsplice, Option.ite_none_right_eq_some] at hresult
        obtain ⟨hall, hresult⟩ := hresult
        obtain rfl := Option.some.inj hresult
        refine ⟨segments, last, hsegments, ?_⟩
        intro name hname
        obtain ⟨found, hfound, hlower⟩ := hall name hname
        have hmem : found ∈ segments.map Segment.found := by
          rw [hsegments.found_eq, List.mem_filter]
          exact ⟨hfound, by simpa [hlower] using hname⟩
        obtain ⟨segment, hsegment, rfl⟩ := List.mem_map.mp hmem
        exact ⟨segment, hsegment, hlower⟩

/-- A start tag that has one attribute three times, without a value, in quotes, and behind blanks. -/
def titledSource : Text :=
  "<p Title TITLE='[[a]]' q=a&lt;b title = \"x\"/>".toList

/-- The tag with a new value for this attribute. -/
def titledTag : Tag :=
  ⟨"p".toList, [("title".toList, some "[[b || 'c']]".toList), ("q".toList, some "a<b".toList)],
    some titledSource, true, false, ["title".toList]⟩

/-- The start tag with the new value in all three places. -/
def titledResult : Text :=
  "<p Title=\"[[b || 'c']]\" TITLE='[[b || &#39;c&#39;]]' q=a&lt;b title=\"[[b || 'c']]\"/>".toList

/-- All three places are found and written anew, and what stands between them is kept. -/
theorem splice?_segments_titledTag :
    (∀ name ∈ titledTag.changed, name ∈ titledTag.attributes.map Prod.fst) ∧
      openingPattern.first titledSource = some ⟨"<p".toList, []⟩ ∧
      splice? titledTag titledSource = some titledResult ∧
      ∃ founds segments last, Scan titledSource 2 founds ∧
        Splices titledTag 0 founds titledSource titledResult segments last := by
  have hkeys : ∀ name ∈ titledTag.changed, name ∈ titledTag.attributes.map Prod.fst := by
    decide +kernel
  have hopening : openingPattern.first titledSource = some ⟨"<p".toList, []⟩ := by
    rw [first_openingPattern]
    rfl
  have hresult : splice? titledTag titledSource = some titledResult := by
    decide +kernel
  obtain ⟨-, hopened⟩ := splice?_segments titledTag titledSource hkeys
  obtain ⟨founds, hscan, -, hspliced⟩ := hopened _ hopening
  obtain ⟨segments, last, hsegments, -⟩ := hspliced _ hresult
  exact ⟨hkeys, hopening, hresult, founds, segments, last, (hscan founds).mpr rfl, hsegments⟩

end DataBinding.Markup
