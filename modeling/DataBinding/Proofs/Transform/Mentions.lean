/-
# Which scripts are read

A script is read for a declaration only if its text mentions a call: the name, a parenthesis and a
brace, with blanks between them.  The grammar allows more there, and what it allows otherwise hides
the declaration of a script that does not mention a call elsewhere.

* `mentionsCall_iff` : a text mentions a call where a plain opening stands in it.
* `Stands.startsCall_iff` : an opening is mentioned exactly if it is plain.
* `locate_first` : what is located where a script is the first one to hold a declaration.
-/
import DataBinding.Proofs.Binding.Scanning
import DataBinding.Proofs.Component.Insertion
import DataBinding.Proofs.Transform.Failure

namespace DataBinding

/-! ## Mentions of calls -/

/-- The opening of a call is plain: a name, a parenthesis and a brace, with blanks between them. -/
structure Script.Opening.Plain (o : Script.Opening) : Prop where
  gap : o.gap.allBlank = true
  mark : o.mark = ['(']
  inner : o.inner.allBlank = true

namespace Text

variable {bracket c : Char} {test : Text → Bool} {g t : Text}

/-- Blanks in front of a bracket are passed. -/
theorem opensWith_cons_of_blank (h : isBlank c = true) :
    opensWith bracket test (c :: t) = opensWith bracket test t := by
  unfold opensWith trimLeft
  rw [List.dropWhile_cons_of_pos h]

/-- A character that is no blank is the bracket or none is there. -/
theorem opensWith_cons_of_not_blank (h : isBlank c = false) :
    opensWith bracket test (c :: t) = (c == bracket && test t) := by
  unfold opensWith trimLeft
  rw [List.dropWhile_cons_of_neg (by rw [h]; exact Bool.false_ne_true)]

/-- A text opens with a bracket exactly if blanks stand before one. -/
theorem opensWith_iff (hbracket : isBlank bracket = false) :
    opensWith bracket test t = true ↔
      ∃ g r, t = g ++ bracket :: r ∧ g.allBlank = true ∧ test r = true := by
  constructor
  · intro h
    induction t with
    | nil => cases h
    | cons c t ih =>
      cases hblank : isBlank c with
      | true =>
        rw [opensWith_cons_of_blank hblank] at h
        obtain ⟨g, r, rfl, hg, hr⟩ := ih h
        exact ⟨c :: g, r, rfl, by rw [allBlank, List.all_cons, hblank]; exact hg, hr⟩
      | false =>
        rw [opensWith_cons_of_not_blank hblank, Bool.and_eq_true, beq_iff_eq] at h
        exact ⟨[], t, by rw [h.1]; rfl, rfl, h.2⟩
  · rintro ⟨g, r, rfl, hg, hr⟩
    induction g with
    | nil =>
      rw [List.nil_append, opensWith_cons_of_not_blank hbracket, hr, beq_self_eq_true]
      rfl
    | cons c g ih =>
      rw [allBlank, List.all_cons, Bool.and_eq_true] at hg
      rw [List.cons_append, opensWith_cons_of_blank hg.1]
      exact ih hg.2

/-- A name starts a call exactly if a plain opening does. -/
theorem startsCall_iff {name : Text} :
    startsCall name t = true ↔ ∃ o : Script.Opening, o.Plain ∧ t = o.call name := by
  unfold startsCall
  constructor
  · intro h
    cases hdrop : dropLead? name t with
    | none =>
      rw [hdrop] at h
      cases h
    | some rest =>
      rw [hdrop] at h
      obtain ⟨gap, behind, rfl, hgap, hbehind⟩ := (opensWith_iff (by decide)).mp h
      obtain ⟨inner, after, rfl, hinner, -⟩ := (opensWith_iff (by decide)).mp hbehind
      refine ⟨⟨[], gap, ['('], inner, after⟩, ⟨hgap, rfl, hinner⟩, ?_⟩
      exact dropLead?_eq_some_iff.mp hdrop
  · rintro ⟨o, ⟨hgap, hmark, hinner⟩, rfl⟩
    have hbehind : opensWith '\x7b' (fun _ => true) (o.inner ++ '\x7b' :: o.after) = true :=
      (opensWith_iff (by decide)).mpr ⟨_, _, rfl, hinner, rfl⟩
    rw [Script.Opening.call, hmark, dropLead?_eq_some_iff.mpr rfl]
    exact (opensWith_iff (by decide)).mpr ⟨_, _, rfl, hgap, hbehind⟩

/-- A text mentions a call where the rest of it starts with one. -/
theorem mentionsCall_iff_suffix {name : Text} :
    t.mentionsCall name = true ↔ ∃ rest, rest <:+ t ∧ startsCall name rest = true := by
  induction t with
  | nil => simp [mentionsCall]
  | cons c t ih =>
    simp only [mentionsCall, Bool.or_eq_true, ih, List.suffix_cons_iff, or_and_right, exists_or,
      exists_eq_left]

/-- **A text mentions a call** where a plain opening stands in it. -/
theorem mentionsCall_iff {name : Text} :
    t.mentionsCall name = true ↔
      ∃ o : Script.Opening, o.Plain ∧ t = o.before ++ o.call name := by
  rw [mentionsCall_iff_suffix]
  constructor
  · rintro ⟨rest, ⟨before, rfl⟩, h⟩
    obtain ⟨o, hplain, rfl⟩ := startsCall_iff.mp h
    exact ⟨{ o with before }, ⟨hplain.gap, hplain.mark, hplain.inner⟩, rfl⟩
  · rintro ⟨o, hplain, rfl⟩
    exact ⟨o.call name, List.suffix_append .., startsCall_iff.mpr ⟨o, hplain, rfl⟩⟩

end Text

/-! ## Openings that are mentioned -/

namespace Script

open Text

variable {bracket x : Char} {test : Text → Bool} {g r : Text} {loose : Bool}

/-- Neither a blank, a comment, a comma nor a line set aside starts with a bracket of a call, so a
bracket is found behind a stretch exactly if the stretch is blank. -/
theorem Stretch.opensWith_iff (h : Stretch loose g (x :: r)) (hx : isBlank x = false)
    (hbracket : bracket = '(' ∨ bracket = '\x7b') :
    opensWith bracket test (g ++ x :: r) = true ↔
      g.allBlank = true ∧ x = bracket ∧ test r = true := by
  -- the search passes blanks only, so that another character of the stretch ends it
  have hother : ∀ (c : Char) (g t : Text), isBlank c = false → c ≠ bracket →
      (opensWith bracket test (c :: t) = true ↔
        allBlank (c :: g) = true ∧ x = bracket ∧ test r = true) := by
    intro c g t hblank hne
    rw [opensWith_cons_of_not_blank hblank, beq_false_of_ne hne]
    simp [allBlank, hblank]
  have hmark : ∀ c ∈ ['/', ',', '<', '-'], c ≠ bracket := by
    rcases hbracket with rfl | rfl <;> decide
  generalize ht : x :: r = t at h
  induction h with
  | nil =>
    subst ht
    rw [List.nil_append, opensWith_cons_of_not_blank hx]
    simp [allBlank]
  | @blank c g t hspacing rest ih =>
    cases hblank : isBlank c with
    | true =>
      rw [List.cons_append, opensWith_cons_of_blank hblank]
      refine (ih ht).trans ?_
      simp [allBlank, hblank]
    -- some spaces between tokens are no blanks for the search
    | false =>
      refine hother c g _ hblank ?_
      rintro rfl
      rcases hbracket with rfl | rfl <;> exact absurd hspacing (by decide)
  | comment hcomment rest ih =>
    obtain ⟨u, rfl, -⟩ := hcomment.head?
    exact hother '/' _ _ (by decide) (hmark _ (by decide))
  | comma allowed rest ih => exact hother ',' _ _ (by decide) (hmark _ (by decide))
  | remark allowed hremark rest ih =>
    obtain ⟨mark, u, rfl | rfl, rfl, -⟩ := hremark
    · exact hother '<' _ _ (by decide) (hmark _ (by decide))
    · exact hother '-' _ _ (by decide) (hmark _ (by decide))

/-- **An opening is mentioned** exactly if it is plain. -/
theorem Opening.Stands.startsCall_iff {o : Opening} {name t : Text} {place : Nat}
    (h : o.Stands name t place) : startsCall name (o.call name) = true ↔ o.Plain := by
  have hgap := h.gap
  unfold startsCall
  rw [Opening.call, dropLead?_eq_some_iff.mpr rfl]
  obtain hmark | ⟨g, hmark, -⟩ := h.mark
  · rw [hmark] at hgap
    have hinner : opensWith '\x7b' (fun _ => true) (o.inner ++ '\x7b' :: o.after) = true ↔
        o.inner.allBlank = true ∧ '\x7b' = '\x7b' ∧ true = true :=
      h.inner.opensWith_iff (by decide) (.inr rfl)
    rw [hmark]
    refine (hgap.opensWith_iff (by decide) (.inl rfl)).trans ?_
    constructor
    · rintro ⟨hblank, -, hbehind⟩
      exact ⟨hblank, hmark, (hinner.mp hbehind).1⟩
    · rintro ⟨hblank, -, hblank'⟩
      exact ⟨hblank, rfl, hinner.mpr ⟨hblank', rfl, rfl⟩⟩
  · rw [hmark] at hgap
    rw [hmark]
    refine (hgap.opensWith_iff (by decide) (.inl rfl)).trans ?_
    constructor
    · rintro ⟨-, hquestion, -⟩
      cases hquestion
    · rintro ⟨-, hplain, -⟩
      rw [hmark] at hplain
      cases hplain

end Script

/-! ## The first script with a declaration -/

namespace Declaration

variable {register t : Text} {object : Script.Node}

/-- Scripts without a declaration are searched in vain. -/
theorem search_append {before after : List (Markup.Address × Text)}
    (h : ∀ script ∈ before, object? register script.2 = none) :
    (search register (before ++ after)).1 = (search register after).1 := by
  induction before with
  | nil => rfl
  | cons script before ih =>
    obtain ⟨address, t⟩ := script
    obtain ⟨hscript, hbefore⟩ := List.forall_mem_cons.mp h
    have hof : ofScript? register address t = none := by
      rw [ofScript?_eq, hscript, Option.map_none]
    rw [List.cons_append, search, hof]
    split
    · exact ih hbefore
    · exact ih hbefore

/-- A script with a declaration is passed if its text mentions no call. -/
theorem search_cons {address : Markup.Address} {after : List (Markup.Address × Text)}
    (h : object? register t = some object) :
    (search register ((address, t) :: after)).1 = if t.mentionsCall register then
      some (ofObject address object (Script.parse t).fault.isSome) else (search register after).1 := by
  have hof : ofScript? register address t =
      some (ofObject address object (Script.parse t).fault.isSome) := by
    rw [ofScript?_eq, h, Option.map_some]
  rw [search, hof]
  split <;> rfl

end Declaration

namespace Transform

variable {document : Markup.Document} {options : Options}

/-- A document whose declaration is located is transformed in every mode, unless something stops the
transform. -/
theorem transform_of_located {html filePath : Text} {d : Declaration}
    (hparse : Markup.Document.parse html = .ok document)
    (h : (Declaration.locate document options.register).1 = some d) :
    (∃ result, (transform options filePath html).1 = .ok result) ∨
      ∃ obstacle, obstacle? options document = some obstacle ∧
        (transform options filePath html).1 = .error (.stopped obstacle) := by
  cases htransform : (transform options filePath html).1 with
  | ok result => exact .inl ⟨result, rfl⟩
  | error fault =>
    cases (transform_error_iff hparse options filePath fault).mp htransform with
    | stopped _ hreached => exact .inr ⟨_, hreached, rfl⟩
    | undeclared _ _ hlacks => cases h.symm.trans hlacks.undeclared

end Transform

namespace Declaration

open Script (Opening)

/-- **Where the first declaration is found.**  Let a script be the first one, in document order, in
which a call of the registration function with an object literal is read.  The call opens in the text of
the script as the grammar allows it, and is mentioned exactly if this opening is plain: if only blanks
stand between the name, the parenthesis and the brace.  The script is read exactly if a plain opening
stands somewhere in its text.  Then the declaration is the one that is located, and no mode fails the
document, unless something stops its transform; else the script is passed, and the search goes on
behind it.  If the scripts are legible, the located declaration is in a script without errors. -/
theorem locate_first {document : Markup.Document} {register t : Text} {address : Markup.Address}
    {before after : List (Markup.Address × Text)} {object : Script.Node}
    (hscripts : scripts document = before ++ (address, t) :: after)
    (hbefore : ∀ script ∈ before, object? register script.2 = none)
    (hobject : object? register t = some object) :
    (∃ o : Opening, o.Stands register t object.span.start ∧
      (Text.startsCall register (o.call register) = true ↔ o.Plain) ∧
      (o.Plain → t.mentionsCall register = true)) ∧
    (t.mentionsCall register = true ↔
      ∃ o : Opening, o.Plain ∧ t = o.before ++ o.call register) ∧
    ((locate document register).1 = if t.mentionsCall register then
      some (ofObject address object (Script.parse t).fault.isSome) else (search register after).1) ∧
    (t.mentionsCall register = true → ∀ (options : Options) (filePath html : Text),
      options.register = register → Markup.Document.parse html = .ok document →
      (∃ result, (transform options filePath html).1 = .ok result) ∨
        ∃ obstacle, Transform.obstacle? options document = some obstacle ∧
          (transform options filePath html).1 = .error (.stopped obstacle)) ∧
    (Legible document register → ∀ d ∈ (locate document register).1, d.hasErrors = false) := by
  have hlocate : (locate document register).1 = if t.mentionsCall register then
      some (ofObject address object (Script.parse t).fault.isSome)
      else (search register after).1 := by
    rw [locate, hscripts, search_append hbefore, search_cons hobject]
  refine ⟨?_, Text.mentionsCall_iff, hlocate, ?_, fun hlegible _ => hasErrors_of_legible hlegible⟩
  · obtain ⟨o, hstands⟩ := exists_stands_of_object? hobject
    refine ⟨o, hstands, hstands.startsCall_iff, fun hplain => ?_⟩
    exact Text.mentionsCall_iff.mpr ⟨o, hplain, hstands.text⟩
  · rintro hmentions options filePath html rfl hparse
    rw [if_pos hmentions] at hlocate
    exact Transform.transform_of_located hparse hlocate

/-- A call with blanks only between the parenthesis and the brace. -/
def plainCall : Text :=
  "Polymer( \x7bis: 'x-a'\x7d)".toList

/-- A module with a script that declares nothing and one with a plain call. -/
def plainPage : Text :=
  "<dom-module id=x-a><template>[[b + 1]]</template><script>var a;</script><script>".toList ++
    (plainCall ++ "</script></dom-module>".toList)

/-- The call is mentioned, so its declaration is located and strict mode gives a result. -/
theorem locate_plainPage :
    ∃ document object, Markup.Document.parse plainPage = .ok document ∧
      scripts document = [([0, 1, 0], "var a;".toList)] ++ ([0, 2, 0], plainCall) :: [] ∧
      object? "Polymer".toList "var a;".toList = none ∧
      object? "Polymer".toList plainCall = some object ∧
      plainCall.mentionsCall "Polymer".toList = true ∧ Legible document "Polymer".toList ∧
      (locate document "Polymer".toList).1 = some (ofObject [0, 2, 0] object false) ∧
      ∃ result, (transform (Transform.inMode {} true) [] plainPage).1 = .ok result := by
  have hall : (Markup.Document.parse plainPage).toOption.map (fun document =>
      (scripts document, Transform.obstacle? {} document)) =
      some ([([0, 1, 0], "var a;".toList)] ++ ([0, 2, 0], plainCall) :: [], none) := by
    decide +kernel
  obtain ⟨document, hdocument, hfacts⟩ := Option.map_eq_some_iff.mp hall
  obtain ⟨hscripts, hfree⟩ := Prod.mk.inj hfacts
  have hparse := eq_ok_of_toOption hdocument
  have hnone : object? "Polymer".toList "var a;".toList = none :=
    Option.isNone_iff_eq_none.mp (by decide +kernel)
  have hsome : (object? "Polymer".toList plainCall).isSome = true := by
    decide +kernel
  have hfault : (Script.parse plainCall).fault = none := by
    decide +kernel
  have hmentions : plainCall.mentionsCall "Polymer".toList = true := by
    decide +kernel
  have hlegible : Legible document "Polymer".toList := by
    intro script hscript hcall
    rw [hscripts] at hscript
    rcases List.mem_pair.mp hscript with rfl | rfl
    · exact absurd hcall (by decide +kernel)
    · exact hfault
  obtain ⟨object, hobject⟩ := Option.isSome_iff_exists.mp hsome
  obtain ⟨-, -, hlocate, hstrict, -⟩ :=
    locate_first hscripts (List.forall_mem_singleton.mpr hnone) hobject
  rw [if_pos hmentions, hfault] at hlocate
  refine ⟨document, object, hparse, hscripts, hnone, hobject, hmentions, hlegible, hlocate, ?_⟩
  obtain hresult | ⟨obstacle, hobstacle, -⟩ :=
    hstrict hmentions (Transform.inMode {} true) [] plainPage rfl hparse
  · exact hresult
  · cases hfree.symm.trans hobstacle

/-- A call with a comment in front of its brace. -/
def remarkedCall : Text :=
  "Polymer(/* the card */\x7bis: 'x-a'\x7d)".toList

/-- A module whose declaration is that call. -/
def remarkedPage : Text :=
  "<dom-module id=x-a><template>[[b + 1]]</template><script>".toList ++
    (remarkedCall ++ "</script></dom-module>".toList)

/-- The call is read, but not mentioned: no declaration is located, and strict mode fails for want of
one. -/
theorem hidden_remarkedPage :
    ∃ document object, Markup.Document.parse remarkedPage = .ok document ∧
      scripts document = [([0, 1, 0], remarkedCall)] ∧
      object? "Polymer".toList remarkedCall = some object ∧
      remarkedCall.mentionsCall "Polymer".toList = false ∧
      (locate document "Polymer".toList).1 = none ∧
      (transform (Transform.inMode {} true) [] remarkedPage).1
        = .error (.missingDeclaration "x-a".toList 1 "Polymer".toList) := by
  have hall : (Markup.Document.parse remarkedPage).toOption.map (fun document =>
      (scripts document, Transform.moduleId? document, (Rewrite.computationsOf document).length,
        Transform.obstacle? {} document)) =
      some ([([0, 1, 0], remarkedCall)], some "x-a".toList, 1, none) := by
    decide +kernel
  obtain ⟨document, hdocument, hfacts⟩ := Option.map_eq_some_iff.mp hall
  simp only [Prod.mk.injEq] at hfacts
  obtain ⟨hscripts, hid, hcount, hfree⟩ := hfacts
  have hparse := eq_ok_of_toOption hdocument
  have hsome : (object? "Polymer".toList remarkedCall).isSome = true := by
    decide +kernel
  have hmentions : remarkedCall.mentionsCall "Polymer".toList = false := by
    decide +kernel
  obtain ⟨object, hobject⟩ := Option.isSome_iff_exists.mp hsome
  have hlocate : (locate document "Polymer".toList).1 = none := by
    rw [locate, hscripts, search, hmentions]
    rfl
  have hlacks : Transform.Lacks {} document "x-a".toList :=
    ⟨hid, List.ne_nil_of_length_eq_add_one hcount, hlocate⟩
  refine ⟨document, object, hparse, hscripts, hobject, hmentions, hlocate, ?_⟩
  exact (Transform.transform_error_iff hparse _ [] _).mpr (hcount ▸ .undeclared rfl hfree hlacks)

end Declaration
end DataBinding
