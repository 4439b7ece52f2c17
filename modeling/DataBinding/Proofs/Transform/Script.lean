/-
# The script that is written

The generated functions are put into the text of a script, which is written as it is.  An expression
may hold an end tag of the script, in a string or in a comment, and then the script ends there when it
is read.  The key facts are

* `holdsEnd_injected` : the script with the functions holds an end tag only if a function does;
* `script_readBack_iff` : the script that is written is read back exactly if no function holds an end
  tag, provided that its start tag is read as itself, as steady ones are.
-/
import DataBinding.Proofs.Markup.SteadyTags
import DataBinding.Proofs.Transform.Frame

namespace DataBinding

open Markup

/-! ## End tags in an injection -/

namespace Injection

variable {name rest : Text}

/-- A line whose last character keeps apart. -/
theorem holdsEnd_line {line : Text} {c : Char} (hc : KeepsApart c) (hlt : c ≠ '<') :
    HoldsEnd name ((line ++ [c]) ++ '\n' :: rest) ↔ HoldsEnd name (line ++ [c]) ∨ HoldsEnd name rest := by
  have hsingle : ¬ HoldsEnd name [c] := not_holdsEnd_of_notMem (by simp [Ne.symm hlt])
  rw [List.append_assoc, List.singleton_append, holdsEnd_append_cons hc, holdsEnd_append_cons hc,
    holdsEnd_cons hlt, holdsEnd_cons (by decide), or_iff_left hsingle]

/-- The first one of several texts is joined to the others by the separator. -/
theorem join_cons_concat (sep t last : Text) (ts : List Text) :
    Text.join sep (t :: (ts ++ [last])) = t ++ sep ++ Text.join sep (ts ++ [last]) := by
  cases ts <;> rfl

/-- Lines that are functions hold an end tag if one of the functions does, or what follows. -/
theorem holdsEnd_functions (fs : List FunctionDefinition) (last : Text) :
    HoldsEnd name (Text.join ['\n'] (fs.map (·.property) ++ [last]) ++ rest) ↔
      (∃ f ∈ fs, HoldsEnd name f.property) ∨ HoldsEnd name (last ++ rest) := by
  induction fs with
  | nil => simp [Text.join]
  | cons f fs ih =>
    rw [List.map_cons, List.cons_append, join_cons_concat, List.append_assoc, List.append_assoc,
      List.singleton_append, FunctionDefinition.property, holdsEnd_line (by decide) (by decide), ih,
      ← FunctionDefinition.property]
    simp [or_assoc]

/-- **A text with injected functions** behind a brace holds an end tag if the text does or one of the
functions. -/
theorem holdsEnd_injected (scope : Scope) (before after : Text) :
    HoldsEnd name (before ++ '\x7b' :: (render scope ++ after)) ↔
      HoldsEnd name (before ++ '\x7b' :: after) ∨ ∃ f ∈ scope.functions, HoldsEnd name f.property := by
  have hrender : render scope ++ after
      = '\n' :: (("//### auto-generated *Computed Bindings".toList ++ ['*']) ++
          '\n' :: (Text.join ['\n'] (scope.functions.map (·.property) ++ ["//###".toList]) ++
            '\n' :: after)) := by
    rw [render, lines, join_cons_concat]
    simp
  have hheader : ¬ HoldsEnd name ("//### auto-generated *Computed Bindings".toList ++ ['*']) :=
    not_holdsEnd_of_notMem (by decide)
  have hfooter : ¬ HoldsEnd name ("//##".toList ++ ['#']) := not_holdsEnd_of_notMem (by decide)
  have hlast : "//###".toList = "//##".toList ++ ['#'] := rfl
  rw [hrender, hlast, holdsEnd_append_cons (by decide), holdsEnd_append_cons (by decide),
    holdsEnd_cons (by decide), holdsEnd_cons (by decide), holdsEnd_cons (by decide),
    holdsEnd_line (by decide) (by decide), or_iff_right hheader, holdsEnd_functions,
    holdsEnd_line (by decide) (by decide), or_iff_right hfooter, or_assoc]
  exact or_congr_right or_comm

end Injection

namespace Transform

/-! ## The script of the declaration -/

/-- The document that is written for a module whose bindings are rewritten. -/
def written (options : Options) (before rewritten : Document) (last : Scope) : Document :=
  placed (Declaration.locate before options.register).1 rewritten last

section Script

variable {options : Options} {filePath html id : Text} {before rewritten : Document}
  {known last : Scope} {result : Result} {d : Declaration}

/-- The result for a module is the document that is written for it, with the functions of the
rewriting. -/
theorem exists_written_of_transform (h : (transform options filePath html).1 = .ok result)
    (hid : result.moduleId = some id) (hparse : Document.parse html = .ok before) :
    ∃ known rewritten last, Rewritten options filePath id before known rewritten last ∧
      result.text = (written options before rewritten last).write ∧
      result.functions = last.functions := by
  obtain ⟨found, hfound, ⟨_, rfl⟩ | ⟨id', hmodule, hresult⟩⟩ := cases_of_transform h
  · simp [Result.unchanged] at hid
  · obtain rfl := Except.ok.inj (hparse.symm.trans hfound)
    obtain ⟨known, rewritten, last, hrewritten, hplace⟩ := exists_rewritten_of_transformModule hresult
    obtain ⟨scope, rfl, hfunctions, hname⟩ := eq_ofModule_of_place hplace
    obtain rfl : id' = id := by
      have hsome : some scope.moduleId = some id := hid
      rw [← hrewritten.moduleId_eq, ← hname]
      exact Option.some.inj hsome
    exact ⟨known, rewritten, last, hrewritten, rfl, hfunctions⟩

/-- A script element that is written: it has one text, it was opened by a start tag that was read,
and it is closed unless the text ends with a false end. -/
structure IsScript (tag : Tag) (t : Text) : Prop where
  name : tag.name = "script".toList
  full : t ≠ []
  opened : tag.selfClosing = false
  closed : tag.closed = true ∨ EndsFalsely tag.name t
  read : tag.WasRead

/-- **The script of the declaration** holds one text, and an end tag only if one of the injected
functions does. -/
theorem exists_script_of_written (hparse : Document.parse html = .ok before)
    (hd : (Declaration.locate before options.register).1 = some d)
    (h : Rewritten options filePath id before known rewritten last) (hfunctions : last.functions ≠ []) :
    ∃ outer tag t, d.address = outer ++ [0] ∧
      (written options before rewritten last).get? outer = some (.element tag [.text t]) ∧
      IsScript tag t ∧
      (HoldsEnd tag.name t ↔ ∃ f ∈ last.functions, HoldsEnd tag.name f.property) := by
  have hframe : FrameOf options.register before (written options before rewritten last) last :=
    frameOf_placed options.register (h.framed hparse) h.eq_self
  obtain ⟨outer, tag, t, rest, haddress, hname, hget, -⟩ := Declaration.text_of_locate hd
  have hraw : isRawText tag.name = true := by
    rw [hname]
    decide
  obtain ⟨rfl, hfull, hholds⟩ := Document.rawText_of_parse hparse hget hraw
  have hwasRead := Document.wasRead_of_get? hparse hget
  obtain ⟨read, _, opened, behind, hread, _, rfl, _, _, hwritten⟩ := hframe.script d hd
  -- what is read at the address of the declaration is the text of its script
  have hbefore : before.get? (outer ++ [0]) = some (.text t) := by
    rw [Document.get?, Document.nodeAt?_append hget (by simp)]
    rfl
  rw [haddress, hbefore] at hread
  obtain rfl := Node.text.inj (Option.some.inj hread)
  rw [if_neg hfunctions, haddress] at hwritten
  obtain ⟨_, _, node, hnode, hframed⟩ := FramedAll.nodeAt? hframe.frame hget
  cases hframed with
  | @element _ _ _ _ tag' _ children revises _ _ inside =>
    obtain ⟨head, _, hhead⟩ : ∃ head tail, children = head :: tail ∧ tail = [] := by
      cases inside with
      | cons head tail =>
        cases tail
        exact ⟨_, _, rfl, rfl⟩
    obtain ⟨rfl, rfl⟩ := hhead
    have hhead : (written options before rewritten last).get? (outer ++ [0]) = some head := by
      rw [Document.get?, Document.nodeAt?_append hnode (by simp)]
      rfl
    obtain rfl := Option.some.inj (hhead.symm.trans hwritten)
    refine ⟨outer, tag', _, haddress, hnode, ⟨revises.name.trans hname, by simp, ?_, ?_, ?_⟩, ?_⟩
    · rw [revises.selfClosing]
      exact hholds.opened.resolve_left hfull
    · rw [revises.closed, revises.name]
      refine (hholds.closed.resolve_left hfull).imp_right fun hends => ?_
      -- a false end stands behind the brace, and so behind the functions
      rw [List.append_cons, ← List.append_assoc]
      refine (hends.of_append_cons (by decide) ?_ (by decide) (by decide)).append_left _
      rw [hname]
      decide
    · rw [Tag.WasRead, revises.source, revises.name, revises.selfClosing]
      exact hwasRead
    · rw [revises.name, Injection.holdsEnd_injected, or_iff_right hholds.unended]

/-- **The script that is written is read back** as one script element with one text, the injected
text, exactly if no generated function holds an end tag of a script, provided that its start tag is
read as itself in front of that text.  A steady start tag is: all its quotes are paired, and if a walk
set attributes of it, what is written is one start tag of a script. -/
theorem script_readBack_iff (h : (transform options filePath html).1 = .ok result)
    (hid : result.moduleId = some id) (hfunctions : result.functions ≠ [])
    (hparse : Document.parse html = .ok before)
    (hd : (Declaration.locate before options.register).1 = some d) :
    ∃ known rewritten last, Rewritten options filePath id before known rewritten last ∧
      result.text = (written options before rewritten last).write ∧
      ∃ outer tag t, d.address = outer ++ [0] ∧
        (written options before rewritten last).get? outer = some (.element tag [.text t]) ∧
        tag.name = "script".toList ∧
        (tag.IsSteady → ∀ behind, tag.ReadsBack behind) ∧
        (tag.ReadsBack (t ++ tag.closing) →
          ((∃ read : Tag, read.name = tag.name ∧
            Document.parse (Node.write (.element tag [.text t])) = .ok ⟨[.element read [.text t]]⟩) ↔
            ∀ f ∈ result.functions, ¬ HoldsEnd tag.name f.property)) := by
  obtain ⟨known, rewritten, last, hrewritten, htext, heq⟩ := exists_written_of_transform h hid hparse
  rw [heq] at hfunctions ⊢
  obtain ⟨outer, tag, t, haddress, hget, hscript, hholds⟩ :=
    exists_script_of_written hparse hd hrewritten hfunctions
  refine ⟨known, rewritten, last, hrewritten, htext, outer, tag, t, haddress, hget, hscript.name,
    fun hsteady => hsteady.readsBack hscript.read hscript.opened, fun hback => ?_⟩
  have hraw : isRawText tag.name = true := by
    rw [hscript.name]
    decide
  rw [parse_rawElement_iff hraw hback hscript.full hscript.closed hscript.opened, hholds, not_exists]
  simp only [not_and]

end Script

/-- A module with a binding that holds an end tag of a script in a string. -/
def endTagPage : Text :=
  ("<dom-module id=x><template>[[a + \"</script>\"]]</template>" ++
    "<script>Polymer(\x7bis:'x'\x7d)</script></dom-module>").toList

/-- What a transform makes of the page, with the script that is written and what it is read as. -/
theorem transform_endTagPage :
    ∃ result before d again, (transform {} [] endTagPage).1 = .ok result ∧
      result.moduleId = some ['x'] ∧ result.functions ≠ [] ∧
      Document.parse endTagPage = .ok before ∧
      (Declaration.locate before "Polymer".toList).1 = some d ∧ again.children.length = 2 ∧
      ∀ known rewritten last, Rewritten {} [] ['x'] before known rewritten last →
        ∃ outer tag t, d.address = outer ++ [0] ∧
          (written {} before rewritten last).get? outer = some (.element tag [.text t]) ∧
          tag.write = "<script>".toList ∧
          Document.parse (Node.write (.element tag [.text t])) = .ok again := by
  have hall : ((transform {} [] endTagPage).1.toOption.bind fun result =>
      (Document.parse endTagPage).toOption.bind fun before =>
        (Declaration.locate before "Polymer".toList).1.bind fun d =>
          (learned {} [] ['x'] before).toOption.bind fun known =>
            (Rewrite.document before known).toOption.bind fun r =>
              ((written {} before r.1 r.2).get? d.address.dropLast).bind fun script =>
                script.tag?.bind fun tag =>
                  (Document.parse script.write).toOption.map fun again =>
                    (result.moduleId, result.functions.length, tag.write, again.children.length))
      = some (some ['x'], 1, "<script>".toList, 2) := by
    decide +kernel
  obtain ⟨result, hresult, hall⟩ := Option.bind_eq_some_iff.mp hall
  obtain ⟨before, hbefore, hall⟩ := Option.bind_eq_some_iff.mp hall
  obtain ⟨d, hd, hall⟩ := Option.bind_eq_some_iff.mp hall
  obtain ⟨known, hknown, hall⟩ := Option.bind_eq_some_iff.mp hall
  obtain ⟨⟨rewritten, last⟩, hrewritten, hall⟩ := Option.bind_eq_some_iff.mp hall
  obtain ⟨script, hget, hall⟩ := Option.bind_eq_some_iff.mp hall
  obtain ⟨found, hfound, hall⟩ := Option.bind_eq_some_iff.mp hall
  obtain ⟨again, hagain, hfacts⟩ := Option.map_eq_some_iff.mp hall
  simp only [Prod.mk.injEq] at hfacts
  obtain ⟨hid, hcount, hwrite, hlength⟩ := hfacts
  have h := eq_ok_of_toOption hresult
  have hparse := eq_ok_of_toOption hbefore
  have hne : result.functions ≠ [] := List.ne_nil_of_length_eq_add_one hcount
  refine ⟨result, before, d, again, h, hid, hne, hparse, hd, hlength, fun known' rewritten' last' h' => ?_⟩
  -- the rewriting of the page is the one that was looked at
  obtain rfl := Except.ok.inj (h'.learned.symm.trans (eq_ok_of_toOption hknown))
  obtain ⟨rfl, rfl⟩ := Prod.mk.inj
    (Except.ok.inj (h'.rewritten.symm.trans (eq_ok_of_toOption hrewritten)))
  obtain ⟨known', rewritten', last', h'', -, hfunctions⟩ := exists_written_of_transform h hid hparse
  obtain rfl := Except.ok.inj (h''.learned.symm.trans h'.learned)
  obtain ⟨rfl, rfl⟩ := Prod.mk.inj (Except.ok.inj (h''.rewritten.symm.trans h'.rewritten))
  obtain ⟨outer, tag, t, houter, hscript, -⟩ :=
    exists_script_of_written hparse hd h' (hfunctions ▸ hne)
  rw [houter, List.dropLast_concat, hscript] at hget
  obtain rfl := Option.some.inj hget
  obtain rfl : tag = found := Option.some.inj hfound
  exact ⟨outer, tag, t, houter, hscript, hwrite, eq_ok_of_toOption hagain⟩

/-- The script that is written for the page ends in the string when it is read. -/
theorem script_endTagPage :
    ∃ result before known rewritten last d outer tag t, (transform {} [] endTagPage).1 = .ok result ∧
      result.functions ≠ [] ∧ Document.parse endTagPage = .ok before ∧
      Rewritten {} [] ['x'] before known rewritten last ∧
      result.text = (written {} before rewritten last).write ∧
      (Declaration.locate before "Polymer".toList).1 = some d ∧ d.address = outer ++ [0] ∧
      (written {} before rewritten last).get? outer = some (.element tag [.text t]) ∧
      ∀ read, Document.parse (Node.write (.element tag [.text t])) ≠ .ok ⟨[.element read [.text t]]⟩ := by
  obtain ⟨result, before, d, again, h, hid, hne, hparse, hd, hlength, hscript⟩ := transform_endTagPage
  obtain ⟨known, rewritten, last, hrewritten, htext, -⟩ := exists_written_of_transform h hid hparse
  obtain ⟨outer, tag, t, houter, hget, -, hagain⟩ := hscript known rewritten last hrewritten
  refine ⟨result, before, known, rewritten, last, d, outer, tag, t, h, hne, hparse, hrewritten, htext,
    hd, houter, hget, fun read hread => ?_⟩
  obtain rfl := Except.ok.inj (hagain.symm.trans hread)
  exact absurd hlength (by simp)

/-- So one of the functions that are generated for the page holds an end tag. -/
theorem holdsEnd_endTagPage :
    ∃ result, (transform {} [] endTagPage).1 = .ok result ∧
      ∃ f ∈ result.functions, HoldsEnd "script".toList f.property := by
  obtain ⟨result, before, d, again, h, hid, hne, hparse, hd, hlength, hscript⟩ := transform_endTagPage
  obtain ⟨known, rewritten, last, hrewritten, -, outer, tag, t, houter, hget, hname, hback, hiff⟩ :=
    script_readBack_iff h hid hne hparse hd
  obtain ⟨outer', tag', t', houter', hget', hwrite, hagain⟩ :=
    hscript known rewritten last hrewritten
  obtain rfl : outer' = outer := (List.append_inj' (houter'.symm.trans houter) rfl).1
  obtain ⟨rfl, hnodes⟩ := Node.element.inj (Option.some.inj (hget.symm.trans hget'))
  obtain rfl : t = t' := by simpa using hnodes
  refine ⟨result, h, ?_⟩
  by_contra hnone
  rw [← hname] at hnone
  obtain ⟨read, -, hread⟩ := (hiff (hback (Tag.isSteady_of_plain hname hwrite) _)).mpr
    fun f hf hholds => hnone ⟨f, hf, hholds⟩
  obtain rfl := Except.ok.inj (hagain.symm.trans hread)
  exact absurd hlength (by simp)

end Transform
end DataBinding
