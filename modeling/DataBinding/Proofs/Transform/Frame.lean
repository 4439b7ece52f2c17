/-
# What a transform leaves as it is

A transform of a module changes texts and attribute values below host templates, and puts the
generated functions into the script of the declaration.  The key fact is

* `transform_framed` : the document that is written stays inside this frame of the document that was
  read, and is that document if no function is generated.
-/
import DataBinding.Proofs.Component.Insertion
import DataBinding.Proofs.Transform.Phases

namespace DataBinding

namespace Transform

/-- What a transform makes of a document, given the functions that it generates.  Only texts and
attribute values below host templates change, and the script of the declaration: it is cut behind the
brace that opens the declared object literal, where the functions are put in if there are any. -/
structure FrameOf (register : Text) (before after : Markup.Document) (scope : Scope) : Prop where
  frame : before.Framed
    (fun address _ _ => ∃ d ∈ (Declaration.locate before register).1, d.address = address) after
  script : ∀ d ∈ (Declaration.locate before register).1, ∃ t object opened rest,
    before.get? d.address = some (.text t) ∧
    Declaration.object? register t = some object ∧
    t = opened ++ '\x7b' :: rest ∧ Text.byteLength opened = object.span.start ∧
    d.insertAt = object.span.start + 1 ∧
    after.get? d.address = some (.text (opened ++ '\x7b' ::
      if scope.functions = [] then rest else Injection.render scope ++ rest))
  idle : scope.functions = [] → after = before

/-- The frame depends on the functions alone. -/
theorem FrameOf.congr {register : Text} {before after : Markup.Document} {scope scope' : Scope}
    (h : FrameOf register before after scope) (hfunctions : scope'.functions = scope.functions) :
    FrameOf register before after scope' := by
  refine ⟨h.frame, ?_, ?_⟩
  · rw [hfunctions, render_congr hfunctions]
    exact h.script
  · rw [hfunctions]
    exact h.idle

/-- The script of the declaration is the same behind a walk. -/
theorem script_of_framed {register : Text} {before after : Markup.Document}
    (h : before.Framed (fun _ _ _ => False) after) {d : Declaration}
    (hd : (Declaration.locate before register).1 = some d) :
    d.address ≠ [] ∧ ∃ t, before.get? d.address = some (.text t) ∧
      after.get? d.address = some (.text t) ∧
      Declaration.ofScript? register d.address t = some d := by
  obtain ⟨outer, tag, t, rest, haddress, hname, hget, hof⟩ := Declaration.text_of_locate hd
  have hraw : Markup.isRawText tag.name = true := by
    rw [hname]
    decide
  refine ⟨by simp [haddress], t, ?_, ?_, hof⟩
  · rw [haddress, Markup.Document.get?, Markup.Document.nodeAt?_append hget (by simp)]
    rfl
  · rw [haddress]
    exact h.get?_rawText hget hraw

/-- A rewriting changes texts and attribute values below host templates only. -/
theorem Rewritten.framed {options : Options} {filePath moduleId html : Text}
    {document document' : Markup.Document} {before after : Scope}
    (h : Rewritten options filePath moduleId document before document' after)
    (hparse : Markup.Document.parse html = .ok document) :
    document.Framed (fun _ _ _ => False) document' := by
  have hframed := document.walk_framed (fun _ _ _ => False)
    (Markup.Document.fresh_of_parse hparse) (Attempt.visitor Rewrite.visit) (.ok before)
  rwa [Markup.Document.attempt_eq_ok_iff.mp h.rewritten] at hframed

/-- Placing the functions of a rewriting stays inside the frame. -/
theorem frameOf_placed (register : Text) {before after : Markup.Document} {scope : Scope}
    (h : before.Framed (fun _ _ _ => False) after) (hidle : scope.functions = [] → after = before) :
    FrameOf register before (placed (Declaration.locate before register).1 after scope) scope := by
  have hmono : before.Framed
      (fun address _ _ => ∃ d ∈ (Declaration.locate before register).1, d.address = address)
      after := Markup.FramedAll.mono (fun _ _ _ hf => hf.elim) h
  rcases hd : (Declaration.locate before register).1 with _ | d
  · exact ⟨hmono, fun d hmem => by simp [hd] at hmem, hidle⟩
  · obtain ⟨hne, t, hbefore, hafter, hof⟩ := script_of_framed h hd
    obtain ⟨object, opened, rest, hobject, ht, hlength, hplace, hinsert⟩ :=
      Declaration.split_of_ofScript? hof
    by_cases hnil : scope.functions = []
    · rw [placed, if_pos hnil]
      refine ⟨hmono, fun d' hd' => ?_, hidle⟩
      obtain rfl : d = d' := Option.some.inj (hd.symm.trans hd')
      refine ⟨t, object, opened, rest, hbefore, hobject, ht, hlength, hplace, ?_⟩
      rw [if_pos hnil, ← ht, hafter]
    · rw [placed, if_neg hnil]
      refine ⟨?_, fun d' hd' => ?_, fun hnil' => absurd hnil' hnil⟩
      · exact h.modifyNode (f := fun t => t.insertAt d.insertAt (Injection.render scope))
          (fun _ => rfl) hbefore ⟨d, hd, rfl⟩
      · obtain rfl : d = d' := Option.some.inj (hd.symm.trans hd')
        refine ⟨t, object, opened, rest, hbefore, hobject, ht, hlength, hplace, ?_⟩
        rw [Markup.Document.get?_modifyNode _ hne, hafter, if_neg hnil, ← hinsert]
        rfl

/-- **Frame of a transform.**  What is written for a module is the document that was read, with
changes inside the frame, and that document itself if no function is generated. -/
theorem transform_framed {options : Options} {filePath html : Text} {result : Result} {id : Text}
    (h : (transform options filePath html).1 = .ok result) (hid : result.moduleId = some id) :
    ∃ before after scope, Markup.Document.parse html = .ok before ∧
      result = .ofModule after scope ∧ FrameOf options.register before after scope ∧
      (result.functions = [] → result.text = before.write) := by
  obtain ⟨before, hparse, ⟨_, rfl⟩ | ⟨id', hmodule, hresult⟩⟩ := cases_of_transform h
  · simp [Result.unchanged] at hid
  · obtain ⟨known, rewritten, last, hrewritten, hplace⟩ := exists_rewritten_of_transformModule hresult
    obtain ⟨scope, rfl, hfunctions, _⟩ := eq_ofModule_of_place hplace
    have hplaced := frameOf_placed options.register (hrewritten.framed hparse) hrewritten.eq_self
    have hframe := hplaced.congr hfunctions
    refine ⟨before, _, scope, hparse, rfl, hframe, fun hnil => ?_⟩
    exact congrArg Markup.Document.write (hframe.idle hnil)

/-- The frame holds for a module with a generated function. -/
theorem transform_framed_sumPage :
    ∃ result, (transform {} [] sumPage).1 = .ok result ∧ result.functions.length = 1 ∧
      ∃ before after scope, Markup.Document.parse sumPage = .ok before ∧
        result = .ofModule after scope ∧ FrameOf "Polymer".toList before after scope := by
  have hresult : (transform {} [] sumPage).1.toOption.map
      (fun result => (result.moduleId, result.functions.length)) = some (some "x-a".toList, 1) := by
    decide +kernel
  obtain ⟨result, hsome, hfacts⟩ := Option.map_eq_some_iff.mp hresult
  obtain ⟨hid, hcount⟩ := Prod.mk.inj hfacts
  have h := eq_ok_of_toOption hsome
  obtain ⟨before, after, scope, hparse, hwritten, hframe, _⟩ := transform_framed h hid
  exact ⟨result, h, hcount, before, after, scope, hparse, hwritten, hframe⟩

end Transform
end DataBinding
