/-
# Texts at rest

A text is at rest if a transform leaves it as it is and generates nothing for it.  A transform need not
leave a text at rest: once a binding is rewritten, its braces no longer open or close another binding,
and a second transform may find more to do.

* `isFixed_iff`            : which texts are at rest;
* `not_isFixed_bracesPage` : a page that a transform does not leave at rest.
-/
import DataBinding.Proofs.Transform.Phases

namespace DataBinding.Transform

/-! ## Texts at rest -/

/-- A transform of the text yields the text itself and generates no function. -/
def IsFixed (options : Options) (filePath t : Text) : Prop :=
  ∃ result, (transform options filePath t).1 = .ok result ∧ result.functions = [] ∧ result.text = t

/-- The text is markup without a module, or markup that is written back as it was read, in which no
binding has to be computed and nothing stops the transform. -/
def IsSettled (options : Options) (t : Text) : Prop :=
  ∃ document, Markup.Document.parse t = .ok document ∧
    (moduleId? document = none ∨
      document.write = t ∧ obstacle? options document = none ∧
        ∀ site ∈ document.sites, Rewrite.computations site = [])

/-- A document without functions is placed as it is. -/
theorem placed_eq_self {declaration : Option Declaration} {document : Markup.Document}
    {scope : Scope} (h : scope.functions = []) : placed declaration document scope = document := by
  cases declaration with
  | none => rfl
  | some d => rw [placed, if_pos h]

/-- Where nothing is computed and nothing stops, a transform of a module gives the document as it is
written. -/
theorem transformModule_of_computationsOf_eq_nil {options : Options} {document : Markup.Document}
    (hobstacle : obstacle? options document = none) (h : Rewrite.computationsOf document = [])
    (filePath id : Text) :
    ∃ scope, (transformModule options filePath id document).1 = .ok (.ofModule document scope) ∧
      scope.functions = [] := by
  obtain ⟨before, document', after, hrewritten⟩ := (exists_rewritten_iff filePath id).mpr hobstacle
  have hnil := hrewritten.functions_eq_nil_iff.mpr h
  refine ⟨after, ?_, hnil⟩
  rw [transformModule_of_rewritten hrewritten]
  unfold place
  dsimp only
  rw [if_pos (List.isEmpty_iff.mpr hnil), hrewritten.eq_self hnil]

/-- **Texts at rest.**  A text is at rest exactly if it is settled. -/
theorem isFixed_iff (options : Options) (filePath t : Text) :
    IsFixed options filePath t ↔ IsSettled options t := by
  constructor
  · rintro ⟨result, hresult, hfunctions, htext⟩
    obtain ⟨document, hparse, ⟨hid, _⟩ | ⟨id, _, hmodule⟩⟩ := cases_of_transform hresult
    · exact ⟨document, hparse, .inl hid⟩
    · obtain ⟨before, document', after, hrewritten, hplace⟩ :=
        exists_rewritten_of_transformModule hmodule
      obtain ⟨scope, rfl, hscope, _⟩ := eq_ofModule_of_place hplace
      have hnil : after.functions = [] := hscope.symm.trans hfunctions
      refine ⟨document, hparse, .inr ⟨?_, (exists_rewritten_iff filePath id).mp ⟨_, _, _, hrewritten⟩,
        List.flatMap_eq_nil_iff.mp (hrewritten.functions_eq_nil_iff.mp hnil)⟩⟩
      rw [← htext, hrewritten.eq_self hnil, placed_eq_self hnil]
      rfl
  · rintro ⟨document, hparse, hsettled⟩
    cases hid : moduleId? document with
    | none => exact ⟨.unchanged t, by rw [transform, hparse]; simp [hid], rfl, rfl⟩
    | some id =>
      rw [hid] at hsettled
      obtain ⟨hwrite, hobstacle, hnone⟩ := hsettled.resolve_left (by simp)
      obtain ⟨scope, hresult, hfunctions⟩ := transformModule_of_computationsOf_eq_nil hobstacle
        (List.flatMap_eq_nil_iff.mpr hnone) filePath id
      exact ⟨_, by rw [transform, hparse]; simp only [hid]; exact hresult, hfunctions, hwrite⟩

/-! ## A page that is not left at rest -/

/-- A module that is written back as it was read, with a two-way binding that holds another binding
and opens in a string of a third one. -/
def bracesPage : Text :=
  ("<dom-module id=x><template>[[a + \"\x7b\x7b\"]] [[\x7b\x7b\x7d\x7d]] \x7b\x7b [[x+y]] " ++
    "\x7d\x7d</template><script>Polymer(\x7bis:'x'\x7d)</script></dom-module>").toList

/-- The page is written back as it was read, a transform of it succeeds, and a transform of what that
one writes generates one more function. -/
theorem transform_bracesPage :
    (Markup.Document.parse bracesPage).toOption.map (·.write) = some bracesPage ∧
      Options.fault? {} = none ∧
      ∃ result again, (transform {} [] bracesPage).1 = .ok result ∧
        (transform {} [] result.text).1 = .ok again ∧ again.functions.length = 1 := by
  have hall : (Markup.Document.parse bracesPage).toOption.map (·.write) = some bracesPage ∧
      (Options.fault? {}).isNone ∧
      ((transform {} [] bracesPage).1.toOption.bind fun result =>
        (transform {} [] result.text).1.toOption.map (·.functions.length)) = some 1 := by
    decide +kernel
  obtain ⟨hwrite, hfault, hagain⟩ := hall
  obtain ⟨result, hresult, hcount⟩ := Option.bind_eq_some_iff.mp hagain
  obtain ⟨again, hok, hone⟩ := Option.map_eq_some_iff.mp hcount
  exact ⟨hwrite, Option.isNone_iff_eq_none.mp hfault, result, again, eq_ok_of_toOption hresult,
    eq_ok_of_toOption hok, hone⟩

/-- Once the first binding is rewritten, its braces no longer open a binding, and a second transform
rewrites a binding that they had covered. -/
theorem not_isFixed_bracesPage :
    (Markup.Document.parse bracesPage).toOption.map (·.write) = some bracesPage ∧
      Options.fault? {} = none ∧
      ∃ result, (transform {} [] bracesPage).1 = .ok result ∧ ¬ IsFixed {} [] result.text := by
  obtain ⟨hwrite, hfault, result, again, hresult, hagain, hone⟩ := transform_bracesPage
  refine ⟨hwrite, hfault, result, hresult, ?_⟩
  rintro ⟨found, hok, hnone, _⟩
  obtain rfl := Except.ok.inj (hagain.symm.trans hok)
  rw [hnone] at hone
  exact absurd hone (by decide)

end DataBinding.Transform
