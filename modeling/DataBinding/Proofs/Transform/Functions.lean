/-
# Names of generated functions

A transform names its functions by the function prefix and the numbers from zero on.  It looks
neither at the members that the declared object literal has already, nor at the identifiers that stay
free in a function's body.  The key facts are

* `generates_of_transform` : the functions of a transform, with their names, and their calls;
* `resolve_injected_iff`   : a call reaches its function unless an older member has its name;
* `transform_names`        : when the names of a transform clash with nothing;
* `clash_rebuiltPage`      : they do clash where a page is built again with one more binding.
-/
import DataBinding.Proofs.Component.Insertion
import DataBinding.Proofs.Transform.Phases

namespace DataBinding

/-! ## Members of an object literal -/

namespace Script.Node

/-- The name of a member of an object literal that is written as a word, a number or a string. -/
def memberName? : Node → Option Text
  | mk .pair _ _ (key :: _) => key.keyName?
  | mk .shorthand _ name _ => some name
  | mk .definition _ _ parts => parts.findSome? keyName?
  | _ => none

/-- The names of the members of an object literal. -/
def keys (object : Node) : List Text :=
  object.parts.filterMap memberName?

end Script.Node

namespace Declaration

/-- The object literal of a document's declaration. -/
def object (document : Markup.Document) (register : Text) : Option Script.Node := do
  let d ← (locate document register).1
  let t ← (← document.get? d.address).textData?
  object? register t

/-- A located declaration has an object literal, just inside of which functions are injected. -/
theorem object_of_locate {document : Markup.Document} {register : Text} {d : Declaration}
    (h : (locate document register).1 = some d) :
    ∃ literal, object document register = some literal ∧ d.insertAt = literal.span.start + 1 := by
  obtain ⟨outer, tag, t, rest, haddress, -, hget, hof⟩ := text_of_locate h
  have htext : document.get? d.address = some (.text t) := by
    rw [haddress, Markup.Document.get?, Markup.Document.nodeAt?_append hget (by simp)]
    rfl
  obtain ⟨literal, _, _, hliteral, _, _, hplace, _⟩ := split_of_ofScript? hof
  refine ⟨literal, ?_, hplace⟩
  simp only [object, h, Option.bind_eq_bind, Option.bind_some, htext, Markup.Node.textData?]
  exact hliteral

/-- The members of an object literal behind the injection of functions, which come first. -/
def members (functions : List FunctionDefinition) (literal : Script.Node) :
    List (Text × Option FunctionDefinition) :=
  functions.map (fun f => (f.name, some f)) ++ literal.keys.map (·, none)

/-- What a name refers to: of several members with one name, the last one counts. -/
def resolve? (name : Text) :
    List (Text × Option FunctionDefinition) → Option (Option FunctionDefinition)
  | [] => none
  | (key, f) :: members => (resolve? name members).or (if key = name then some f else none)

/-- Members behind other ones hide those of their names. -/
theorem resolve?_append (name : Text) (front back : List (Text × Option FunctionDefinition)) :
    resolve? name (front ++ back) = (resolve? name back).or (resolve? name front) := by
  induction front with
  | nil => exact (Option.or_none).symm
  | cons member front ih =>
    obtain ⟨key, f⟩ := member
    rw [List.cons_append, resolve?, ih, resolve?, Option.or_assoc]

/-- A name that no member has refers to nothing. -/
theorem resolve?_eq_none {name : Text} {members : List (Text × Option FunctionDefinition)}
    (h : name ∉ members.map Prod.fst) : resolve? name members = none := by
  induction members with
  | nil => rfl
  | cons member members ih =>
    obtain ⟨key, f⟩ := member
    rw [List.map_cons, List.mem_cons, not_or] at h
    rw [resolve?, ih h.2, if_neg (Ne.symm h.1)]
    rfl

/-- Among functions with different names, each name refers to its function. -/
theorem resolve?_functions {functions : List FunctionDefinition}
    (hnodup : (functions.map (·.name)).Nodup) {f : FunctionDefinition} (hf : f ∈ functions) :
    resolve? f.name (functions.map fun f => (f.name, some f)) = some (some f) := by
  induction functions with
  | nil => simp at hf
  | cons g functions ih =>
    rw [List.map_cons, List.nodup_cons] at hnodup
    rw [List.map_cons, resolve?]
    rcases List.mem_cons.mp hf with rfl | hf
    · have hnone : resolve? f.name (functions.map fun f => (f.name, some f)) = none := by
        apply resolve?_eq_none
        rw [List.map_map]
        exact hnodup.1
      rw [hnone, if_pos rfl]
      rfl
    · rw [ih hnodup.2 hf]
      rfl

/-- The name of an older member refers to no generated function. -/
theorem resolve?_older {name : Text} {keys : List Text} (h : name ∈ keys) :
    resolve? name (keys.map (·, none)) = some none := by
  induction keys with
  | nil => simp at h
  | cons key keys ih =>
    rw [List.map_cons, resolve?]
    by_cases hkeys : name ∈ keys
    · rw [ih hkeys]
      rfl
    · obtain rfl : name = key := (List.mem_cons.mp h).resolve_right hkeys
      have hnone : resolve? name (keys.map (·, (none : Option FunctionDefinition))) = none := by
        apply resolve?_eq_none
        rw [List.map_map]
        simpa using hkeys
      rw [hnone, if_pos rfl]
      rfl

/-- **Calls reach their functions** unless an older member has the function's name. -/
theorem resolve_injected_iff {functions : List FunctionDefinition} (literal : Script.Node)
    (hnodup : (functions.map (·.name)).Nodup) {f : FunctionDefinition} (hf : f ∈ functions) :
    resolve? f.name (members functions literal) = some (some f) ↔ f.name ∉ literal.keys := by
  unfold members
  rw [resolve?_append]
  by_cases hkey : f.name ∈ literal.keys
  · rw [resolve?_older hkey]
    simp [hkey]
  · have hnone : resolve? f.name (literal.keys.map (·, (none : Option FunctionDefinition)))
        = none := by
      apply resolve?_eq_none
      rw [List.map_map]
      simpa using hkey
    rw [hnone, Option.none_or, resolve?_functions hnodup hf]
    simp [hkey]

end Declaration

namespace Transform

/-! ## Names of a transform -/

/-- The name of the function with a number. -/
def nameOf (options : Options) (i : Nat) : Text :=
  options.functionPrefix ++ Scope.numeral i

/-- What a transform of a module generates and writes, where some component state is known: a function
for each computation, named in document order, and the document with each computation replaced by the
call of its function. -/
structure Generates (options : Options) (document : Markup.Document) (known : Scope)
    (result : Result) : Prop where
  functions : result.functions = (Rewrite.computationsOf document).mapIdx fun i c =>
    c.definition known (nameOf options i)
  written : ∃ scope : Scope, scope.functions = result.functions ∧
    result.text = (placed (Declaration.locate document options.register).1
      (document.walk (Rewrite.countingVisit known) 0).1 scope).write

/-- A transform of a module generates a function for each computation of the document. -/
theorem generates_of_transform {options : Options} {filePath html : Text} {result : Result}
    {id : Text} (h : (transform options filePath html).1 = .ok result)
    (hid : result.moduleId = some id) :
    ∃ document known, Markup.Document.parse html = .ok document ∧
      learned options filePath id document = .ok known ∧
      Generates options document known result := by
  obtain ⟨document, hparse, ⟨_, rfl⟩ | ⟨id', hmodule, hresult⟩⟩ := cases_of_transform h
  · simp [Result.unchanged] at hid
  · obtain ⟨known, document', last, hrewritten, hplace⟩ := exists_rewritten_of_transformModule hresult
    obtain ⟨scope, rfl, hfunctions, hscope⟩ := eq_ofModule_of_place hplace
    have hfresh := fresh_learned hrewritten.learned
    obtain rfl : id' = id := by
      have hsame : scope.moduleId = id := Option.some.inj hid
      rw [← hsame, hscope, hrewritten.moduleId_eq]
    refine ⟨document, known, hparse, hrewritten.learned, ?_, last, hfunctions.symm, ?_⟩
    · show scope.functions = _
      rw [hfunctions, hrewritten.extends.functions, hfresh.functions, List.nil_append, hfresh.counter]
      apply List.mapIdx_eq_mapIdx_iff.mpr
      intro i hi
      rw [Scope.functionName, hfresh.functionPrefix, Nat.zero_add, nameOf]
    · have hwalk := Rewrite.document_eq_countingWalk hfresh.numbered hrewritten.rewritten
      rw [hfresh.counter] at hwalk
      rw [← hwalk]
      rfl

namespace Generates

variable {options : Options} {document : Markup.Document} {known : Scope} {result : Result}

/-- The function of a number has the name of that number. -/
theorem name_eq (h : Generates options document known result) {i : Nat}
    {f : FunctionDefinition} (hf : result.functions[i]? = some f) : f.name = nameOf options i := by
  rw [h.functions, List.getElem?_mapIdx] at hf
  obtain ⟨c, _, rfl⟩ := Option.map_eq_some_iff.mp hf
  rfl

/-- The functions are named by the numbers from zero on. -/
theorem names_eq (h : Generates options document known result) :
    result.functions.map (·.name) = (List.range result.functions.length).map (nameOf options) := by
  apply List.ext_getElem (by simp)
  intro i hi hi'
  rw [List.length_map] at hi
  rw [List.getElem_map, List.getElem_map, List.getElem_range]
  exact h.name_eq (List.getElem?_eq_getElem hi)

/-- The names of the functions differ. -/
theorem nodup (h : Generates options document known result) :
    (result.functions.map (·.name)).Nodup := by
  rw [h.names_eq]
  exact List.nodup_range.map fun _ _ heq => Scope.numeral_injective (List.append_cancel_left heq)

end Generates

/-- No name of a transform is that of an older member or of an identifier that stays free in the
function of this name. -/
structure NamesFresh (computations : List Computation) (scope : Scope)
    (functions : List FunctionDefinition) (literal : Script.Node) : Prop where
  members : ∀ f ∈ functions, f.name ∉ literal.keys
  free : ∀ (i : Nat) (c : Computation) (f : FunctionDefinition),
    computations[i]? = some c → functions[i]? = some f →
      f.name ∉ (c.freeReferences scope).map (·.root)

/-- The page `sumPage` as it is written by a transform, with a text added behind its binding. -/
def builtPage (added : Text) : Text :=
  "<dom-module id=x-a><template>[[__c_0()]]".toList ++ added ++
    ("</template><script>Polymer(\x7b\n//### auto-generated *Computed Bindings*\n" ++
      "'__c_0': function __c_0()\x7b return a + 1; \x7d,\n//###\nis: 'x-a'\x7d)" ++
      "</script></dom-module>").toList

/-- **Names of a transform.**  The functions are named by the prefix and the numbers from zero on, in
the order of the computations that their calls replace.  A located declaration has an object literal,
just inside of which the functions are put.  Their names clash with nothing exactly if no older member
of the literal and no identifier that stays free in a function has such a name, and a call reaches its
function exactly if no older member has the function's name. -/
theorem transform_names {options : Options} {filePath html : Text} {result : Result} {id : Text}
    (h : (transform options filePath html).1 = .ok result) (hid : result.moduleId = some id) :
    ∃ document known, Markup.Document.parse html = .ok document ∧
      learned options filePath id document = .ok known ∧
      Generates options document known result ∧
      (result.functions.map (·.name)).Nodup ∧
      (∀ d ∈ (Declaration.locate document options.register).1,
        ∃ literal, Declaration.object document options.register = some literal ∧
          d.insertAt = literal.span.start + 1) ∧
      ∀ literal ∈ Declaration.object document options.register,
        (NamesFresh (Rewrite.computationsOf document) known result.functions literal ↔
          (∀ i < result.functions.length, nameOf options i ∉ literal.keys) ∧
          ∀ (i : Nat) (c : Computation), (Rewrite.computationsOf document)[i]? = some c →
            ∀ r ∈ c.freeReferences known, r.root ≠ nameOf options i) ∧
        ∀ (i : Nat) (f : FunctionDefinition), result.functions[i]? = some f →
          (Declaration.resolve? f.name (Declaration.members result.functions literal)
              = some (some f) ↔
            nameOf options i ∉ literal.keys) := by
  obtain ⟨document, known, hparse, hlearned, hgenerates⟩ := generates_of_transform h hid
  refine ⟨document, known, hparse, hlearned, hgenerates, hgenerates.nodup,
    fun d hd => Declaration.object_of_locate hd, fun literal _ => ⟨⟨?_, ?_⟩, ?_⟩⟩
  · intro hfresh
    refine ⟨fun i hi hkey => ?_, fun i c hc r hr hroot => ?_⟩
    · have hf := List.getElem?_eq_getElem hi
      refine hfresh.members _ (List.mem_of_getElem? hf) ?_
      rwa [hgenerates.name_eq hf]
    · have hf : result.functions[i]? = some (c.definition known (nameOf options i)) := by
        rw [hgenerates.functions, List.getElem?_mapIdx, hc]
        rfl
      exact hfresh.free i c _ hc hf (List.mem_map.mpr ⟨r, hr, hroot⟩)
  · rintro ⟨hkeys, hroots⟩
    refine ⟨fun f hf hkey => ?_, fun i c f hc hf hroot => ?_⟩
    · obtain ⟨i, hi, rfl⟩ := List.mem_iff_getElem.mp hf
      rw [hgenerates.name_eq (List.getElem?_eq_getElem hi)] at hkey
      exact hkeys i hi hkey
    · obtain ⟨r, hr, heq⟩ := List.mem_map.mp hroot
      exact hroots i c hc r hr (heq.trans (hgenerates.name_eq hf))
  · intro i f hf
    rw [Declaration.resolve_injected_iff literal hgenerates.nodup (List.mem_of_getElem? hf),
      hgenerates.name_eq hf]

/-- The script that is written for such a page is read with the injected members in front. -/
example :
    (do
      let before ← (Markup.Document.parse (builtPage " [[b * 2]]".toList)).toOption
      let literal ← Declaration.object before "Polymer".toList
      let result ← (transform {} [] (builtPage " [[b * 2]]".toList)).1.toOption
      let after ← (Markup.Document.parse result.text).toOption
      let written ← Declaration.object after "Polymer".toList
      pure (written.keys == (Declaration.members result.functions literal).map (·.1)))
    = some true := by
  decide +kernel

/-- What a transform makes of the page, and of what it wrote with one more binding. -/
theorem transform_rebuiltPage :
    (transform {} [] sumPage).1.toOption.map (·.text) = some (builtPage []) ∧
      ∃ document result literal,
        Markup.Document.parse (builtPage " [[b * 2]]".toList) = .ok document ∧
        (transform {} [] (builtPage " [[b * 2]]".toList)).1 = .ok result ∧
        Declaration.object document "Polymer".toList = some literal ∧
        literal.keys = ["__c_0".toList, "is".toList] ∧ result.moduleId = some "x-a".toList ∧
        result.functions.map (·.name) = ["__c_0".toList] := by
  have hall : (transform {} [] sumPage).1.toOption.map (·.text) = some (builtPage []) ∧
      ((Markup.Document.parse (builtPage " [[b * 2]]".toList)).toOption.bind
        (Declaration.object · "Polymer".toList)).map Script.Node.keys
          = some ["__c_0".toList, "is".toList] ∧
      (transform {} [] (builtPage " [[b * 2]]".toList)).1.toOption.map
        (fun result => (result.moduleId, result.functions.map (·.name)))
          = some (some "x-a".toList, ["__c_0".toList]) := by
    decide +kernel
  obtain ⟨hbuilt, hkeys, hnames⟩ := hall
  obtain ⟨literal, hliteral, hliteralKeys⟩ := Option.map_eq_some_iff.mp hkeys
  obtain ⟨document, hdocument, hobject⟩ := Option.bind_eq_some_iff.mp hliteral
  obtain ⟨result, hresult, hmoduleNames⟩ := Option.map_eq_some_iff.mp hnames
  obtain ⟨hid, hfunctions⟩ := Prod.mk.inj hmoduleNames
  exact ⟨hbuilt, document, result, literal, eq_ok_of_toOption hdocument, eq_ok_of_toOption hresult,
    hobject, hliteralKeys, hid, hfunctions⟩

/-- The names of a transform, for a page whose declaration already has such a name. -/
theorem transform_names_rebuiltPage :
    ∃ result, (transform {} [] (builtPage " [[b * 2]]".toList)).1 = .ok result ∧
      result.moduleId = some "x-a".toList ∧ (result.functions.map (·.name)).Nodup := by
  obtain ⟨-, -, result, -, -, h, -, -, hid, -⟩ := transform_rebuiltPage
  obtain ⟨document, _, _, _, _, hnodup, _⟩ := transform_names h hid
  exact ⟨result, h, hid, hnodup⟩

/-- A page is built, one more binding is added to what was written, and it is built again: the second
function takes the name of the first one, whose member hides it from the new call. -/
theorem clash_rebuiltPage :
    (transform {} [] sumPage).1.toOption.map (·.text) = some (builtPage []) ∧
      ∃ document result literal f,
        Markup.Document.parse (builtPage " [[b * 2]]".toList) = .ok document ∧
        (transform {} [] (builtPage " [[b * 2]]".toList)).1 = .ok result ∧
        Declaration.object document "Polymer".toList = some literal ∧
        f ∈ result.functions ∧ f.name ∈ literal.keys ∧
        Declaration.resolve? f.name (Declaration.members result.functions literal)
          ≠ some (some f) := by
  obtain ⟨hbuilt, document, result, literal, hparse, htransform, hobject, hliteralKeys, hid,
    hfunctions⟩ := transform_rebuiltPage
  refine ⟨hbuilt, ?_⟩
  obtain ⟨f, hf, hname⟩ : ∃ f ∈ result.functions, f.name = "__c_0".toList := by
    rw [← List.mem_map, hfunctions]
    exact List.mem_singleton_self _
  have hkey : f.name ∈ literal.keys := by
    rw [hname, hliteralKeys]
    exact List.mem_cons_self
  have hnodup : (result.functions.map (·.name)).Nodup := by
    rw [hfunctions]
    exact List.nodup_singleton _
  exact ⟨document, result, literal, f, hparse, htransform, hobject, hf, hkey, fun hreach =>
    (Declaration.resolve_injected_iff literal hnodup hf).mp hreach hkey⟩

end Transform
end DataBinding
