/-
# Where functions are injected

The declaration that is located stands in the first text of a script element, and functions are
injected directly behind the brace that opens its object literal.  The key facts are

* `exists_stands_of_object?` : the registered object literal is the first argument of a call that
  opens in the script;
* `text_of_locate`   : the located declaration is read off the first text of a script element;
* `split_of_ofScript?` : that text splits at the object literal's brace, behind which the place of
  injection lies;
* `locate_eq_none_iff` : in a document whose scripts are legible, nothing is located exactly if no
  script that is read holds a call.
-/
import DataBinding.Component.Injection
import DataBinding.Proofs.Markup.Listing
import DataBinding.Proofs.Script.Braces

namespace DataBinding

/-! ## Putting a text in -/

/-- A text is put in between the characters before a byte and those behind it. -/
theorem Text.insertAt_append (before after inserted : Text) :
    Text.insertAt (before ++ after) (Text.byteLength before) inserted
      = before ++ (inserted ++ after) := by
  induction before with
  | nil => simp [Text.byteLength, Text.insertAt]
  | cons c before ih =>
    have hpos : 0 < c.utf8Size := Char.utf8Size_pos c
    obtain ⟨n, hn⟩ : ∃ n, c.utf8Size + Text.byteLength before = n + 1 :=
      ⟨c.utf8Size + Text.byteLength before - 1, by omega⟩
    have hrest : n + 1 - c.utf8Size = Text.byteLength before := by omega
    rw [List.cons_append, Text.byteLength, hn, Text.insertAt, hrest, ih]
    rfl

/-! ## The object literal of a declaration -/

namespace Script.Node

mutual

/-- What is below a construct below another one is below that one. -/
theorem mem_all_trans {middle inner : Node} :
    ∀ outer : Node, middle ∈ outer.all → inner ∈ middle.all → inner ∈ outer.all
  | mk construct span wording parts, hmiddle, hinner => by
    rw [all, List.mem_cons] at hmiddle
    rcases hmiddle with rfl | hmiddle
    · exact hinner
    · rw [all]
      exact List.mem_cons_of_mem _ (mem_allOf_trans parts hmiddle hinner)

/-- What is below a construct below some others is below those. -/
theorem mem_allOf_trans {middle inner : Node} :
    ∀ outer : List Node, middle ∈ allOf outer → inner ∈ middle.all → inner ∈ allOf outer
  | [], hmiddle, _ => by simp [allOf] at hmiddle
  | node :: nodes, hmiddle, hinner => by
    rw [allOf, List.mem_append] at hmiddle ⊢
    exact hmiddle.imp (fun h => mem_all_trans node h hinner)
      fun h => mem_allOf_trans nodes h hinner

end

/-- What a call of a name registers is its first argument, an object literal. -/
theorem parts_of_registered? {name : Text} {node object : Node}
    (h : node.registered? name = some object) :
    (node.construct = .call ∨ node.construct = .optionalCall) ∧ object.construct = .object ∧
      ∃ callee rest, node.parts = callee :: object :: rest ∧ callee.construct = .identifier ∧
        callee.wording = name := by
  unfold registered? at h
  split at h
  case h_3 => cases h
  all_goals
    rename_i span wording callee first rest
    split at h
    · rename_i htest
      obtain rfl := Option.some.inj h
      simp only [Bool.and_eq_true, beq_iff_eq] at htest
      exact ⟨by simp [construct], htest.2, callee, rest, rfl, htest.1⟩
    · cases h

/-- The registered object literal is in the call. -/
theorem mem_all_of_registered? {name : Text} {node object : Node}
    (h : node.registered? name = some object) : object ∈ node.all := by
  obtain ⟨-, -, callee, rest, hparts, -⟩ := parts_of_registered? h
  have hself : object ∈ object.all := by
    cases object
    rw [all]
    exact List.mem_cons_self
  cases node with
  | mk construct span wording parts =>
    obtain rfl : parts = callee :: object :: rest := hparts
    rw [all]
    have hmem : object ∈ callee :: object :: rest := List.mem_cons_of_mem _ List.mem_cons_self
    exact List.mem_cons_of_mem _ (mem_allOf.mpr ⟨object, hmem, hself⟩)

end Script.Node

namespace Declaration

/-- The object literal of the first call of the registration function in a script. -/
def object? (register t : Text) : Option Script.Node :=
  (Script.Node.allOf (Script.parse t).statements).findSome? (·.registered? register)

/-- A declaration is read off the registered object literal. -/
theorem ofScript?_eq (register : Text) (address : Markup.Address) (t : Text) :
    ofScript? register address t
      = (object? register t).map fun object =>
          ofObject address object (Script.parse t).fault.isSome := rfl

/-- The registered object literal starts at a brace of the script. -/
theorem braceAt_of_object? {register t : Text} {object : Script.Node}
    (h : object? register t = some object) : Script.BraceAt t object.span.start := by
  obtain ⟨node, hnode, hregistered⟩ := List.exists_of_findSome?_eq_some h
  have hbelow := Script.Node.mem_allOf_trans _ hnode (Script.Node.mem_all_of_registered? hregistered)
  exact Script.braceAt_of_parse hbelow (Script.Node.parts_of_registered? hregistered).2.1

/-- The object literal of a declaration is the first argument of a call that opens in the script. -/
theorem exists_stands_of_object? {register t : Text} {object : Script.Node}
    (h : object? register t = some object) :
    ∃ o : Script.Opening, o.Stands register t object.span.start := by
  obtain ⟨node, hnode, hregistered⟩ := List.exists_of_findSome?_eq_some h
  obtain ⟨hcall, hobject, callee, rest, hparts, hname, rfl⟩ :=
    Script.Node.parts_of_registered? hregistered
  exact Script.opensWith_of_parse hnode hcall callee object rest hparts hname hobject

/-! ## The script of a declaration -/

/-- A declaration that is found is read off one of the scripts, which mentions a call. -/
theorem mem_of_search {register : Text} {scripts : List (Markup.Address × Text)} {d : Declaration}
    (h : (search register scripts).1 = some d) :
    ∃ t, (d.address, t) ∈ scripts ∧ t.mentionsCall register = true ∧
      ofScript? register d.address t = some d := by
  induction scripts with
  | nil => simp [search] at h
  | cons script scripts ih =>
    obtain ⟨address, t⟩ := script
    have hrest : (search register scripts).1 = some d →
        ∃ t', (d.address, t') ∈ (address, t) :: scripts ∧ t'.mentionsCall register = true ∧
          ofScript? register d.address t' = some d := by
      intro h
      obtain ⟨t', hmem, hof⟩ := ih h
      exact ⟨t', List.mem_cons_of_mem _ hmem, hof⟩
    unfold search at h
    split at h
    · rename_i hmentions
      split at h
      · rename_i found hfound
        obtain rfl := Option.some.inj h
        have haddress : found.address = address := by
          rw [ofScript?_eq] at hfound
          obtain ⟨object, _, rfl⟩ := Option.map_eq_some_iff.mp hfound
          rfl
        exact ⟨t, by rw [haddress]; exact List.mem_cons_self, hmentions, by rw [haddress]; exact hfound⟩
      · exact hrest h
    · exact hrest h

/-- The listed scripts are the first texts of script elements. -/
theorem get?_of_mem_scripts {document : Markup.Document} {address : Markup.Address} {t : Text}
    (h : (address, t) ∈ scripts document) :
    ∃ outer tag rest, address = outer ++ [0] ∧ tag.name = "script".toList ∧
      document.get? outer = some (.element tag (.text t :: rest)) := by
  obtain ⟨outer, houter, hsome⟩ := List.mem_filterMap.mp h
  obtain ⟨tag, children, hne, hget, hname⟩ := Markup.Document.get?_of_mem_findAll houter
  have hchildren : document.childrenAt outer = children := by
    unfold Markup.Document.childrenAt
    rw [hget]
    cases outer with
    | nil => exact absurd rfl hne
    | cons _ _ => rfl
  rw [hchildren] at hsome
  split at hsome
  · rename_i first rest
    obtain ⟨rfl, rfl⟩ := Prod.mk.inj (Option.some.inj hsome)
    exact ⟨outer, tag, rest, rfl, hname, hget⟩
  · simp at hsome

/-- **The located declaration** is read off the first text of a script element. -/
theorem text_of_locate {document : Markup.Document} {register : Text} {d : Declaration}
    (h : (locate document register).1 = some d) :
    ∃ outer tag t rest, d.address = outer ++ [0] ∧ tag.name = "script".toList ∧
      document.get? outer = some (.element tag (.text t :: rest)) ∧
      ofScript? register d.address t = some d := by
  obtain ⟨t, hmem, -, hof⟩ := mem_of_search h
  obtain ⟨outer, tag, rest, haddress, hname, hget⟩ := get?_of_mem_scripts hmem
  exact ⟨outer, tag, t, rest, haddress, hname, hget, hof⟩

/-- **The place of injection** lies behind the brace that opens the object literal. -/
theorem split_of_ofScript? {register : Text} {address : Markup.Address} {t : Text}
    {d : Declaration} (h : ofScript? register address t = some d) :
    ∃ object before after, object? register t = some object ∧ t = before ++ '\x7b' :: after ∧
      Text.byteLength before = object.span.start ∧ d.insertAt = object.span.start + 1 ∧
      ∀ inserted, t.insertAt d.insertAt inserted = before ++ '\x7b' :: (inserted ++ after) := by
  rw [ofScript?_eq] at h
  obtain ⟨object, hobject, rfl⟩ := Option.map_eq_some_iff.mp h
  obtain ⟨before, after, rfl, hlength⟩ := braceAt_of_object? hobject
  refine ⟨object, before, after, hobject, rfl, hlength, rfl, fun inserted => ?_⟩
  have hbyte : Text.byteLength (before ++ ['\x7b']) = object.span.start + 1 := by
    rw [Text.byteLength_append, hlength]
    rfl
  show Text.insertAt _ (object.span.start + 1) inserted = _
  rw [← hbyte, List.append_cons, Text.insertAt_append, List.append_assoc]
  rfl

/-! ## Legible scripts -/

/-- Each script of a document that mentions a call can be read to its end.  Nothing is located behind a
statement that cannot be read, so that only for such a document what is located is all that a reader
who goes on behind such statements could locate. -/
def Legible (document : Markup.Document) (register : Text) : Prop :=
  ∀ script ∈ scripts document, script.2.mentionsCall register = true →
    (Script.parse script.2).fault = none

/-- A script is read for a declaration in it. -/
theorem ofScript?_eq_none_iff (register : Text) (address : Markup.Address) (t : Text) :
    ofScript? register address t = none ↔ object? register t = none := by
  rw [ofScript?_eq, Option.map_eq_none_iff]

/-- Nothing is found in scripts exactly if none of those that mention a call holds one. -/
theorem search_eq_none_iff {register : Text} {scripts : List (Markup.Address × Text)} :
    (search register scripts).1 = none ↔
      ∀ script ∈ scripts, script.2.mentionsCall register = true → object? register script.2 = none := by
  induction scripts with
  | nil => simp [search]
  | cons script scripts ih =>
    obtain ⟨address, t⟩ := script
    rw [List.forall_mem_cons, ← ih, search]
    by_cases hmentions : t.mentionsCall register = true
    · rw [if_pos hmentions, ← ofScript?_eq_none_iff register address t]
      cases ofScript? register address t <;> simp [hmentions]
    · rw [if_neg hmentions]
      exact (and_iff_right fun h => absurd h hmentions).symm

variable {document : Markup.Document} {register : Text}

/-- **Nothing is located** in a document whose scripts are legible exactly if each script that mentions
a call is read to its end and holds none. -/
theorem locate_eq_none_iff (hlegible : Legible document register) :
    (locate document register).1 = none ↔
      ∀ script ∈ scripts document, script.2.mentionsCall register = true →
        (Script.parse script.2).fault = none ∧ object? register script.2 = none := by
  rw [locate, search_eq_none_iff]
  exact ⟨fun h script hscript hmentions =>
      ⟨hlegible script hscript hmentions, h script hscript hmentions⟩,
    fun h script hscript hmentions => (h script hscript hmentions).2⟩

/-- A declaration that is located among legible scripts stands in a script without errors. -/
theorem hasErrors_of_legible (hlegible : Legible document register) {d : Declaration}
    (h : (locate document register).1 = some d) : d.hasErrors = false := by
  obtain ⟨t, hmem, hmentions, hof⟩ := mem_of_search h
  rw [ofScript?_eq] at hof
  obtain ⟨object, -, hobject⟩ := Option.map_eq_some_iff.mp hof
  rw [← hobject]
  show (Script.parse t).fault.isSome = false
  rw [hlegible _ hmem hmentions]
  rfl

end Declaration
end DataBinding
