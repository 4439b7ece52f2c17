/-
# Values that are set and read back

A value is written in quotes that do not occur in it, with references where reading would take it for
something else.  So whatever ampersands, beginnings of references and quotes it holds, the attribute
it is set on is read with this value.

* `exists_renderValue`      : a value is written as one in quotes;
* `attribute?_renderValue`  : an attribute with a written value is read with the value;
* `Slot.render_set`         : a set attribute is written with its value;
* `escape_undone`           : escaping is undone by reading.
-/
import DataBinding.Proofs.Markup.Rendering
import DataBinding.Proofs.Markup.Setting

namespace DataBinding.Markup

variable {previous : Char} {name value behind : Text} {raw : Option Text}

/-- A value is written in quotes behind an equals sign, in single ones if the value it replaces has
them. -/
theorem exists_renderValue (value : Text) (raw : Option Text) :
    ∃ quote : Quote, renderValue (some value) raw
      = '=' :: quote.char :: (escape quote value ++ [quote.char]) :=
  ⟨if raw.bind List.head? == some '\'' then .single else .double, rfl⟩

/-- **An attribute with a written value** is read with the value, which no start tag is refused for,
and nothing else but the separators behind it is read with it. -/
theorem attribute?_renderValue (hname : IsAttributeName name) (hmay : mayPrecede previous = true) :
    ∃ found, attribute? previous (name ++ (renderValue (some value) raw ++ behind))
        = some (found, name.length + (renderValue (some value) raw).length + separators behind) ∧
      found.decoded = (name.lowerCase, some value) ∧ overlongIn? [found] = none := by
  obtain ⟨quote, hquoted⟩ := exists_renderValue value raw
  obtain ⟨gap, r, rfl, hgap⟩ := exists_gap behind
  have hreads : Row.Reads (Row.rewritten ⟨name, [], gap, none⟩ quote (escape quote value)) r :=
    Row.reads_rewritten hname hgap (char_notMem_escape quote value)
  have hread := attribute?_eq hmay hreads
  rw [Row.text_append, Row.length_text] at hread
  dsimp only [Row.rewritten] at hread
  rw [← hquoted] at hread
  refine ⟨⟨name, some (escape quote value)⟩, ?_, ?_, ?_⟩
  · rw [hgap]
    exact hread
  · rw [RawAttribute.decoded, Option.map_some, unescape_escape]
  · simp [overlongIn?, overlong?_escape]

/-- A set attribute is written with its value, in the place of the value it had. -/
theorem Slot.render_set (tag : Tag) (slot : Slot) (value : Text) :
    slot.render (tag.set slot.name.lowerCase (some value))
      = slot.before ++ (slot.name ++ renderValue (some value) slot.raw) := by
  have hchanged : slot.isChanged (tag.set slot.name.lowerCase (some value)).changed = true := by
    rw [Slot.isChanged, List.contains_iff_mem, Tag.mem_changed_set]
    exact .inl rfl
  have hget : (tag.set slot.name.lowerCase (some value)).get? slot.name.lowerCase = some value := by
    show (lookUp _ (assign tag.attributes _ (some value))).join = some value
    rw [lookUp_assign, if_pos rfl]
    rfl
  rw [Slot.render, hchanged, if_pos rfl, hget, List.append_assoc]

/-- **Escaping is undone by reading.**  An escaped value does not hold the quote it is written in, and
it is decoded to the value: its references stand for characters, and none has too many digits.  Hence a value that is set on an attribute is
written so that the attribute is read with exactly this value, wherever it stands. -/
theorem escape_undone (quote : Quote) (value : Text) :
    quote.char ∉ escape quote value ∧ decode (escape quote value) = .ok value ∧
      (∀ (tag : Tag) (slot : Slot), slot.render (tag.set slot.name.lowerCase (some value))
        = slot.before ++ (slot.name ++ renderValue (some value) slot.raw)) ∧
      ∀ (raw : Option Text) (name behind : Text) (previous : Char),
        IsAttributeName name → mayPrecede previous = true →
        ∃ found, attribute? previous (name ++ (renderValue (some value) raw ++ behind))
            = some (found, name.length + (renderValue (some value) raw).length + separators behind) ∧
          found.decoded = (name.lowerCase, some value) ∧ overlongIn? [found] = none :=
  ⟨char_notMem_escape quote value, decode_escape quote value,
    fun tag slot => slot.render_set tag value, fun _ _ _ _ => attribute?_renderValue⟩

/-- A value with an operator, a reference, the beginnings of others, and both quotes. -/
def troubledValue : Text :=
  "a && \"&lt;\" + '&amp' & &#39".toList

/-- How it is written in the place of a value in single quotes. -/
def troubledWritten : Text :=
  "='a && \"&amp;lt;\" + &#39;&amp;amp&#39; & &amp;#39'".toList

/-- There it is read back. -/
theorem escape_undone_troubledValue :
    renderValue (some troubledValue) (some "'b'".toList) = troubledWritten ∧
      IsAttributeName "Title".toList ∧ mayPrecede ' ' = true ∧
      ∃ found, attribute? ' ' ("Title".toList ++ (troubledWritten ++ " hidden>".toList))
          = some (found, 5 + troubledWritten.length + 1) ∧
        found.decoded = ("title".toList, some troubledValue) := by
  have hwritten : renderValue (some troubledValue) (some "'b'".toList) = troubledWritten := by
    decide +kernel
  have hmore : "itle".toList.all isAttributeNamePart = true := by decide
  have hname : IsAttributeName "Title".toList :=
    ⟨'T', "itle".toList, by decide, .inl (by decide), List.all_eq_true.mp hmore⟩
  have hsmall : Text.lowerCase "Title".toList = "title".toList := by
    decide +kernel
  have hlength : "Title".toList.length = 5 := by decide
  have hgap : separators " hidden>".toList = 1 := by decide
  obtain ⟨-, -, -, hread⟩ := escape_undone .single troubledValue
  obtain ⟨found, hfound, hdecoded, -⟩ :=
    hread (some "'b'".toList) "Title".toList " hidden>".toList ' ' hname (by decide)
  rw [hwritten, hlength, hgap] at hfound
  rw [hsmall] at hdecoded
  exact ⟨hwritten, hname, by decide, found, hfound, hdecoded⟩

end DataBinding.Markup
