/-
# Attributes that are set

Setting attributes that an element already has changes their values, and neither the names nor their
order.  So the attributes after the calls are those that were read with new values put in.

* `Touched`, `Tag.touched_setAll` : what a sequence of calls keeps and what it changes;
* `Touched.distinct_renew`        : the attributes after it, from the list that was read.
-/
import Mathlib
import DataBinding.Proofs.Markup.Reading

namespace DataBinding.Markup

/-! ## Lists of attributes -/

/-- New values, name by name. -/
def mapValues (f : Text → Option Text → Option Text) (attributes : List (Text × Option Text)) :
    List (Text × Option Text) :=
  attributes.map fun a => (a.1, f a.1 a.2)

section Lists

variable (f : Text → Option Text → Option Text)

theorem mapValues_assign (attributes : List (Text × Option Text)) (name : Text)
    (value : Option Text) :
    mapValues f (assign attributes name value) = assign (mapValues f attributes) name (f name value) := by
  induction attributes with
  | nil => rfl
  | cons a rest ih =>
    obtain ⟨n, v⟩ := a
    by_cases hn : n = name
    · subst hn
      simp [mapValues, assign]
    · have hb : (n == name) = false := by simpa using hn
      have hrest : mapValues f ((n, v) :: assign rest name value)
          = (n, f n v) :: mapValues f (assign rest name value) := rfl
      have hall : mapValues f ((n, v) :: rest) = (n, f n v) :: mapValues f rest := rfl
      rw [assign, if_neg (by simp [hn]), hrest, ih, hall, assign, if_neg (by simp [hn])]

/-- New values may be put in before or after only the last value of each name is kept. -/
theorem distinct_mapValues (attributes : List (Text × Option Text)) :
    distinct (mapValues f attributes) = mapValues f (distinct attributes) := by
  have h : ∀ (rest kept : List (Text × Option Text)),
      (mapValues f rest).foldl (fun kept a => assign kept a.1 a.2) (mapValues f kept)
        = mapValues f (rest.foldl (fun kept a => assign kept a.1 a.2) kept) := by
    intro rest
    induction rest with
    | nil => exact fun kept => rfl
    | cons a rest ih =>
      intro kept
      rw [List.foldl_cons, ← ih, mapValues_assign]
      rfl
  exact h attributes []

/-- The names that are kept are among those that were read. -/
theorem mem_of_mem_distinct {attributes : List (Text × Option Text)} {name : Text}
    (h : name ∈ (distinct attributes).map Prod.fst) : name ∈ attributes.map Prod.fst := by
  have hall : ∀ (rest kept : List (Text × Option Text)),
      name ∈ (rest.foldl (fun kept a => assign kept a.1 a.2) kept).map Prod.fst →
        name ∈ kept.map Prod.fst ∨ name ∈ rest.map Prod.fst := by
    intro rest
    induction rest with
    | nil => exact fun kept h => .inl h
    | cons a rest ih =>
      intro kept h
      rw [List.map_cons, List.mem_cons]
      rcases ih _ h with h | h
      · by_cases ha : a.1 ∈ kept.map Prod.fst
        · rw [map_fst_assign ha] at h
          exact .inl h
        · rw [map_fst_assign_of_notMem ha, List.mem_append, List.mem_singleton] at h
          tauto
      · exact .inr (.inr h)
  exact (hall attributes [] h).resolve_left (by simp)

end Lists

/-- Distinct names are kept in their order. -/
theorem distinct_eq_self {attributes : List (Text × Option Text)}
    (h : (attributes.map Prod.fst).Nodup) : distinct attributes = attributes := by
  have hnew : ∀ (kept : List (Text × Option Text)) (a : Text × Option Text),
      a.1 ∉ kept.map Prod.fst → assign kept a.1 a.2 = kept ++ [a] := by
    intro kept a ha
    induction kept with
    | nil => rfl
    | cons first kept ih =>
      rw [List.map_cons, List.mem_cons, not_or] at ha
      rw [assign, if_neg (by simpa using Ne.symm ha.1), ih ha.2, List.cons_append]
  have hall : ∀ (rest kept : List (Text × Option Text)), ((kept ++ rest).map Prod.fst).Nodup →
      rest.foldl (fun kept a => assign kept a.1 a.2) kept = kept ++ rest := by
    intro rest
    induction rest with
    | nil => exact fun kept _ => (List.append_nil kept).symm
    | cons a rest ih =>
      intro kept hkept
      have ha : a.1 ∉ kept.map Prod.fst := by
        rw [List.map_append, List.map_cons] at hkept
        exact fun hmem => (List.nodup_append.mp hkept).2.2 _ hmem _ (List.mem_cons_self ..) rfl
      rw [List.foldl_cons, hnew kept a ha, ih, List.append_assoc, List.singleton_append]
      rwa [List.append_assoc, List.singleton_append]
  exact hall attributes [] h

/-- A list with distinct names is given by its names and what is found under them. -/
theorem eq_map_lookUp {attributes : List (Text × Option Text)}
    (h : (attributes.map Prod.fst).Nodup) :
    attributes = (attributes.map Prod.fst).map fun name => (name, (lookUp name attributes).join) := by
  rw [List.map_map]
  refine (List.map_id attributes).symm.trans (List.map_congr_left fun a ha => ?_)
  obtain ⟨name, value⟩ := a
  simp [lookUp_of_mem h ha]

/-! ## Sequences of calls -/

/-- The tag after a sequence of calls that set attributes. -/
def Tag.setAll (tag : Tag) (sets : List (Text × Text)) : Tag :=
  sets.foldl (fun tag set => tag.set set.1 (some set.2)) tag

/-- The second tag differs from the first one in the values of its changed attributes only. -/
structure Touched (tag tag' : Tag) : Prop where
  name : tag'.name = tag.name
  source : tag'.source = tag.source
  selfClosing : tag'.selfClosing = tag.selfClosing
  names : tag'.attributes.map Prod.fst = tag.attributes.map Prod.fst
  same : ∀ name ∉ tag'.changed, lookUp name tag'.attributes = lookUp name tag.attributes
  given : ∀ name ∈ tag'.changed, ∃ value, lookUp name tag'.attributes = some (some value)

theorem Tag.mem_changed_set (tag : Tag) (name other : Text) (value : Option Text) :
    other ∈ (tag.set name value).changed ↔ other = name ∨ other ∈ tag.changed := by
  rw [Tag.set]
  split
  · rename_i h
    have hname : name ∈ tag.changed := by simpa using h
    constructor
    · exact .inr
    · rintro (rfl | hother)
      · exact hname
      · exact hother
  · rw [List.mem_append, List.mem_singleton, or_comm]

section Touched

variable {tag tag' : Tag}

/-- One more call. -/
theorem Touched.set (h : Touched tag tag') {name : Text} (hname : name ∈ tag.attributes.map Prod.fst)
    (value : Text) : Touched tag (tag'.set name (some value)) := by
  have hmem : name ∈ tag'.attributes.map Prod.fst := by
    rw [h.names]
    exact hname
  refine ⟨h.name, h.source, h.selfClosing, ?_, fun other hother => ?_, fun other hother => ?_⟩
  · exact (map_fst_assign hmem _).trans h.names
  · rw [Tag.mem_changed_set, not_or] at hother
    show lookUp other (assign tag'.attributes name (some value)) = _
    rw [lookUp_assign, if_neg (Ne.symm hother.1), h.same other hother.2]
  · rw [Tag.mem_changed_set] at hother
    show ∃ v, lookUp other (assign tag'.attributes name (some value)) = some (some v)
    rw [lookUp_assign]
    split
    · exact ⟨value, rfl⟩
    · rename_i hne
      exact h.given other (hother.resolve_left (Ne.symm hne))

/-- **A sequence of calls** on a tag without changed attributes changes the values that it sets. -/
theorem Tag.touched_setAll (hfresh : tag.changed = []) {sets : List (Text × Text)}
    (hsets : ∀ set ∈ sets, set.1 ∈ tag.attributes.map Prod.fst) : Touched tag (tag.setAll sets) := by
  have hall : ∀ tag', Touched tag tag' → Touched tag (tag'.setAll sets) := by
    induction sets with
    | nil => exact fun tag' h => h
    | cons set sets ih =>
      rw [List.forall_mem_cons] at hsets
      exact fun tag' h => ih hsets.2 _ (h.set hsets.1 set.2)
  refine hall tag ⟨rfl, rfl, rfl, rfl, fun _ _ => rfl, fun name hname => ?_⟩
  rw [hfresh] at hname
  cases hname

/-- The value of an attribute: the new one if it was changed, else the one that was read. -/
def Tag.renew (tag : Tag) (name : Text) (value : Option Text) : Option Text :=
  if name ∈ tag.changed then tag.get? name else value

/-- **The attributes after the calls** are those that were read with the new values put in. -/
theorem Touched.distinct_renew (h : Touched tag tag') {read : List (Text × Option Text)}
    (hread : tag.attributes = distinct read) :
    distinct (mapValues tag'.renew read) = tag'.attributes := by
  have hnodup : (tag.attributes.map Prod.fst).Nodup := by
    rw [hread]
    exact nodup_distinct read
  have hnodup' : (tag'.attributes.map Prod.fst).Nodup := by
    rw [h.names]
    exact hnodup
  rw [distinct_mapValues, ← hread, eq_map_lookUp hnodup', h.names, mapValues, List.map_map]
  refine List.map_congr_left fun a ha => ?_
  obtain ⟨name, value⟩ := a
  show (name, tag'.renew name value) = (name, (lookUp name tag'.attributes).join)
  by_cases hname : name ∈ tag'.changed
  · rw [Tag.renew, if_pos hname, Tag.get?]
  · rw [Tag.renew, if_neg hname, h.same name hname, lookUp_of_mem hnodup ha]
    rfl

end Touched

end DataBinding.Markup
