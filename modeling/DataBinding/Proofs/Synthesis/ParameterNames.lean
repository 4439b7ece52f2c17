/-
# The names of parameters

Each path that is passed gets one parameter.  Plain identifiers keep their names; a dotted path gets
the first of its candidates that is not taken, and there always is one, since candidates differ.

* `fresh_eq_candidate` : a fresh name is a candidate that is not taken.
* `search_fresh`       : it is the one at which the search through the candidates stops.
* `keys_assign`        : the paths that get names, once each, in the order of their first appearance.
* `nodup_assign`       : different paths get different names.
* `nameOf_assign`      : the name of each path.
* `assign_captureFree` : all names together.
-/
import Mathlib.Data.List.Nodup
import Mathlib.Data.List.Range
import Mathlib.Data.List.Perm.Subperm
import DataBinding.Proofs.Template.Computation
import DataBinding.Synthesis.ParameterNames

namespace DataBinding.ParameterNames

/-! ## Fresh names -/

/-- The candidates for a name differ. -/
theorem candidate_injective (flat : Text) : Function.Injective (candidate flat) := by
  have hlonger : ∀ n, candidate flat (n + 1) ≠ flat := by
    intro n h
    have := congrArg List.length h
    simp [candidate] at this
  intro m n h
  cases m with
  | zero =>
    cases n with
    | zero => rfl
    | succ n => exact absurd h.symm (hlonger n)
  | succ m =>
    cases n with
    | zero => exact absurd h (hlonger m)
    | succ n => exact Scope.numeral_injective (List.cons.inj (List.append_cancel_left h)).2

/-- **A fresh name is a candidate that is not taken.** -/
theorem fresh_eq_candidate (taken : List Text) (flat : Text) :
    fresh taken flat ∉ taken ∧ ∃ n, fresh taken flat = candidate flat n := by
  unfold fresh
  cases hfind : ((List.range (taken.length + 1)).map (candidate flat)).find?
      fun name => !taken.contains name with
  | some name =>
    have hfree : name ∉ taken := by simpa using List.find?_some hfind
    obtain ⟨n, -, rfl⟩ := List.mem_map.mp (List.mem_of_find?_eq_some hfind)
    exact ⟨hfree, n, rfl⟩
  | none =>
    -- there are more candidates than taken names
    have hsub : (List.range (taken.length + 1)).map (candidate flat) ⊆ taken := by
      intro name hname
      simpa using List.find?_eq_none.mp hfind name hname
    have hnodup : ((List.range (taken.length + 1)).map (candidate flat)).Nodup :=
      List.Nodup.map (candidate_injective flat) List.nodup_range
    have hlength := (hnodup.subperm hsub).length_le
    rw [List.length_map, List.length_range] at hlength
    exact absurd hlength (Nat.not_succ_le_self _)

/-- The search for a name from a candidate on: the candidates are tried one after the other, until one
is not taken. -/
inductive Search (taken : List Text) (flat : Text) : Nat → Text → Prop
  | stop {n : Nat} (free : candidate flat n ∉ taken) : Search taken flat n (candidate flat n)
  | next {n : Nat} {name : Text} (used : candidate flat n ∈ taken)
      (rest : Search taken flat (n + 1) name) : Search taken flat n name

/-- The first candidate of a stretch that is not taken ends the search. -/
theorem search_of_find?_eq_some {taken : List Text} {flat name : Text} {n k : Nat}
    (h : ((List.range' n k).map (candidate flat)).find? (fun name => !taken.contains name)
      = some name) : Search taken flat n name := by
  induction k generalizing n with
  | zero => cases h
  | succ k ih =>
    rw [List.range'_succ, List.map_cons, List.find?_cons] at h
    split at h
    · rename_i hfree
      obtain rfl := Option.some.inj h
      exact .stop (by simpa using hfree)
    · rename_i hused
      exact .next (by simpa using hused) (ih h)

/-- **The search for a name stops**, and a fresh name is where it does. -/
theorem search_fresh (taken : List Text) (flat : Text) : Search taken flat 0 (fresh taken flat) := by
  obtain ⟨hfree, -⟩ := fresh_eq_candidate taken flat
  unfold fresh at hfree ⊢
  cases hfind : ((List.range (taken.length + 1)).map (candidate flat)).find?
      fun name => !taken.contains name with
  | some name =>
    rw [List.range_eq_range'] at hfind
    exact search_of_find?_eq_some hfind
  | none =>
    rw [hfind] at hfree
    exact .stop hfree

/-! ## Distinct paths -/

theorem nodup_eraseDups (l : List Text) : l.eraseDups.Nodup := by
  induction hlength : l.length using Nat.strong_induction_on generalizing l with
  | _ k ih =>
    subst hlength
    cases l with
    | nil => simp
    | cons a l =>
      rw [List.eraseDups_cons]
      refine List.nodup_cons.mpr ⟨?_, ih _ ?_ _ rfl⟩
      · simp [List.mem_eraseDups]
      · exact Nat.lt_succ_of_le (List.length_filter_le ..)

/-- The paths that have a name after further ones were named. -/
theorem keys_foldl_give (separator : Text) (paths : List Text) (given : Given) :
    (paths.foldl (give separator) given).names.map (·.1) =
      given.names.map (·.1) ++
        (paths.filter (!(given.names.map (·.1)).contains ·)).eraseDups := by
  induction paths generalizing given with
  | nil => simp
  | cons path paths ih =>
    have hany : given.names.any (·.1 == path) = (given.names.map (·.1)).contains path := by
      rw [Bool.eq_iff_iff, List.any_eq_true, List.contains_iff_mem, List.mem_map]
      simp only [beq_iff_eq]
    rw [List.foldl_cons, ih]
    by_cases hknown : (given.names.map (·.1)).contains path = true
    · have hgive : give separator given path = given := by
        rw [give, hany, if_pos hknown]
      rw [hgive, List.filter_cons_of_neg (by rw [hknown]; decide)]
    · have hkeys : (give separator given path).names.map (·.1) =
          given.names.map (·.1) ++ [path] := by
        rw [give, hany, if_neg hknown]
        split <;> simp
      rw [hkeys, List.filter_cons_of_pos (by simpa using hknown), List.eraseDups_cons,
        List.append_assoc, List.singleton_append, List.filter_filter]
      congr 3
      refine List.filter_congr fun other _ => ?_
      rw [Bool.eq_iff_iff]
      simp [and_comm]

variable {paths reserved : List Text} {separator : Text}

/-- **The paths that get names**, once each, in the order of their first appearance. -/
theorem keys_assign : (assign paths separator reserved).map (·.1) = paths.eraseDups := by
  rw [assign, keys_foldl_give]
  simp

/-! ## Given names -/

/-- The name of a path: the path itself if it is plain, and else a candidate that was not taken from
the start. -/
def Named (separator : Text) (start : List Text) (entry : Text × Text) : Prop :=
  (isDotted entry.1 = false ∧ entry.2 = entry.1 ∧ entry.1 ∈ start) ∨
    (isDotted entry.1 = true ∧ entry.2 ∉ start ∧
      ∃ n, entry.2 = candidate (flatten entry.1 separator) n)

/-- The names given so far are as they should be, and no name is given twice. -/
structure Given.Sound (separator : Text) (start : List Text) (given : Given) : Prop where
  named : ∀ entry ∈ given.names, Named separator start entry
  start : start ⊆ given.taken
  taken : ∀ entry ∈ given.names, isDotted entry.1 = true → entry.2 ∈ given.taken
  nodup : (given.names.map (·.2)).Nodup

/-- A further name that was not given yet. -/
theorem Given.Sound.append {start taken : List Text} {given : Given} (h : given.Sound separator start)
    {path name : Text} (hnamed : Named separator start (path, name)) (htaken : given.taken ⊆ taken)
    (hname : isDotted path = true → name ∈ taken) (hnew : name ∉ given.names.map (·.2)) :
    Given.Sound separator start ⟨given.names ++ [(path, name)], taken⟩ where
  named := by
    rw [List.forall_mem_append, List.forall_mem_singleton]
    exact ⟨h.named, hnamed⟩
  start := List.Subset.trans h.start htaken
  taken := by
    rw [List.forall_mem_append, List.forall_mem_singleton]
    exact ⟨fun entry hentry hdotted => htaken (h.taken entry hentry hdotted), hname⟩
  nodup := by
    rw [List.map_append, List.map_singleton, ← List.concat_eq_append]
    exact h.nodup.concat hnew

/-- Naming one more path keeps the names as they should be. -/
theorem Given.Sound.give {start : List Text} {given : Given} (h : given.Sound separator start)
    {path : Text} (hplain : isDotted path = false → path ∈ start) :
    (give separator given path).Sound separator start := by
  unfold ParameterNames.give
  split
  · exact h
  · rename_i hnew
    split
    · rename_i hdotted
      obtain ⟨hfree, n, hn⟩ := fresh_eq_candidate given.taken (flatten path separator)
      refine h.append (.inr ⟨hdotted, fun hmem => hfree (h.start hmem), n, hn⟩)
        (List.subset_append_left ..)
        (fun _ => List.mem_append_right _ (List.mem_singleton_self _)) fun hmem => ?_
      -- plain names are taken from the start, dotted ones since they were given
      obtain ⟨entry, hentry, heq⟩ := List.mem_map.mp hmem
      obtain ⟨-, hself, hmem⟩ | ⟨hdotted', -⟩ := h.named entry hentry
      · exact hfree (h.start (heq ▸ hself ▸ hmem))
      · exact hfree (heq ▸ h.taken entry hentry hdotted')
    · rename_i hdotted
      have hdotted := Bool.eq_false_iff.mpr hdotted
      refine h.append (.inl ⟨hdotted, rfl, hplain hdotted⟩) (List.Subset.refl _)
        (fun htrue => Bool.noConfusion (hdotted.symm.trans htrue)) fun hmem => ?_
      -- a name that equals the plain path is that path's own, or a fresh one
      obtain ⟨entry, hentry, heq⟩ := List.mem_map.mp hmem
      obtain ⟨-, hself, -⟩ | ⟨-, hfree, -⟩ := h.named entry hentry
      · exact hnew (List.any_eq_true.mpr ⟨entry, hentry, beq_iff_eq.mpr (hself ▸ heq)⟩)
      · exact hfree (heq ▸ hplain hdotted)

/-- The names that are given to paths are as they should be. -/
theorem sound_assign (paths : List Text) (separator : Text) (reserved : List Text) :
    Given.Sound separator (reserved ++ paths.filter (!isDotted ·))
      (paths.foldl (give separator) ⟨[], reserved ++ paths.filter (!isDotted ·)⟩) := by
  suffices h : ∀ (rest : List Text) (given : Given), rest ⊆ paths →
      given.Sound separator (reserved ++ paths.filter (!isDotted ·)) →
      (rest.foldl (give separator) given).Sound separator
        (reserved ++ paths.filter (!isDotted ·)) by
    refine h paths _ (List.Subset.refl _) ⟨?_, List.Subset.refl _, ?_, List.nodup_nil⟩
    · simp
    · simp
  intro rest
  induction rest with
  | nil => exact fun given _ h => h
  | cons path rest ih =>
    intro given hsub h
    obtain ⟨hpath, hrest⟩ := List.cons_subset.mp hsub
    refine ih _ hrest (h.give fun hplain => ?_)
    exact List.mem_append_right _ (List.mem_filter.mpr ⟨hpath, by rw [hplain]; rfl⟩)

/-- **Different paths get different names.** -/
theorem nodup_assign : ((assign paths separator reserved).map (·.2)).Nodup :=
  (sound_assign paths separator reserved).nodup

/-- The entry of a path gives its name. -/
theorem nameOf_of_mem {names : List (Text × Text)} (hkeys : (names.map (·.1)).Nodup)
    {entry : Text × Text} (h : entry ∈ names) : nameOf names entry.1 = entry.2 := by
  induction names with
  | nil => cases h
  | cons first names ih =>
    rw [List.map_cons, List.nodup_cons] at hkeys
    rcases List.mem_cons.mp h with rfl | h
    · simp [nameOf]
    · have hne : (first.1 == entry.1) = false := by
        rw [beq_eq_false_iff_ne]
        intro heq
        exact hkeys.1 (heq ▸ List.mem_map_of_mem h)
      have hrest := ih hkeys.2 h
      rw [nameOf] at hrest ⊢
      rw [List.find?_cons, hne]
      exact hrest

theorem nodup_keys_assign : ((assign paths separator reserved).map (·.1)).Nodup := by
  rw [keys_assign]
  exact nodup_eraseDups paths

/-- The names, path by path. -/
theorem values_assign : (assign paths separator reserved).map (·.2) =
    paths.eraseDups.map (nameOf (assign paths separator reserved)) := by
  rw [← keys_assign, List.map_map]
  refine List.map_congr_left fun entry hentry => ?_
  exact (nameOf_of_mem nodup_keys_assign hentry).symm

/-- The name of each path is as it should be. -/
theorem named_nameOf (separator : Text) (reserved : List Text) {path : Text} (h : path ∈ paths) :
    Named separator (reserved ++ paths.filter (!isDotted ·))
      (path, nameOf (assign paths separator reserved) path) := by
  have hkey : path ∈ (assign paths separator reserved).map (·.1) := by
    rw [keys_assign]
    exact List.mem_eraseDups.mpr h
  obtain ⟨entry, hentry, rfl⟩ := List.mem_map.mp hkey
  rw [nameOf_of_mem nodup_keys_assign hentry]
  exact (sound_assign paths separator reserved).named entry hentry

/-- **The name of each path**: the path itself if it is plain, and else a candidate that is not
reserved. -/
theorem nameOf_assign (separator : Text) (reserved : List Text) {path : Text} (h : path ∈ paths) :
    (isDotted path = false ∧ nameOf (assign paths separator reserved) path = path) ∨
      (isDotted path = true ∧ nameOf (assign paths separator reserved) path ∉ reserved ∧
        ∃ n, nameOf (assign paths separator reserved) path =
          candidate (flatten path separator) n) := by
  obtain ⟨hplain, hself, -⟩ | ⟨hdotted, hfree, hcandidate⟩ := named_nameOf separator reserved h
  · exact .inl ⟨hplain, hself⟩
  · exact .inr ⟨hdotted, fun hmem => hfree (List.mem_append_left _ hmem), hcandidate⟩

/-! ## All names -/

/-- The names of paths as they are given one after the other: a plain path keeps its name, and a dotted
one gets the name at which the search stops, which is taken from then on. -/
inductive Searched (separator : Text) : List Text → List (Text × Text) → Prop
  | nil {taken : List Text} : Searched separator taken []
  | plain {taken : List Text} {path : Text} {names : List (Text × Text)}
      (plain : isDotted path = false) (rest : Searched separator taken names) :
      Searched separator taken ((path, path) :: names)
  | dotted {taken : List Text} {path name : Text} {names : List (Text × Text)}
      (dotted : isDotted path = true) (search : Search taken (flatten path separator) 0 name)
      (rest : Searched separator (taken ++ [name]) names) :
      Searched separator taken ((path, name) :: names)

/-- The names of further paths are searched with all names taken that were given before. -/
theorem exists_searched (separator : Text) (paths : List Text) (given : Given) :
    ∃ more, (paths.foldl (give separator) given).names = given.names ++ more ∧
      Searched separator given.taken more := by
  induction paths generalizing given with
  | nil => exact ⟨[], (List.append_nil _).symm, .nil⟩
  | cons path paths ih =>
    obtain ⟨more, hnames, hsearched⟩ := ih (give separator given path)
    rw [List.foldl_cons, hnames]
    unfold give at hsearched ⊢
    split
    · rename_i hknown
      rw [if_pos hknown] at hsearched
      exact ⟨more, rfl, hsearched⟩
    · rename_i hnew
      rw [if_neg hnew] at hsearched
      split
      · rename_i hdotted
        rw [if_pos hdotted] at hsearched
        exact ⟨_ :: more, List.append_assoc .., .dotted hdotted (search_fresh ..) hsearched⟩
      · rename_i hplain
        rw [if_neg hplain] at hsearched
        exact ⟨_ :: more, List.append_assoc .., .plain (Bool.eq_false_iff.mpr hplain) hsearched⟩

/-- **The names of all paths.**  Each distinct path has one name, found by a search that stops; plain
paths keep their names, different paths have different ones, and the name of a dotted path is neither
reserved nor a plain path of the list, wherever that stands. -/
theorem assign_captureFree (paths : List Text) (separator : Text) (reserved : List Text) :
    (assign paths separator reserved).map (·.1) = paths.eraseDups ∧
      Searched separator (reserved ++ paths.filter (!isDotted ·))
        (assign paths separator reserved) ∧
      (∀ path ∈ paths, isDotted path = false →
        nameOf (assign paths separator reserved) path = path) ∧
      (∀ path ∈ paths, ∀ other ∈ paths, path ≠ other →
        nameOf (assign paths separator reserved) path
          ≠ nameOf (assign paths separator reserved) other) ∧
      ∀ path ∈ paths, isDotted path = true →
        nameOf (assign paths separator reserved) path ∉ reserved ∧
          ∀ other ∈ paths, isDotted other = false →
            nameOf (assign paths separator reserved) path ≠ other := by
  obtain ⟨names, hnames, hsearched⟩ :=
    exists_searched separator paths ⟨[], reserved ++ paths.filter (!isDotted ·)⟩
  refine ⟨keys_assign, ?_, fun path hpath hplain => ?_, fun path hpath other hother hne heq => ?_,
    fun path hpath hdotted => ?_⟩
  · rw [assign, hnames]
    exact hsearched
  · obtain ⟨-, hself, -⟩ | ⟨hdotted, -⟩ := named_nameOf separator reserved hpath
    · exact hself
    · rw [hplain] at hdotted
      cases hdotted
  · have hnodup : (paths.eraseDups.map (nameOf (assign paths separator reserved))).Nodup := by
      rw [← values_assign]
      exact nodup_assign
    exact hne (List.inj_on_of_nodup_map hnodup (List.mem_eraseDups.mpr hpath)
      (List.mem_eraseDups.mpr hother) heq)
  · obtain ⟨hplain, -⟩ | ⟨-, hfree, -⟩ := named_nameOf separator reserved hpath
    · rw [hplain] at hdotted
      cases hdotted
    · rw [List.mem_append, not_or] at hfree
      refine ⟨hfree.1, fun other hother hplain heq => hfree.2 (List.mem_filter.mpr ?_)⟩
      rw [heq, hplain]
      exact ⟨hother, rfl⟩

/-- A plain path keeps its name although it comes last. -/
example : assign ["a.b".toList, "a__b.c".toList, "a__b".toList] "__".toList ["a__b__c".toList]
    = [("a.b".toList, "a__b_1".toList), ("a__b.c".toList, "a__b__c_1".toList),
      ("a__b".toList, "a__b".toList)] := by
  decide +kernel

end DataBinding.ParameterNames
