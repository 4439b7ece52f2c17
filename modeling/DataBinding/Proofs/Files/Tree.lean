/-
# Reading trees of files

What can be seen of a tree is which places hold what, and which are directories.  The key facts are

* `read?_put`, `isDirectory_put` : what is seen behind a change;
* `WellFormed`                   : a place is listed once, and no file is a directory;
* `Walks`                        : a way through directories;
* `walks_of_foldlM_enter`        : the way to whatever is there is such a way.
-/
import DataBinding.Files.Tree

namespace DataBinding.FileTree

variable {tree tree' : FileTree} {place q : List Text} {part : Text} {bytes : Bytes}

/-! ## Looking -/

/-- A file is at a place if the place is listed with contents. -/
theorem isFile_iff : tree.isFile place = true ↔ place ∈ tree.files.map (·.1) := by
  simp [isFile, read?]

/-- A directory is at the top, at what leads to a listed directory, and above a file. -/
theorem isDirectory_iff : tree.isDirectory place = true ↔
    place = [] ∨ (∃ directory ∈ tree.directories, place <+: directory) ∨
      ∃ file ∈ tree.files.map (·.1), place <+: file ∧ file ≠ place := by
  simp [isDirectory, or_assoc]

/-- What leads to a directory is a directory. -/
theorem isDirectory_above (hq : tree.isDirectory q = true) (h : place <+: q) :
    tree.isDirectory place = true := by
  rw [isDirectory_iff] at hq ⊢
  obtain rfl | ⟨d, hd, hqd⟩ | ⟨file, hfile, hqf, hne⟩ := hq
  · exact .inl (List.prefix_nil.mp h)
  · exact .inr (.inl ⟨d, hd, h.trans hqd⟩)
  · refine .inr (.inr ⟨file, hfile, h.trans hqf, ?_⟩)
    rintro rfl
    exact hne (hqf.eq_of_length (Nat.le_antisymm hqf.length_le h.length_le)).symm

/-- What leads to a file is a directory. -/
theorem isDirectory_above_file (hq : tree.isFile q = true) (h : place <+: q) (hne : q ≠ place) :
    tree.isDirectory place = true :=
  isDirectory_iff.mpr (.inr (.inr ⟨q, isFile_iff.mp hq, h, hne⟩))

/-- Something is at a place. -/
def IsThere (tree : FileTree) (place : List Text) : Prop :=
  tree.isFile place = true ∨ tree.isDirectory place = true

/-- What is below a place makes it a directory. -/
theorem IsThere.isDirectory (h : tree.IsThere (place ++ [part])) :
    tree.isDirectory place = true := by
  have habove : place <+: place ++ [part] := List.prefix_append place [part]
  rcases h with hfile | hdirectory
  · exact isDirectory_above_file hfile habove (by simp)
  · exact isDirectory_above hdirectory habove

/-! ## Changes -/

/-- The places of files behind a change. -/
theorem mem_places_putFile {files : List (List Text × Bytes)} :
    q ∈ (putFile place bytes files).map (·.1) ↔ q = place ∨ q ∈ files.map (·.1) := by
  induction files with
  | nil => simp [putFile]
  | cons file files ih =>
    unfold putFile
    split
    · rename_i heq
      rw [beq_iff_eq] at heq
      simp [heq]
    · rw [List.map_cons, List.mem_cons, ih, List.map_cons, List.mem_cons, or_left_comm]

/-- **What is read behind a change.** -/
theorem read?_put (tree : FileTree) (place q : List Text) (bytes : Bytes) :
    (tree.put place bytes).read? q = if q = place then some bytes else tree.read? q := by
  unfold put read?
  dsimp only
  induction tree.files with
  | nil =>
    by_cases h : q = place
    · simp [putFile, h]
    · simp [putFile, h, Ne.symm h]
  | cons file files ih =>
    unfold putFile
    by_cases hfile : file.1 = place
    · by_cases h : q = place
      · simp [hfile, h]
      · simp [hfile, h, Ne.symm h]
    · rw [if_neg (by simpa using hfile), List.find?_cons, List.find?_cons]
      cases hq : file.1 == q with
      | true =>
        have hne : q ≠ place := by
          rintro rfl
          exact hfile (by simpa using hq)
        rw [if_neg hne]
      | false => exact ih

/-- The file that was put is there, and no other one comes or goes. -/
theorem isFile_put (tree : FileTree) (place q : List Text) (bytes : Bytes) :
    (tree.put place bytes).isFile q = true ↔ q = place ∨ tree.isFile q = true := by
  rw [isFile_iff, isFile_iff]
  exact mem_places_putFile

/-- What leads to the file that was put is a directory. -/
theorem isDirectory_put (tree : FileTree) (place q : List Text) (bytes : Bytes) :
    (tree.put place bytes).isDirectory q = true ↔
      tree.isDirectory q = true ∨ q <+: place ∧ place ≠ q := by
  rw [isDirectory_iff, isDirectory_iff]
  simp only [put, mem_places_putFile]
  constructor
  · rintro (h | h | ⟨file, rfl | hfile, hq⟩)
    · exact .inl (.inl h)
    · exact .inl (.inr (.inl h))
    · exact .inr hq
    · exact .inl (.inr (.inr ⟨file, hfile, hq⟩))
  · rintro ((h | h | ⟨file, hfile, hq⟩) | hq)
    · exact .inl h
    · exact .inr (.inl h)
    · exact .inr (.inr ⟨file, .inr hfile, hq⟩)
    · exact .inr (.inr ⟨place, .inl rfl, hq⟩)

/-! ## Well-formed trees -/

/-- A tree as it can be on a disk: a place is listed once, and no file is a directory. -/
structure WellFormed (tree : FileTree) : Prop where
  nodup : (tree.files.map (·.1)).Nodup
  apart : ∀ file ∈ tree.files.map (·.1), tree.isDirectory file = false

theorem WellFormed.isDirectory_eq_false (h : tree.WellFormed) (hplace : tree.isFile place = true) :
    tree.isDirectory place = false :=
  h.apart place (isFile_iff.mp hplace)

theorem WellFormed.isFile_eq_false (h : tree.WellFormed) (hplace : tree.isDirectory place = true) :
    tree.isFile place = false := by
  rw [Bool.eq_false_iff]
  intro hfile
  simp [h.isDirectory_eq_false hfile] at hplace

/-- What is listed is read. -/
theorem WellFormed.read?_of_mem (h : tree.WellFormed) (hfile : (place, bytes) ∈ tree.files) :
    tree.read? place = some bytes := by
  have hnodup := h.nodup
  unfold read?
  generalize tree.files = files at hfile hnodup ⊢
  induction files with
  | nil => simp at hfile
  | cons file files ih =>
    rw [List.map_cons, List.nodup_cons] at hnodup
    rw [List.find?_cons]
    rcases List.mem_cons.mp hfile with rfl | hfile
    · simp
    · have hne : (file.1 == place) = false := by
        rw [beq_eq_false_iff_ne]
        rintro rfl
        exact hnodup.1 (List.mem_map.mpr ⟨_, hfile, rfl⟩)
      rw [hne]
      exact ih hfile hnodup.2

/-- A change where a file is leaves the places as they are. -/
theorem places_putFile {files : List (List Text × Bytes)} (h : place ∈ files.map (·.1)) :
    (putFile place bytes files).map (·.1) = files.map (·.1) := by
  induction files with
  | nil => simp at h
  | cons file files ih =>
    unfold putFile
    split
    · rename_i heq
      rw [beq_iff_eq] at heq
      simp [heq]
    · rename_i hne
      rw [beq_iff_eq] at hne
      rw [List.map_cons, List.map_cons, ih]
      simpa [Ne.symm hne] using h

/-- A change where a file is leaves the directories as they are. -/
theorem isDirectory_put_of_isFile (h : tree.isFile place = true) (bytes : Bytes) (q : List Text) :
    (tree.put place bytes).isDirectory q = tree.isDirectory q := by
  rw [Bool.eq_iff_iff, isDirectory_put]
  refine ⟨?_, .inl⟩
  rintro (hq | ⟨habove, hne⟩)
  · exact hq
  · exact isDirectory_above_file h habove hne

/-- Whatever leads to a place is a directory. -/
def Reached (tree : FileTree) (place : List Text) : Prop :=
  ∀ q, q <+: place → q ≠ place → tree.isDirectory q = true

theorem reached_of_isFile (h : tree.isFile place = true) : tree.Reached place :=
  fun _ hq hne => isDirectory_above_file h hq (Ne.symm hne)

theorem reached_of_isDirectory (h : tree.isDirectory place = true) : tree.Reached place :=
  fun _ hq _ => isDirectory_above h hq

theorem reached_append (h : tree.isDirectory place = true) (part : Text) :
    tree.Reached (place ++ [part]) := by
  intro q hq hne
  rw [List.prefix_concat_iff] at hq
  exact isDirectory_above h (hq.resolve_left hne)

/-- A change elsewhere adds a place. -/
theorem nodup_putFile {files : List (List Text × Bytes)} (h : (files.map (·.1)).Nodup) :
    ((putFile place bytes files).map (·.1)).Nodup := by
  by_cases hplace : place ∈ files.map (·.1)
  · rwa [places_putFile hplace]
  · induction files with
    | nil => simp [putFile]
    | cons file files ih =>
      rw [List.map_cons, List.nodup_cons] at h
      rw [List.map_cons, List.mem_cons, not_or] at hplace
      unfold putFile
      rw [if_neg (by simpa using Ne.symm hplace.1), List.map_cons, List.nodup_cons,
        mem_places_putFile, not_or]
      exact ⟨⟨Ne.symm hplace.1, h.1⟩, ih h.2 hplace.2⟩

/-- **A change where no directory is** leaves a tree well-formed. -/
theorem WellFormed.put (h : tree.WellFormed) (hplace : tree.isDirectory place = false)
    (hreached : tree.Reached place) (bytes : Bytes) : (tree.put place bytes).WellFormed where
  nodup := nodup_putFile h.nodup
  apart file hfile := by
    rw [Bool.eq_false_iff, Ne, isDirectory_put, not_or]
    rcases mem_places_putFile.mp hfile with rfl | hfile
    · exact ⟨by simp [hplace], fun hq => hq.2 rfl⟩
    · have hfalse := h.apart file hfile
      refine ⟨by simp [hfalse], fun ⟨habove, hne⟩ => ?_⟩
      simp [hreached file habove (Ne.symm hne)] at hfalse

/-! ## Ways -/

/-- A name leads one component down. -/
theorem enter_name (tree : FileTree) (place : List Text) (h : part ≠ "..".toList) :
    tree.enter place part = some (place ++ [part]) := by
  unfold enter
  rw [if_pos (by simpa using h)]

/-- Names lead down. -/
theorem foldlM_enter_names (tree : FileTree) (place : List Text) {names : List Text}
    (h : "..".toList ∉ names) : names.foldlM tree.enter place = some (place ++ names) := by
  induction names generalizing place with
  | nil => simp
  | cons name names ih =>
    rw [List.mem_cons, not_or] at h
    rw [List.foldlM_cons, enter_name _ _ (Ne.symm h.1)]
    simpa using ih (place ++ [name]) h.2

/-- Two dots lead out of directories only. -/
theorem isDirectory_of_enter_dots (h : tree.enter place "..".toList = some q) :
    tree.isDirectory place = true := by
  unfold enter at h
  rw [if_neg (by decide)] at h
  split at h
  · simp at h
  · rename_i hplace
    simp only [Bool.or_eq_true, not_or, Bool.not_eq_true, Bool.not_eq_false'] at hplace
    exact hplace.2

/-- Where one can go, one can go when there are more directories. -/
theorem enter_mono (hdirectory : ∀ q, tree.isDirectory q = true → tree'.isDirectory q = true)
    (h : tree.enter place part = some q) : tree'.enter place part = some q := by
  by_cases hpart : part = "..".toList
  · subst hpart
    have hplace := isDirectory_of_enter_dots h
    unfold enter at h ⊢
    rw [hplace] at h
    rw [hdirectory place hplace]
    exact h
  · rw [enter_name _ _ hpart] at h ⊢
    exact h

/-- Only directories lead to what is there. -/
theorem isDirectory_of_foldlM_enter {parts : List Text} (hne : parts ≠ [])
    (h : parts.foldlM tree.enter place = some q) (hq : tree.IsThere q) :
    tree.isDirectory place = true := by
  induction parts generalizing place with
  | nil => exact absurd rfl hne
  | cons part parts ih =>
    rw [List.foldlM_cons, Option.bind_eq_bind, Option.bind_eq_some_iff] at h
    obtain ⟨next, henter, hrest⟩ := h
    by_cases hpart : part = "..".toList
    · subst hpart
      exact isDirectory_of_enter_dots henter
    · rw [enter_name _ _ hpart, Option.some.injEq] at henter
      subst henter
      have hnext : tree.IsThere (place ++ [part]) := by
        cases parts with
        | nil =>
          rw [List.foldlM_nil, Option.pure_def, Option.some.injEq] at hrest
          rwa [hrest]
        | cons part' parts => exact .inr (ih (List.cons_ne_nil _ _) hrest)
      exact hnext.isDirectory

/-- A way from a place along components that goes through directories only. -/
inductive Walks (tree : FileTree) : List Text → List Text → List Text → Prop
  | done (place : List Text) : Walks tree place [] place
  | step {place next last : List Text} {part : Text} {parts : List Text}
      (henter : tree.enter place part = some next) (hdirectory : tree.isDirectory next = true)
      (hfile : tree.isFile next = false) (hrest : Walks tree next parts last) :
      Walks tree place (part :: parts) last

/-- The way to something that is there, without its last steps. -/
theorem walks_of_foldlM_enter (hwf : tree.WellFormed) {parts more : List Text} (hmore : more ≠ [])
    (h : (parts ++ more).foldlM tree.enter place = some q) (hq : tree.IsThere q) :
    ∃ last, tree.Walks place parts last := by
  induction parts generalizing place with
  | nil => exact ⟨place, .done place⟩
  | cons part parts ih =>
    rw [List.cons_append, List.foldlM_cons, Option.bind_eq_bind, Option.bind_eq_some_iff] at h
    obtain ⟨next, henter, hrest⟩ := h
    have hnext :=
      isDirectory_of_foldlM_enter (List.append_ne_nil_of_right_ne_nil parts hmore) hrest hq
    obtain ⟨last, hlast⟩ := ih hrest
    exact ⟨last, .step henter hnext (hwf.isFile_eq_false hnext) hlast⟩

namespace Walks

variable {parts : List Text}

/-- A way that goes on. -/
theorem foldlM_enter_append (h : tree.Walks place parts q) (more : List Text) :
    (parts ++ more).foldlM tree.enter place = more.foldlM tree.enter q := by
  induction h with
  | done place => rfl
  | step henter _ _ _ ih =>
    rw [List.cons_append, List.foldlM_cons, henter]
    exact ih

/-- A way stays one when directories are added and no file takes the place of one. -/
theorem mono (h : tree.Walks place parts q)
    (hdirectory : ∀ q, tree.isDirectory q = true → tree'.isDirectory q = true)
    (hfile : ∀ q, tree.isDirectory q = true → tree.isFile q = false → tree'.isFile q = false) :
    tree'.Walks place parts q := by
  induction h with
  | done place => exact .done place
  | step henter hnext hnofile _ ih =>
    exact .step (enter_mono hdirectory henter) (hdirectory _ hnext) (hfile _ hnext hnofile) ih

/-- A way from a directory ends in a directory. -/
theorem isDirectory (h : tree.Walks place parts q) (hplace : tree.isDirectory place = true) :
    tree.isDirectory q = true := by
  induction h with
  | done place => exact hplace
  | step _ hnext _ _ ih => exact ih hnext

end Walks

end DataBinding.FileTree
