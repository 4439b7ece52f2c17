/-
# Loading files

The key facts are

* `exists_loadAll`     : sources that are there can be loaded;
* `ready_of_loadAll`   : what was loaded can be written under another directory, by its names;
* `located_of_loadAll` : what was loaded holds what is at the place where its path leads.
-/
import DataBinding.Proofs.Files.Storing

namespace DataBinding

/-! ## Paths below a base -/

/-- What leads from a base to what is below it. -/
theorem Location.partsBelow?_append (base : Location) (parts : List Text) :
    (base.append parts).partsBelow? base = some parts := by
  unfold partsBelow? append
  simp

/-- What leads to a file from where it is. -/
theorem Location.partsBelow?_parent {l : Location} {parts : List Text} {last : Text}
    (h : l.parts = parts ++ [last]) : l.partsBelow? l.parent = some [last] := by
  unfold partsBelow? parent
  simp [h]

namespace FileTree

variable {tree : FileTree} {place parts : List Text} {bytes : Bytes}

/-- The files below a place. -/
theorem mem_below : (parts, bytes) ∈ tree.below place ↔
    (place ++ parts, bytes) ∈ tree.files ∧ parts ≠ [] := by
  unfold below
  simp only [List.mem_filterMap, Prod.exists, Option.ite_none_right_eq_some, Bool.and_eq_true,
    List.isPrefixOf_iff_prefix, bne_iff_ne, Option.some.injEq, Prod.mk.injEq]
  constructor
  · rintro ⟨file, _, hfile, ⟨⟨rest, rfl⟩, hne⟩, rfl, rfl⟩
    rw [List.drop_left]
    exact ⟨hfile, fun hnil => hne (by rw [hnil, List.append_nil])⟩
  · rintro ⟨hfile, hne⟩
    exact ⟨_, _, hfile, ⟨List.prefix_append _ _, by simpa using hne⟩, List.drop_left, rfl⟩

/-- Where two dots lead is a directory. -/
theorem isDirectory_of_foldlM_enter_dots {q : List Text}
    (h : (parts ++ ["..".toList]).foldlM tree.enter place = some q) :
    tree.isDirectory q = true := by
  rw [List.foldlM_append, Option.bind_eq_bind, Option.bind_eq_some_iff] at h
  obtain ⟨before, -, hlast⟩ := h
  rw [List.foldlM_cons, Option.bind_eq_bind, Option.bind_eq_some_iff] at hlast
  obtain ⟨after, henter, hq⟩ := hlast
  rw [List.foldlM_nil, Option.pure_def, Option.some.injEq] at hq
  subst hq
  have hbefore := isDirectory_of_enter_dots henter
  unfold enter at henter
  rw [if_neg (by decide)] at henter
  split at henter
  · simp at henter
  · rw [← Option.some.inj henter]
    exact isDirectory_above hbefore before.dropLast_prefix

end FileTree

namespace SourceFile

variable {tree : FileTree} {path : Location} {paths : List Location} {place : List Text}
  {file : SourceFile} {files : List SourceFile}

/-! ## Loading one source -/

/-- A file that was found in a directory. -/
theorem mem_inDirectory (h : file ∈ inDirectory tree path place) :
    ∃ parts bytes, file = ⟨path.append parts, .bytes bytes, some path⟩ ∧
      (place ++ parts, bytes) ∈ tree.files ∧ parts ≠ [] ∧ "..".toList ∉ parts := by
  unfold inDirectory at h
  obtain ⟨⟨parts, bytes⟩, hmem, rfl⟩ := List.mem_map.mp h
  rw [List.mem_mergeSort, List.mem_filter] at hmem
  obtain ⟨hbelow, hvisible⟩ := hmem
  obtain ⟨hfile, hne⟩ := FileTree.mem_below.mp hbelow
  refine ⟨parts, bytes, rfl, hfile, hne, fun hdots => ?_⟩
  simp only [isVisibleSource, Bool.and_eq_true, Bool.not_eq_true', List.any_eq_false] at hvisible
  exact hvisible.1 _ hdots (by decide)

/-- The ways in which a source is loaded. -/
theorem cases_of_load? (h : load? tree path = some files) :
    ∃ place, tree.resolve? path = some place ∧
      (files = inDirectory tree path place ∨
        tree.isDirectory place = false ∧ ∃ bytes, tree.read? place = some bytes ∧
          files = [⟨path, .bytes bytes, some path.parent⟩]) := by
  unfold load? at h
  obtain ⟨place, hplace, hload⟩ := Option.bind_eq_some_iff.mp h
  refine ⟨place, hplace, ?_⟩
  split at hload
  · exact .inl (Option.some.inj hload).symm
  · rename_i hdirectory
    obtain ⟨bytes, hbytes, hfiles⟩ := Option.map_eq_some_iff.mp hload
    exact .inr ⟨Bool.eq_false_iff.mpr hdirectory, bytes, hbytes, hfiles.symm⟩

/-- What was loaded can be written under another directory. -/
theorem ready_of_load? (h : load? tree path = some files) : ∀ file ∈ files, file.Ready := by
  intro file hmem
  obtain ⟨place, hplace, rfl | ⟨hdirectory, bytes, -, rfl⟩⟩ := cases_of_load? h
  · obtain ⟨parts, bytes, rfl, -, hne, hplain⟩ := mem_inDirectory hmem
    have hrelative : (⟨path.append parts, .bytes bytes, some path⟩ : SourceFile).relativeParts
        = parts := by
      simp [relativeParts, Location.partsBelow?_append]
    exact ⟨by rwa [hrelative], by rwa [hrelative], bytes, rfl⟩
  · obtain rfl := List.mem_singleton.mp hmem
    obtain ⟨-, hparts⟩ := FileTree.resolve?_eq_some.mp hplace
    have hne : path.parts ≠ [] := by
      intro hnil
      rw [hnil, List.foldlM_nil, Option.pure_def, Option.some.injEq] at hparts
      subst hparts
      simp [FileTree.isDirectory] at hdirectory
    have hlast := (List.dropLast_concat_getLast hne).symm
    have hrelative : (⟨path, .bytes bytes, some path.parent⟩ : SourceFile).relativeParts
        = [path.parts.getLast hne] := by
      simp [relativeParts, Location.partsBelow?_parent hlast]
    refine ⟨by simp [hrelative], ?_, bytes, rfl⟩
    -- a path that ends in two dots leads to a directory
    rw [hrelative, List.mem_singleton]
    intro hdots
    rw [hlast, ← hdots] at hparts
    have := FileTree.isDirectory_of_foldlM_enter_dots hparts
    simp [hdirectory] at this

/-- A file that holds what is at the place where its path leads. -/
def Located (tree : FileTree) (file : SourceFile) : Prop :=
  ∃ place bytes, tree.resolve? file.path = some place ∧ tree.read? place = some bytes ∧
    file.contents = .bytes bytes

/-- What was loaded is what is there. -/
theorem located_of_load? (hwf : tree.WellFormed) (h : load? tree path = some files) :
    ∀ file ∈ files, Located tree file := by
  intro file hmem
  obtain ⟨place, hplace, rfl | ⟨-, bytes, hread, rfl⟩⟩ := cases_of_load? h
  · obtain ⟨parts, bytes, rfl, hfile, -, hplain⟩ := mem_inDirectory hmem
    refine ⟨place ++ parts, bytes, ?_, hwf.read?_of_mem hfile, rfl⟩
    obtain ⟨hroot, hparts⟩ := FileTree.resolve?_eq_some.mp hplace
    rw [FileTree.resolve?_eq_some]
    refine ⟨hroot, ?_⟩
    rw [Location.append, List.foldlM_append, hparts]
    exact FileTree.foldlM_enter_names tree place hplain
  · obtain rfl := List.mem_singleton.mp hmem
    exact ⟨place, bytes, hplace, hread, rfl⟩

/-- What a written location names can be loaded. -/
theorem exists_load? {t : Text} (h : tree.namesEntry t = true) :
    ∃ files, load? tree (.parse t) = some files := by
  have hthere : ∃ place, tree.resolve? (.parse t) = some place ∧ tree.IsThere place := by
    simp only [FileTree.namesEntry, FileTree.namesFile, Bool.or_eq_true, Bool.and_eq_true,
      Option.any_eq_true] at h
    obtain ⟨-, place, hplace, hfile⟩ | ⟨-, place, hplace, hdirectory⟩ := h
    · exact ⟨place, hplace, .inl hfile⟩
    · exact ⟨place, hplace, .inr hdirectory⟩
  obtain ⟨place, hplace, hexists⟩ := hthere
  unfold load?
  rw [hplace, Option.bind_some]
  split
  · exact ⟨_, rfl⟩
  · rename_i hdirectory
    obtain ⟨bytes, hbytes⟩ := Option.isSome_iff_exists.mp (hexists.resolve_right hdirectory)
    exact ⟨_, by rw [hbytes]; rfl⟩

/-! ## Loading several sources -/

/-- Every file was loaded from one of the sources. -/
theorem mem_loadAll (h : loadAll tree paths = .ok files) (hfile : file ∈ files) :
    ∃ path ∈ paths, ∃ found, load? tree path = some found ∧ file ∈ found := by
  induction paths generalizing files with
  | nil => simp [← Except.ok.inj h] at hfile
  | cons path paths ih =>
    unfold loadAll at h
    split at h
    · simp at h
    · rename_i found hfound
      cases hrest : loadAll tree paths with
      | error missing =>
        rw [hrest] at h
        cases h
      | ok rest =>
        rw [hrest] at h
        rw [← Except.ok.inj h, List.mem_append] at hfile
        rcases hfile with hfile | hfile
        · exact ⟨path, List.mem_cons_self, found, hfound, hfile⟩
        · obtain ⟨path', hpath', hothers⟩ := ih hrest hfile
          exact ⟨path', List.mem_cons_of_mem _ hpath', hothers⟩

/-- Sources that can be loaded each can be loaded together. -/
theorem exists_loadAll (h : ∀ path ∈ paths, ∃ found, load? tree path = some found) :
    ∃ files, loadAll tree paths = .ok files := by
  induction paths with
  | nil => exact ⟨[], rfl⟩
  | cons path paths ih =>
    obtain ⟨⟨found, hfound⟩, hrest⟩ := List.forall_mem_cons.mp h
    obtain ⟨files, hfiles⟩ := ih hrest
    refine ⟨found ++ files, ?_⟩
    unfold loadAll
    rw [hfound, hfiles]
    rfl

theorem ready_of_loadAll (h : loadAll tree paths = .ok files) : ∀ file ∈ files, file.Ready := by
  intro file hfile
  obtain ⟨path, -, found, hfound, hmem⟩ := mem_loadAll h hfile
  exact ready_of_load? hfound file hmem

theorem located_of_loadAll (hwf : tree.WellFormed) (h : loadAll tree paths = .ok files) :
    ∀ file ∈ files, Located tree file := by
  intro file hfile
  obtain ⟨path, -, found, hfound, hmem⟩ := mem_loadAll h hfile
  exact located_of_load? hwf hfound file hmem

end SourceFile

end DataBinding
