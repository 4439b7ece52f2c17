/-
# Storing files

A file that is there is stored by putting its contents into its place.  Under another directory, the
directories on the way are made first, for which no file may be in the way.  The key facts are

* `wellFormed_store?`                          : storing leaves a tree well-formed;
* `store?_inPlace`, `exists_storeAll?_inPlace` : storing where files are;
* `exists_storeAll?_iff`                       : when several files can be stored under a directory;
* `storeAll?_under`                            : a place then holds what was stored there last.
-/
import DataBinding.Files.Source
import DataBinding.Proofs.Files.Tree

namespace DataBinding

namespace FileTree

variable {tree tree' : FileTree} {place q : List Text} {part : Text} {parts : List Text}
  {bytes : Bytes}

/-! ## Making directories -/

/-- A tree with the directories that lead to a place, and else as it was. -/
structure Made (tree : FileTree) (place : List Text) (tree' : FileTree) : Prop where
  files : tree'.files = tree.files
  isDirectory : ∀ q, tree'.isDirectory q = true ↔ tree.isDirectory q = true ∨ q <+: place

/-- What is read depends on the files alone. -/
theorem Made.read?_eq (h : tree.Made place tree') (q : List Text) :
    tree'.read? q = tree.read? q := by
  unfold read?
  rw [h.files]

theorem Made.isFile_eq (h : tree.Made place tree') (q : List Text) :
    tree'.isFile q = tree.isFile q := by
  unfold isFile
  rw [h.read?_eq]

/-- A directory that is there is as good as made. -/
theorem Made.refl (h : tree.isDirectory place = true) : tree.Made place tree where
  files := rfl
  isDirectory _ := ⟨.inl, fun hq => hq.elim id (isDirectory_above h)⟩

theorem Made.trans {tree'' : FileTree} (h : tree.Made place tree') (h' : tree'.Made q tree'')
    (habove : place <+: q) : tree.Made q tree'' where
  files := h'.files.trans h.files
  isDirectory r := by
    rw [h'.isDirectory, h.isDirectory, or_assoc]
    exact or_congr_right ⟨fun hr => hr.elim (·.trans habove) id, .inr⟩

/-- A directory can be made where no file is. -/
theorem makeDirectory?_eq_some_iff :
    (∃ tree', tree.makeDirectory? place = some tree') ↔ tree.isFile place = false := by
  unfold makeDirectory?
  split
  · simp_all
  · split <;> simp_all

/-- Nothing is made where a directory is. -/
theorem makeDirectory?_eq_self (hdirectory : tree.isDirectory place = true)
    (hfile : tree.isFile place = false) : tree.makeDirectory? place = some tree := by
  unfold makeDirectory?
  rw [if_neg (by simp [hfile]), if_pos hdirectory]

/-- What making a directory changes. -/
theorem made_of_makeDirectory? (h : tree.makeDirectory? place = some tree') :
    tree.Made place tree' := by
  unfold makeDirectory? at h
  split at h
  · simp at h
  · split at h
    · rename_i hdirectory
      rw [← Option.some.inj h]
      exact .refl hdirectory
    · rw [← Option.some.inj h]
      refine ⟨rfl, fun q => ?_⟩
      rw [isDirectory_iff, isDirectory_iff]
      simp only [List.mem_append, List.mem_singleton]
      constructor
      · rintro (hq | ⟨d, hd | rfl, hq⟩ | hq)
        · exact .inl (.inl hq)
        · exact .inl (.inr (.inl ⟨d, hd, hq⟩))
        · exact .inr hq
        · exact .inl (.inr (.inr hq))
      · rintro ((hq | ⟨d, hd, hq⟩ | hq) | hq)
        · exact .inl hq
        · exact .inr (.inl ⟨d, .inl hd, hq⟩)
        · exact .inr (.inr hq)
        · exact .inr (.inl ⟨place, .inr rfl, hq⟩)

/-- One step of the making: to go on, and to make the directory there. -/
theorem makeEntered?_eq_some : makeEntered? (tree, place) part = some (tree', q) ↔
    tree.enter place part = some q ∧ tree.makeDirectory? q = some tree' := by
  simp only [makeEntered?, Option.bind_eq_bind, Option.bind_eq_some_iff, Option.pure_def,
    Option.some.injEq, Prod.mk.injEq]
  constructor
  · rintro ⟨next, henter, made, hmade, rfl, rfl⟩
    exact ⟨henter, hmade⟩
  · rintro ⟨henter, hmade⟩
    exact ⟨q, henter, tree', hmade, rfl, rfl⟩

/-- Nothing has to be made on a way through directories. -/
theorem Walks.foldlM_makeEntered?_append (h : tree.Walks place parts q) (more : List Text) :
    (parts ++ more).foldlM makeEntered? (tree, place) = more.foldlM makeEntered? (tree, q) := by
  induction h with
  | done place => rfl
  | step henter hdirectory hfile _ ih =>
    rw [List.cons_append, List.foldlM_cons,
      makeEntered?_eq_some.mpr ⟨henter, makeDirectory?_eq_self hdirectory hfile⟩]
    exact ih

/-- Once made, a way stays one. -/
theorem walks_of_makeEntered? (h : parts.foldlM makeEntered? (tree, place) = some (tree', q)) :
    tree'.Walks place parts q ∧ tree'.files = tree.files ∧
      ∀ r, tree.isDirectory r = true → tree'.isDirectory r = true := by
  induction parts generalizing tree place with
  | nil =>
    obtain ⟨rfl, rfl⟩ := Prod.mk.inj (Option.some.inj h)
    exact ⟨.done place, rfl, fun _ hr => hr⟩
  | cons part parts ih =>
    rw [List.foldlM_cons, Option.bind_eq_bind, Option.bind_eq_some_iff] at h
    obtain ⟨⟨between, next⟩, hstep, hrest⟩ := h
    obtain ⟨henter, hmake⟩ := makeEntered?_eq_some.mp hstep
    obtain ⟨hwalks, hfiles, hdirectories⟩ := ih hrest
    have hmade := made_of_makeDirectory? hmake
    have hgrown : ∀ r, tree.isDirectory r = true → tree'.isDirectory r = true :=
      fun r hr => hdirectories r ((hmade.isDirectory r).mpr (.inl hr))
    have hnofile : tree'.isFile next = false := by
      have := makeDirectory?_eq_some_iff.mp ⟨_, hmake⟩
      unfold isFile read? at this ⊢
      rwa [hfiles, hmade.files]
    exact ⟨.step (enter_mono hgrown henter)
      (hdirectories next ((hmade.isDirectory next).mpr (.inr (List.prefix_refl next)))) hnofile
      hwalks,
      hfiles.trans hmade.files, hgrown⟩

/-! ## Names below a place -/

/-- No file is on the way from a place along names, nor at its end. -/
def Free (tree : FileTree) (place names : List Text) : Prop :=
  ∀ s, s ≠ [] → s <+: names → tree.isFile (place ++ s) = false

theorem free_cons : tree.Free place (part :: parts) ↔
    tree.isFile (place ++ [part]) = false ∧ tree.Free (place ++ [part]) parts := by
  constructor
  · intro h
    refine ⟨h [part] (List.cons_ne_nil _ _) (by simp), fun s hs habove => ?_⟩
    have := h (part :: s) (List.cons_ne_nil _ _) (List.cons_prefix_cons.mpr ⟨rfl, habove⟩)
    rwa [← List.append_cons]
  · rintro ⟨hfirst, hrest⟩ s hs habove
    obtain _ | ⟨c, s⟩ := s
    · exact absurd rfl hs
    · obtain ⟨rfl, hbelow⟩ := List.cons_prefix_cons.mp habove
      by_cases hnil : s = []
      · rw [hnil]
        exact hfirst
      · rw [List.append_cons]
        exact hrest s hnil hbelow

/-- What making the directories along names changes, and what it takes. -/
theorem made_of_foldlM_makeEntered? (hplace : tree.isDirectory place = true)
    (hnames : "..".toList ∉ parts)
    (h : parts.foldlM makeEntered? (tree, place) = some (tree', q)) :
    q = place ++ parts ∧ tree.Made (place ++ parts) tree' ∧ tree.Free place parts := by
  induction parts generalizing tree place with
  | nil =>
    obtain ⟨rfl, rfl⟩ := Prod.mk.inj (Option.some.inj h)
    refine ⟨by simp, by simpa using Made.refl hplace, fun s hs habove => ?_⟩
    exact absurd (List.prefix_nil.mp habove) hs
  | cons part parts ih =>
    rw [List.mem_cons, not_or] at hnames
    rw [List.foldlM_cons, Option.bind_eq_bind, Option.bind_eq_some_iff] at h
    obtain ⟨⟨between, next⟩, hstep, hrest⟩ := h
    obtain ⟨henter, hmake⟩ := makeEntered?_eq_some.mp hstep
    rw [enter_name _ _ (Ne.symm hnames.1), Option.some.injEq] at henter
    subst henter
    have hmade := made_of_makeDirectory? hmake
    have hnext := (hmade.isDirectory _).mpr (.inr (List.prefix_refl _))
    obtain ⟨hq, hmade', hfree⟩ := ih hnext hnames.2 hrest
    rw [← List.append_cons] at hq hmade'
    refine ⟨hq, hmade.trans hmade' ?_, free_cons.mpr ⟨?_, fun s hs habove => ?_⟩⟩
    · exact ⟨parts, by simp⟩
    · exact makeDirectory?_eq_some_iff.mp ⟨_, hmake⟩
    · rw [← hmade.isFile_eq]
      exact hfree s hs habove

/-- The directories along names can be made if no file is in the way. -/
theorem exists_foldlM_makeEntered? (hnames : "..".toList ∉ parts) (hfree : tree.Free place parts) :
    ∃ reached, parts.foldlM makeEntered? (tree, place) = some reached := by
  induction parts generalizing tree place with
  | nil => exact ⟨(tree, place), rfl⟩
  | cons part parts ih =>
    rw [List.mem_cons, not_or] at hnames
    obtain ⟨hfirst, hrest⟩ := free_cons.mp hfree
    obtain ⟨between, hmake⟩ := makeDirectory?_eq_some_iff.mpr hfirst
    have hmade := made_of_makeDirectory? hmake
    have hfree' : between.Free (place ++ [part]) parts := by
      intro s hs habove
      rw [hmade.isFile_eq]
      exact hrest s hs habove
    obtain ⟨reached, hreached⟩ := ih hnames.2 hfree'
    refine ⟨reached, ?_⟩
    rw [List.foldlM_cons,
      makeEntered?_eq_some.mpr ⟨enter_name tree place (Ne.symm hnames.1), hmake⟩]
    exact hreached

/-! ## Well-formed trees -/

/-- What leads on from a directory is a directory. -/
theorem reached_of_enter (h : tree.isDirectory place = true)
    (henter : tree.enter place part = some q) : tree.Reached q := by
  by_cases hpart : part = "..".toList
  · rw [hpart] at henter
    unfold enter at henter
    rw [if_neg (by decide)] at henter
    split at henter
    · simp at henter
    · rw [← Option.some.inj henter]
      exact reached_of_isDirectory (isDirectory_above h place.dropLast_prefix)
  · rw [enter_name _ _ hpart] at henter
    rw [← Option.some.inj henter]
    exact reached_append h part

/-- Making a directory leaves a tree well-formed. -/
theorem WellFormed.makeDirectory? (h : tree.WellFormed) (hreached : tree.Reached place)
    (hmake : tree.makeDirectory? place = some tree') : tree'.WellFormed := by
  have hmade := made_of_makeDirectory? hmake
  have hnofile := makeDirectory?_eq_some_iff.mp ⟨tree', hmake⟩
  refine ⟨by rw [hmade.files]; exact h.nodup, fun file hfile => ?_⟩
  rw [hmade.files] at hfile
  have hfalse := h.apart file hfile
  rw [Bool.eq_false_iff, Ne, hmade.isDirectory, not_or]
  refine ⟨by simp [hfalse], fun habove => ?_⟩
  by_cases hne : file = place
  · rw [hne, ← isFile_iff] at hfile
    simp [hnofile] at hfile
  · simp [hreached file habove hne] at hfalse

/-- Making the directories along components leaves a tree well-formed. -/
theorem WellFormed.foldlM_makeEntered? (h : tree.WellFormed)
    (hplace : tree.isDirectory place = true)
    (hmake : parts.foldlM makeEntered? (tree, place) = some (tree', q)) : tree'.WellFormed := by
  induction parts generalizing tree place with
  | nil =>
    obtain ⟨rfl, -⟩ := Prod.mk.inj (Option.some.inj hmake)
    exact h
  | cons part parts ih =>
    rw [List.foldlM_cons, Option.bind_eq_bind, Option.bind_eq_some_iff] at hmake
    obtain ⟨⟨between, next⟩, hstep, hrest⟩ := hmake
    obtain ⟨henter, hmade⟩ := makeEntered?_eq_some.mp hstep
    have hnext :=
      ((made_of_makeDirectory? hmade).isDirectory next).mpr (.inr (List.prefix_refl next))
    exact ih (h.makeDirectory? (reached_of_enter hplace henter) hmade) hnext hrest

/-- Making the directories that a location leads through leaves a tree well-formed. -/
theorem WellFormed.makeDirectories? {l : Location} (h : tree.WellFormed)
    (hmake : tree.makeDirectories? l = some tree') : tree'.WellFormed := by
  unfold FileTree.makeDirectories? at hmake
  split at hmake
  · obtain ⟨⟨made, q⟩, hfold, rfl⟩ := Option.map_eq_some_iff.mp hmake
    exact h.foldlM_makeEntered? rfl hfold
  · simp at hmake

/-! ## Locations that lead to directories -/

/-- What a location leads to. -/
theorem resolve?_eq_some {l : Location} : tree.resolve? l = some place ↔
    l.root.isEmpty = true ∧ l.parts.foldlM tree.enter [] = some place := by
  unfold resolve?
  split <;> simp_all

/-- What a location leads to depends on the directories alone. -/
theorem resolve?_congr (h : ∀ q, tree'.isDirectory q = tree.isDirectory q) (l : Location) :
    tree'.resolve? l = tree.resolve? l := by
  have henter : tree'.enter = tree.enter := by
    funext place part
    unfold enter
    rw [h]
  unfold resolve?
  rw [henter]

/-- A location leads to a directory, through directories only. -/
structure Leads (tree : FileTree) (l : Location) (out : List Text) : Prop where
  root : l.root.isEmpty = true
  walks : tree.Walks [] l.parts out

/-- A location that was made leads to a directory, and what is made below it is made from there. -/
theorem leads_of_makeDirectories? {l : Location} (h : tree.makeDirectories? l = some tree') :
    ∃ out, tree'.Leads l out ∧ tree'.files = tree.files ∧
      ∀ names,
        tree.makeDirectories? (l.append names) = tree'.makeDirectories? (l.append names) := by
  unfold makeDirectories? at h
  split at h
  · rename_i hroot
    obtain ⟨⟨made, out⟩, hmake, rfl⟩ := Option.map_eq_some_iff.mp h
    obtain ⟨hwalks, hfiles, -⟩ := walks_of_makeEntered? hmake
    refine ⟨out, ⟨hroot, hwalks⟩, hfiles, fun names => ?_⟩
    unfold makeDirectories? Location.append
    rw [if_pos hroot, if_pos hroot, List.foldlM_append, hmake, hwalks.foldlM_makeEntered?_append]
    rfl
  · simp at h

/-- Where a location cannot be made, nothing below it can. -/
theorem makeDirectories?_append_eq_none {l : Location} (h : tree.makeDirectories? l = none)
    (names : List Text) : tree.makeDirectories? (l.append names) = none := by
  unfold makeDirectories? at h ⊢
  unfold Location.append
  split at h
  · rename_i hroot
    rw [if_pos hroot, List.foldlM_append, Option.map_eq_none_iff.mp h]
    rfl
  · rename_i hroot
    rw [if_neg hroot]

namespace Leads

variable {l : Location} {out names : List Text}

theorem isDirectory (h : tree.Leads l out) : tree.isDirectory out = true :=
  h.walks.isDirectory rfl

theorem makeDirectories?_append (h : tree.Leads l out) (names : List Text) :
    tree.makeDirectories? (l.append names)
      = (names.foldlM makeEntered? (tree, out)).map (·.1) := by
  unfold makeDirectories? Location.append
  rw [if_pos h.root, h.walks.foldlM_makeEntered?_append]

/-- Names lead down from there. -/
theorem resolve?_append (h : tree.Leads l out) (hnames : "..".toList ∉ names) :
    tree.resolve? (l.append names) = some (out ++ names) := by
  rw [resolve?_eq_some]
  refine ⟨h.root, ?_⟩
  unfold Location.append
  rw [h.walks.foldlM_enter_append, foldlM_enter_names _ _ hnames]

end Leads

end FileTree

/-! ## Storing in place -/

namespace SourceFile

open FileTree (Leads)

variable {tree tree' : FileTree} {file : SourceFile} {files : List SourceFile} {place : List Text}
  {bytes : Bytes}

/-- **A file is stored where it is** by putting its contents there. -/
theorem store?_inPlace (hwf : tree.WellFormed) (hplace : tree.resolve? file.path = some place)
    (hfile : tree.isFile place = true) (hbytes : file.contents = .bytes bytes) :
    file.store? tree none = some (tree.put place bytes) := by
  obtain ⟨hroot, hparts⟩ := FileTree.resolve?_eq_some.mp hplace
  have hne : file.path.parts ≠ [] := by
    intro hnil
    rw [hnil, List.foldlM_nil, Option.pure_def, Option.some.injEq] at hparts
    subst hparts
    exact absurd (hwf.isDirectory_eq_false hfile) (by simp [FileTree.isDirectory])
  -- the way to the file goes through directories, so that nothing is made
  have hmade : tree.makeDirectories? file.path.parent = some tree := by
    rw [← List.dropLast_concat_getLast hne] at hparts
    obtain ⟨out, hwalks⟩ :=
      FileTree.walks_of_foldlM_enter hwf (List.cons_ne_nil _ _) hparts (.inl hfile)
    have hleads : tree.Leads file.path.parent out := ⟨hroot, hwalks⟩
    have happend := hleads.makeDirectories?_append []
    rw [Location.append, List.append_nil] at happend
    exact happend
  unfold store? target
  dsimp only
  rw [hmade, hbytes]
  simp [hplace, FileTree.write?, hwf.isDirectory_eq_false hfile]

/-- **Storing a file leaves a tree well-formed.** -/
theorem wellFormed_store? {outDir : Option Location} (h : tree.WellFormed)
    (hstore : file.store? tree outDir = some tree') : tree'.WellFormed := by
  unfold store? at hstore
  dsimp only at hstore
  rw [Option.bind_eq_bind, Option.bind_eq_some_iff] at hstore
  obtain ⟨made, hmake, hwrite⟩ := hstore
  have hmade := h.makeDirectories? hmake
  split at hwrite
  · rename_i bytes _
    obtain ⟨place, hplace, hwrite⟩ := Option.bind_eq_some_iff.mp hwrite
    -- the target is one component below a location that was made
    have hreached : made.Reached place := by
      obtain ⟨out, hleads, -, -⟩ := FileTree.leads_of_makeDirectories? hmake
      obtain ⟨-, hparts⟩ := FileTree.resolve?_eq_some.mp hplace
      by_cases hnil : (file.target outDir).parts = []
      · rw [hnil, List.foldlM_nil, Option.pure_def, Option.some.injEq] at hparts
        rw [← hparts]
        exact FileTree.reached_of_isDirectory rfl
      · rw [← List.dropLast_concat_getLast hnil] at hparts
        have hway : made.Walks [] (file.target outDir).parts.dropLast out := hleads.walks
        rw [hway.foldlM_enter_append, List.foldlM_cons, Option.bind_eq_bind,
          Option.bind_eq_some_iff] at hparts
        obtain ⟨q, henter, hq⟩ := hparts
        rw [← Option.some.inj hq]
        exact FileTree.reached_of_enter hleads.isDirectory henter
    unfold FileTree.write? at hwrite
    split at hwrite
    · simp at hwrite
    · rename_i hdirectory
      rw [← Option.some.inj hwrite]
      exact hmade.put (Bool.eq_false_iff.mpr hdirectory) hreached bytes
  · rwa [← Option.some.inj hwrite]

/-- Storing files one after the other. -/
def storeAll? (tree : FileTree) (files : List SourceFile) (outDir : Option Location) :
    Option FileTree :=
  files.foldlM (fun tree file => file.store? tree outDir) tree

theorem storeAll?_cons (tree : FileTree) (file : SourceFile) (files : List SourceFile)
    (outDir : Option Location) :
    storeAll? tree (file :: files) outDir
      = (file.store? tree outDir).bind (storeAll? · files outDir) := rfl

/-- **Files that are there can be stored.**  If their places tell what they hold, the places hold
that afterwards, and no other place changes. -/
theorem exists_storeAll?_inPlace (hwf : tree.WellFormed) (new : List Text → Bytes)
    (hfiles : ∀ file ∈ files, ∃ place, tree.resolve? file.path = some place ∧
      tree.isFile place = true ∧ file.contents = .bytes (new place)) :
    ∃ tree', storeAll? tree files none = some tree' ∧
      (∀ q, tree'.isDirectory q = tree.isDirectory q) ∧
      (∀ file ∈ files, ∀ q, tree.resolve? file.path = some q → tree'.read? q = some (new q)) ∧
      ∀ q, (∀ file ∈ files, tree.resolve? file.path ≠ some q) → tree'.read? q = tree.read? q := by
  induction files generalizing tree with
  | nil => exact ⟨tree, rfl, fun _ => rfl, by simp, fun _ _ => rfl⟩
  | cons file files ih =>
    obtain ⟨⟨place, hplace, hfile, hbytes⟩, hrest⟩ := List.forall_mem_cons.mp hfiles
    have hdirectory := FileTree.isDirectory_put_of_isFile hfile (new place)
    have hresolve := FileTree.resolve?_congr hdirectory
    have hwf' := hwf.put (hwf.isDirectory_eq_false hfile) (FileTree.reached_of_isFile hfile)
      (new place)
    obtain ⟨tree', hstore, hdirectories, hnew, hkept⟩ :=
      ih hwf' fun g hg => by
        obtain ⟨q, hq, hfileq, hbytesq⟩ := hrest g hg
        exact ⟨q, by rw [hresolve, hq], (FileTree.isFile_put ..).mpr (.inr hfileq), hbytesq⟩
    refine ⟨tree', ?_, fun q => (hdirectories q).trans (hdirectory q), ?_, fun q hq => ?_⟩
    · rw [storeAll?_cons, store?_inPlace hwf hplace hfile hbytes]
      exact hstore
    · -- a later file may be at the same place, and then holds the same
      have hlast : tree'.read? place = some (new place) := by
        by_cases hlater : ∃ g ∈ files, tree.resolve? g.path = some place
        · obtain ⟨g, hg, hgplace⟩ := hlater
          exact hnew g hg place (by rw [hresolve, hgplace])
        · rw [hkept place fun g hg hgplace => hlater ⟨g, hg, by rw [← hresolve, hgplace]⟩,
            FileTree.read?_put, if_pos rfl]
      intro g hg q hq
      rcases List.mem_cons.mp hg with rfl | hg
      · rw [hplace, Option.some.injEq] at hq
        rwa [← hq]
      · exact hnew g hg q (by rw [hresolve, hq])
    · obtain ⟨hfirst, hothers⟩ := List.forall_mem_cons.mp hq
      rw [hkept q fun g hg => by rw [hresolve]; exact hothers g hg, FileTree.read?_put, if_neg]
      rintro rfl
      exact hfirst hplace

/-! ## Storing under a directory -/

/-- A file that can be written under a directory: it holds bytes, and its relative location consists
of names. -/
structure Ready (file : SourceFile) : Prop where
  named : file.relativeParts ≠ []
  plain : "..".toList ∉ file.relativeParts
  held : ∃ bytes, file.contents = .bytes bytes

theorem Ready.plain_dropLast (h : file.Ready) : "..".toList ∉ file.relativeParts.dropLast :=
  fun hmem => h.plain (file.relativeParts.dropLast_prefix.subset hmem)

theorem Ready.append_ne_nil (h : file.Ready) (out : List Text) : out ++ file.relativeParts ≠ [] :=
  List.append_ne_nil_of_right_ne_nil out h.named

/-- The directory that a file is written to. -/
theorem Ready.parent_target (h : file.Ready) (outDir : Location) :
    (file.target (some outDir)).parent = outDir.append file.relativeParts.dropLast := by
  unfold target Location.append Location.parent
  rw [List.dropLast_append_of_ne_nil h.named]

/-- Nothing is in the way of a file under a directory: no file where directories are needed, and no
directory where the file is to be. -/
structure Clear (tree : FileTree) (out names : List Text) : Prop where
  free : tree.Free out names.dropLast
  noDirectory : tree.isDirectory (out ++ names) = false

/-- A tree with contents at a place and the directories above it, and else as it was. -/
structure Stored (tree : FileTree) (place : List Text) (bytes : Bytes) (tree' : FileTree) :
    Prop where
  read?_eq : ∀ q, tree'.read? q = if q = place then some bytes else tree.read? q
  isDirectory : ∀ q, tree'.isDirectory q = true ↔
    tree.isDirectory q = true ∨ q <+: place ∧ q ≠ place

theorem Stored.isFile (h : Stored tree place bytes tree') (q : List Text) :
    tree'.isFile q = true ↔ q = place ∨ tree.isFile q = true := by
  unfold FileTree.isFile
  rw [h.read?_eq]
  split <;> simp_all

/-- What leads to a place, without the place itself. -/
theorem prefix_dropLast_iff {s names : List Text} (h : names ≠ []) :
    s <+: names.dropLast ↔ s <+: names ∧ s ≠ names := by
  obtain ⟨last, hlast⟩ : ∃ last, names = names.dropLast ++ [last] :=
    ⟨_, (List.dropLast_concat_getLast h).symm⟩
  constructor
  · intro hs
    refine ⟨hs.trans names.dropLast_prefix, ?_⟩
    rintro rfl
    have := hs.length_le
    rw [List.length_dropLast] at this
    have := List.length_pos_iff.mpr h
    omega
  · rintro ⟨hs, hne⟩
    rw [hlast, List.prefix_concat_iff, ← hlast] at hs
    exact hs.resolve_left hne

variable {outDir : Location} {out : List Text}

/-- Storing below a location that leads to a directory, in two steps. -/
theorem store?_eq (hleads : tree.Leads outDir out) (hready : file.Ready)
    (hbytes : file.contents = .bytes bytes) :
    file.store? tree (some outDir)
      = (file.relativeParts.dropLast.foldlM FileTree.makeEntered? (tree, out)).bind fun reached =>
          (reached.1.resolve? (outDir.append file.relativeParts)).bind
            (reached.1.write? · bytes) := by
  unfold store?
  dsimp only
  rw [hready.parent_target, hleads.makeDirectories?_append, hbytes, Option.bind_eq_bind,
    Option.bind_map]
  rfl

/-- A way to a directory stays one when directories are added and no file takes the place of one. -/
theorem leads_mono (hleads : tree.Leads outDir out)
    (hdirectory : ∀ q, tree.isDirectory q = true → tree'.isDirectory q = true)
    (hfile : ∀ q, tree.isDirectory q = true → tree.isFile q = false → tree'.isFile q = false) :
    tree'.Leads outDir out :=
  ⟨hleads.root, hleads.walks.mono hdirectory hfile⟩

/-- When the directories for a file are made, its place is where it was to be, and is no directory
unless it was one. -/
theorem made_of_ready (hleads : tree.Leads outDir out) (hready : file.Ready)
    {reached : FileTree × List Text}
    (h : file.relativeParts.dropLast.foldlM FileTree.makeEntered? (tree, out) = some reached) :
    tree.Made (out ++ file.relativeParts).dropLast reached.1 ∧
      tree.Free out file.relativeParts.dropLast ∧
      reached.1.resolve? (outDir.append file.relativeParts) = some (out ++ file.relativeParts) ∧
      reached.1.isDirectory (out ++ file.relativeParts)
        = tree.isDirectory (out ++ file.relativeParts) := by
  obtain ⟨-, hmade, hfree⟩ :=
    FileTree.made_of_foldlM_makeEntered? hleads.isDirectory hready.plain_dropLast h
  rw [← List.dropLast_append_of_ne_nil hready.named] at hmade
  have hreached : reached.1.Leads outDir out :=
    leads_mono hleads (fun q hq => (hmade.isDirectory q).mpr (.inl hq)) fun q _ hq => by
      rw [hmade.isFile_eq, hq]
  refine ⟨hmade, hfree, hreached.resolve?_append hready.plain, ?_⟩
  rw [Bool.eq_iff_iff, hmade.isDirectory]
  refine ⟨fun hq => hq.resolve_right fun habove => ?_, .inl⟩
  exact ((prefix_dropLast_iff (hready.append_ne_nil out)).mp habove).2 rfl

/-- **What storing under a directory takes and changes.** -/
theorem stored_of_store? (hleads : tree.Leads outDir out) (hready : file.Ready)
    (hbytes : file.contents = .bytes bytes) (h : file.store? tree (some outDir) = some tree') :
    Clear tree out file.relativeParts ∧ Stored tree (out ++ file.relativeParts) bytes tree' ∧
      tree'.Leads outDir out := by
  rw [store?_eq hleads hready hbytes, Option.bind_eq_some_iff] at h
  obtain ⟨reached, hmake, hwrite⟩ := h
  obtain ⟨hmade, hfree, hresolve, hsame⟩ := made_of_ready hleads hready hmake
  rw [hresolve, Option.bind_some, FileTree.write?, hsame] at hwrite
  cases hplace : tree.isDirectory (out ++ file.relativeParts) with
  | true => simp [hplace] at hwrite
  | false =>
    rw [hplace, if_neg Bool.false_ne_true, Option.some.injEq] at hwrite
    subst hwrite
    have hstored : Stored tree (out ++ file.relativeParts) bytes
        (reached.1.put (out ++ file.relativeParts) bytes) := by
      refine ⟨fun q => by rw [FileTree.read?_put, hmade.read?_eq], fun q => ?_⟩
      rw [FileTree.isDirectory_put, hmade.isDirectory,
        prefix_dropLast_iff (hready.append_ne_nil out), or_assoc, ne_comm, or_self]
    refine ⟨⟨hfree, hplace⟩, hstored, leads_mono hleads
      (fun q hq => (hstored.isDirectory q).mpr (.inl hq)) fun q hq hnofile => ?_⟩
    rw [Bool.eq_false_iff]
    intro hfile
    rcases (hstored.isFile q).mp hfile with rfl | hfile
    · simp [hplace] at hq
    · simp [hnofile] at hfile

/-- A file can be stored where nothing is in the way. -/
theorem exists_store?_of_clear (hleads : tree.Leads outDir out) (hready : file.Ready)
    (hclear : Clear tree out file.relativeParts) :
    ∃ tree', file.store? tree (some outDir) = some tree' := by
  obtain ⟨bytes, hbytes⟩ := hready.held
  obtain ⟨reached, hmake⟩ := FileTree.exists_foldlM_makeEntered? hready.plain_dropLast hclear.free
  obtain ⟨-, -, hresolve, hsame⟩ := made_of_ready hleads hready hmake
  refine ⟨reached.1.put (out ++ file.relativeParts) bytes, ?_⟩
  rw [store?_eq hleads hready hbytes, hmake, Option.bind_some, hresolve, Option.bind_some,
    FileTree.write?, hsame, hclear.noDirectory, if_neg Bool.false_ne_true]

/-! ## Several files under a directory -/

/-- Neither of two relative locations leads through the other. -/
def Apart (names others : List Text) : Prop :=
  (names <+: others → names = others) ∧ (others <+: names → others = names)

/-- What a stored file puts in the way of others. -/
theorem clear_of_stored {names others : List Text} (hnames : names ≠ []) (hothers : others ≠ [])
    (h : Stored tree (out ++ names) bytes tree') :
    Clear tree' out others ↔ Clear tree out others ∧ Apart names others := by
  -- a stored file stands in the way of paths that lead through it,
  -- its directories in the way of files at their own paths
  have hfree : tree'.Free out others.dropLast ↔
      tree.Free out others.dropLast ∧ (names <+: others → names = others) := by
    constructor
    · intro hfree
      refine ⟨fun s hs habove => ?_, fun habove => ?_⟩
      · have hnofile := hfree s hs habove
        rw [Bool.eq_false_iff, Ne, h.isFile, not_or] at hnofile
        exact Bool.eq_false_iff.mpr hnofile.2
      · refine Decidable.byContradiction fun hne => ?_
        have hnofile := hfree names hnames ((prefix_dropLast_iff hothers).mpr ⟨habove, hne⟩)
        rw [Bool.eq_false_iff, Ne, h.isFile] at hnofile
        exact hnofile (.inl rfl)
    · rintro ⟨hfree, hapart⟩ s hs habove
      rw [Bool.eq_false_iff, Ne, h.isFile, not_or, ← Ne, ← Ne, ← Bool.eq_false_iff]
      refine ⟨fun heq => ?_, hfree s hs habove⟩
      rw [List.append_cancel_left heq] at habove
      obtain ⟨habove, hne⟩ := (prefix_dropLast_iff hothers).mp habove
      exact hne (hapart habove)
  have hnoDirectory : tree'.isDirectory (out ++ others) = false ↔
      tree.isDirectory (out ++ others) = false ∧ (others <+: names → others = names) := by
    rw [Bool.eq_false_iff, Ne, h.isDirectory, not_or, ← Ne, ← Bool.eq_false_iff,
      List.prefix_append_right_inj, not_and]
    refine and_congr_right fun _ => forall_congr' fun _ => ?_
    rw [Decidable.not_not, List.append_right_inj]
  constructor
  · rintro ⟨hf, hd⟩
    exact ⟨⟨(hfree.mp hf).1, (hnoDirectory.mp hd).1⟩, (hfree.mp hf).2, (hnoDirectory.mp hd).2⟩
  · rintro ⟨⟨hf, hd⟩, hthrough, hback⟩
    exact ⟨hfree.mpr ⟨hf, hthrough⟩, hnoDirectory.mpr ⟨hd, hback⟩⟩

/-- **When several files can be stored**: nothing may be in the way of each, nor may one be in the
way of another. -/
theorem exists_storeAll?_iff (hleads : tree.Leads outDir out)
    (hready : ∀ file ∈ files, file.Ready) :
    (∃ tree', storeAll? tree files (some outDir) = some tree') ↔
      (∀ file ∈ files, Clear tree out file.relativeParts) ∧
        files.Pairwise fun f g => Apart f.relativeParts g.relativeParts := by
  induction files generalizing tree with
  | nil => simp [storeAll?]
  | cons file files ih =>
    obtain ⟨hfile, hfiles⟩ := List.forall_mem_cons.mp hready
    obtain ⟨bytes, hbytes⟩ := hfile.held
    rw [List.forall_mem_cons, List.pairwise_cons]
    simp only [storeAll?_cons, Option.bind_eq_some_iff]
    constructor
    · rintro ⟨tree', between, hstore, hrest⟩
      obtain ⟨hclear, hstored, hleads'⟩ := stored_of_store? hleads hfile hbytes hstore
      obtain ⟨hclears, hapart⟩ := (ih hleads' hfiles).mp ⟨tree', hrest⟩
      have hboth := fun g hg =>
        (clear_of_stored hfile.named (hfiles g hg).named hstored).mp (hclears g hg)
      exact ⟨⟨hclear, fun g hg => (hboth g hg).1⟩, fun g hg => (hboth g hg).2, hapart⟩
    · rintro ⟨⟨hclear, hclears⟩, hfirst, hapart⟩
      obtain ⟨between, hstore⟩ := exists_store?_of_clear hleads hfile hclear
      obtain ⟨-, hstored, hleads'⟩ := stored_of_store? hleads hfile hbytes hstore
      have hboth := fun g hg => (clear_of_stored hfile.named (hfiles g hg).named hstored).mpr
        ⟨hclears g hg, hfirst g hg⟩
      obtain ⟨tree', hrest⟩ := (ih hleads' hfiles).mpr ⟨hboth, hapart⟩
      exact ⟨tree', between, hstore, hrest⟩

/-- **A place holds what was stored there last**, and other places hold what they held. -/
theorem read?_storeAll? (hleads : tree.Leads outDir out) (hready : ∀ file ∈ files, file.Ready)
    (h : storeAll? tree files (some outDir) = some tree') :
    tree'.Leads outDir out ∧
      (∀ before file after, files = before ++ file :: after →
        (∀ g ∈ after, g.relativeParts ≠ file.relativeParts) →
        ∀ bytes, file.contents = .bytes bytes →
          tree'.read? (out ++ file.relativeParts) = some bytes) ∧
      ∀ q, (∀ file ∈ files, out ++ file.relativeParts ≠ q) → tree'.read? q = tree.read? q := by
  induction files generalizing tree with
  | nil =>
    obtain rfl := Option.some.inj h
    exact ⟨hleads, by simp, fun _ _ => rfl⟩
  | cons file files ih =>
    obtain ⟨hfile, hfiles⟩ := List.forall_mem_cons.mp hready
    obtain ⟨bytes, hbytes⟩ := hfile.held
    rw [storeAll?_cons, Option.bind_eq_some_iff] at h
    obtain ⟨between, hstore, hrest⟩ := h
    obtain ⟨-, hstored, hleads'⟩ := stored_of_store? hleads hfile hbytes hstore
    obtain ⟨hafter, hlast, hkept⟩ := ih hleads' hfiles hrest
    refine ⟨hafter, ?_, fun q hq => ?_⟩
    · intro before g after hsplit hnames bytes' hbytes'
      cases before with
      | nil =>
        -- nothing behind the first file touches its place
        obtain ⟨rfl, rfl⟩ := List.cons.inj hsplit
        rw [hkept _ fun g hg heq => hnames g hg (List.append_cancel_left heq), hstored.read?_eq,
          if_pos rfl, ← Contents.bytes.inj (hbytes.symm.trans hbytes')]
      | cons f before =>
        exact hlast before g after (List.cons.inj hsplit).2 hnames bytes' hbytes'
    · obtain ⟨hfirst, hothers⟩ := List.forall_mem_cons.mp hq
      rw [hkept q hothers, hstored.read?_eq, if_neg (Ne.symm hfirst)]

/-- A file can be stored by itself where nothing is in the way. -/
theorem exists_store?_iff (hleads : tree.Leads outDir out) (hready : file.Ready) :
    (∃ tree', file.store? tree (some outDir) = some tree') ↔ Clear tree out file.relativeParts := by
  obtain ⟨bytes, hbytes⟩ := hready.held
  exact ⟨fun ⟨_, h⟩ => (stored_of_store? hleads hready hbytes h).1,
    exists_store?_of_clear hleads hready⟩

/-- What is stored under a location is stored in the tree where that location is made. -/
theorem store?_eq_of_made {made : FileTree}
    (h : ∀ names, tree.makeDirectories? (outDir.append names)
      = made.makeDirectories? (outDir.append names))
    (hready : file.Ready) :
    file.store? tree (some outDir) = file.store? made (some outDir) := by
  unfold store?
  dsimp only
  rw [hready.parent_target, h]

/-- Where the location cannot be made, nothing can be stored under it. -/
theorem store?_eq_none (h : tree.makeDirectories? outDir = none) (hready : file.Ready) :
    file.store? tree (some outDir) = none := by
  unfold store?
  dsimp only
  rw [hready.parent_target, FileTree.makeDirectories?_append_eq_none h]
  rfl

/-- **Files under a directory.**  They can be stored if each of them can and no relative location
leads through another one.  Each target then holds what was stored last under its relative location,
and nothing else changes. -/
theorem storeAll?_under (hready : ∀ file ∈ files, file.Ready) (tree : FileTree)
    (outDir : Location) :
    ((∃ tree', storeAll? tree files (some outDir) = some tree') ↔
      (∀ file ∈ files, ∃ tree', file.store? tree (some outDir) = some tree') ∧
        files.Pairwise fun f g => Apart f.relativeParts g.relativeParts) ∧
    ∀ tree', storeAll? tree files (some outDir) = some tree' →
      (∀ before file after, files = before ++ file :: after →
        (∀ g ∈ after, g.relativeParts ≠ file.relativeParts) →
        ∃ place, tree'.resolve? (file.target (some outDir)) = some place ∧
          ∀ bytes, file.contents = .bytes bytes → tree'.read? place = some bytes) ∧
      ∀ q, (∀ file ∈ files, tree'.resolve? (file.target (some outDir)) ≠ some q) →
        tree'.read? q = tree.read? q := by
  cases files with
  | nil =>
    refine ⟨by simp [storeAll?], fun tree' h => ?_⟩
    rw [← Option.some.inj h]
    exact ⟨by simp, fun _ _ => rfl⟩
  | cons file files =>
    -- making the directory beforehand changes nothing, since storing the first file makes it
    cases hmake : tree.makeDirectories? outDir with
    | none =>
      have hnone : file.store? tree (some outDir) = none :=
        store?_eq_none hmake (hready file List.mem_cons_self)
      simp [storeAll?_cons, hnone]
    | some made =>
      obtain ⟨out, hleads, hfiles, hsame⟩ := FileTree.leads_of_makeDirectories? hmake
      have hstore : ∀ g ∈ file :: files,
          g.store? tree (some outDir) = g.store? made (some outDir) :=
        fun g hg => store?_eq_of_made hsame (hready g hg)
      have hall : storeAll? tree (file :: files) (some outDir)
          = storeAll? made (file :: files) (some outDir) := by
        rw [storeAll?_cons, storeAll?_cons, hstore file List.mem_cons_self]
      rw [hall]
      constructor
      · rw [exists_storeAll?_iff hleads hready]
        refine and_congr_left fun _ => forall_congr' fun g => forall_congr' fun hg => ?_
        rw [hstore g hg, exists_store?_iff hleads (hready g hg)]
      · intro tree' h
        obtain ⟨hafter, hlast, hkept⟩ := read?_storeAll? hleads hready h
        have hplace : ∀ g ∈ file :: files,
            tree'.resolve? (g.target (some outDir)) = some (out ++ g.relativeParts) :=
          fun g hg => hafter.resolve?_append (hready g hg).plain
        refine ⟨fun before g after hsplit hnames => ?_, fun q hq => ?_⟩
        · have hg : g ∈ file :: files := by simp [hsplit]
          exact ⟨_, hplace g hg, hlast before g after hsplit hnames⟩
        · rw [hkept q fun g hg heq => hq g hg (heq ▸ hplace g hg)]
          unfold FileTree.read?
          rw [hfiles]

end SourceFile

end DataBinding
