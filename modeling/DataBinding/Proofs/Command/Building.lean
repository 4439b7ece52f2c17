/-
# What a build does

A build takes the processed files one by one: it reports on those that failed and stores those that
are to be written.  The key facts are

* `take_of_written`, `take_of_not_written` : one processed file;
* `takeAll_of_storeAll?`                   : all of them, where everything can be stored;
* `build_of_storeAll?`, `exitCode_build`   : the outcome of a build, and when it succeeds;
* `wellFormed_run`                         : a run leaves a tree well-formed.
-/
import Mathlib
import DataBinding.Command.Run
import DataBinding.Proofs.Files.Loading

namespace DataBinding

/-! ## Processed files -/

namespace ProcessedFile

/-- The number of functions that were generated for a file. -/
def generated (p : ProcessedFile) : Nat :=
  (p.result?.map (·.functions.length)).getD 0

theorem ok_of_changed {p : ProcessedFile} (h : p.changed = true) : p.ok = true := by
  unfold changed result? at h
  unfold ok fault?
  cases houtcome : p.outcome with
  | ok result => rfl
  | error fault => simp [houtcome] at h

end ProcessedFile

namespace SourceFile

/-- Processing a file changes its contents alone. -/
theorem file_process (options : Options) (file : SourceFile) :
    (file.process options).1.file
      = { file with contents := (file.process options).1.file.contents } := by
  unfold process failed
  split
  · rfl
  · rfl
  · split <;> rfl

/-- Files that were processed have the targets of the files that were loaded. -/
theorem target_process (options : Options) (file : SourceFile) (outDir : Option Location) :
    (file.process options).1.file.target outDir = file.target outDir := by
  rw [file_process]
  cases outDir <;> rfl

end SourceFile

namespace Command

variable {outDir : Option Location} {p : ProcessedFile} {processed : List ProcessedFile}
  {progress : Progress} {tree' : FileTree}

/-! ## One file -/

/-- The lines about a processed file: on its fault, or a note if it changed. -/
def reportLines (note : ProcessedFile → String) (p : ProcessedFile) : List String :=
  match p.fault? with
  | some fault => faultLines p.file.path fault
  | none => if p.changed then [note p] else []

/-- The note on a file that changed and was written. -/
def writtenNote (outDir : Option Location) (p : ProcessedFile) : String :=
  s!"   ✏️  {shown (p.file.target outDir)}"

/-- A build writes the file: it did not fail, and in place, it changed. -/
def isWritten (outDir : Option Location) (p : ProcessedFile) : Bool :=
  p.ok && (outDir.isSome || p.changed)

/-- The progress behind a file whose result left the given tree. -/
def Progress.behind (progress : Progress) (outDir : Option Location) (p : ProcessedFile)
    (tree : FileTree) : Progress :=
  ⟨tree, progress.lines ++ reportLines (writtenNote outDir) p,
    progress.failed + if p.ok then 0 else 1, progress.functions + p.generated⟩

/-- A file that is not written leaves the tree. -/
theorem take_of_not_written (h : isWritten outDir p = false) (progress : Progress) :
    progress.take outDir p = .ok (progress.behind outDir p progress.tree) := by
  obtain ⟨file, outcome⟩ := p
  cases outcome with
  | error fault => rfl
  | ok result =>
    simp only [isWritten, ProcessedFile.ok, ProcessedFile.fault?, Option.isNone_none, Bool.true_and,
      Bool.or_eq_false_iff, Option.isSome_eq_false_iff] at h
    obtain ⟨hout, hchanged⟩ := h
    have hskip : (outDir.isNone && !(ProcessedFile.changed ⟨file, .ok result⟩)) = true := by
      rw [hout, hchanged]
      rfl
    unfold Progress.take Progress.write
    dsimp only
    rw [hskip, if_pos rfl]
    simp [Progress.behind, reportLines, ProcessedFile.ok, ProcessedFile.fault?, hchanged,
      ProcessedFile.generated, ProcessedFile.result?]

/-- A file that is written leaves the tree with the file stored, if that can be done. -/
theorem take_of_written (h : isWritten outDir p = true) (progress : Progress) :
    progress.take outDir p =
      match p.file.store? progress.tree outDir with
      | some tree => .ok (progress.behind outDir p tree)
      | none => .error { progress with functions := progress.functions + p.generated } := by
  obtain ⟨file, outcome⟩ := p
  cases outcome with
  | error fault => simp [isWritten, ProcessedFile.ok, ProcessedFile.fault?] at h
  | ok result =>
    have hskip : (outDir.isNone && !(ProcessedFile.changed ⟨file, .ok result⟩)) = false := by
      simp only [isWritten, ProcessedFile.ok, ProcessedFile.fault?, Option.isNone_none,
        Bool.true_and] at h
      cases outDir <;> simp_all
    unfold Progress.take Progress.write
    dsimp only
    rw [hskip, if_neg Bool.false_ne_true]
    cases file.store? progress.tree outDir with
    | none => rfl
    | some tree =>
      dsimp only
      unfold Progress.behind reportLines
      simp only [ProcessedFile.ok, ProcessedFile.fault?]
      split <;> simp [*, ProcessedFile.generated, ProcessedFile.result?, writtenNote]

/-! ## All files -/

/-- The files that a build writes, in order. -/
def writtenFiles (outDir : Option Location) (processed : List ProcessedFile) : List SourceFile :=
  (processed.filter (isWritten outDir)).map (·.file)

theorem writtenFiles_cons (outDir : Option Location) (p : ProcessedFile)
    (processed : List ProcessedFile) :
    writtenFiles outDir (p :: processed) =
      if isWritten outDir p then p.file :: writtenFiles outDir processed
      else writtenFiles outDir processed := by
  unfold writtenFiles
  rw [List.filter_cons]
  split <;> rfl

/-- The files that failed. -/
def failures (processed : List ProcessedFile) : List ProcessedFile :=
  processed.filter (!·.ok)

/-- **All files are taken** where those to be written can be stored. -/
theorem takeAll_of_storeAll? (progress : Progress)
    (h : SourceFile.storeAll? progress.tree (writtenFiles outDir processed) outDir = some tree') :
    processed.foldlM (·.take outDir ·) progress =
      .ok ⟨tree', progress.lines ++ processed.flatMap (reportLines (writtenNote outDir)),
        progress.failed + (failures processed).length,
        progress.functions + (processed.map (·.generated)).sum⟩ := by
  induction processed generalizing progress with
  | nil =>
    obtain rfl := Option.some.inj h
    simp [failures]
    rfl
  | cons p processed ih =>
    -- the files that follow add to the lines and the counts that were reached
    have hlater : ∀ tree,
        SourceFile.storeAll? tree (writtenFiles outDir processed) outDir = some tree' →
        processed.foldlM (·.take outDir ·) (progress.behind outDir p tree) =
          .ok ⟨tree', progress.lines ++ (p :: processed).flatMap (reportLines (writtenNote outDir)),
            progress.failed + (failures (p :: processed)).length,
            progress.functions + ((p :: processed).map (·.generated)).sum⟩ := by
      intro tree htree
      rw [ih (progress.behind outDir p tree) htree]
      simp only [Progress.behind, failures, List.flatMap_cons, List.append_assoc, List.map_cons,
        List.sum_cons, Nat.add_assoc, List.filter_cons]
      cases p.ok <;> simp [Nat.add_comm]
    rw [writtenFiles_cons] at h
    rw [List.foldlM_cons]
    cases hwritten : isWritten outDir p with
    | false =>
      rw [hwritten, if_neg Bool.false_ne_true] at h
      rw [take_of_not_written hwritten]
      exact hlater _ h
    | true =>
      rw [hwritten, if_pos rfl, SourceFile.storeAll?_cons, Option.bind_eq_some_iff] at h
      obtain ⟨between, hstore, hrest⟩ := h
      rw [take_of_written hwritten, hstore]
      exact hlater between hrest

/-- A file that cannot be stored stops a build. -/
theorem takeAll_of_storeAll?_eq_none (progress : Progress)
    (h : SourceFile.storeAll? progress.tree (writtenFiles outDir processed) outDir = none) :
    ∃ stuck, processed.foldlM (·.take outDir ·) progress = .error stuck := by
  induction processed generalizing progress with
  | nil => simp [writtenFiles, SourceFile.storeAll?] at h
  | cons p processed ih =>
    rw [writtenFiles_cons] at h
    rw [List.foldlM_cons]
    cases hwritten : isWritten outDir p with
    | false =>
      rw [hwritten, if_neg Bool.false_ne_true] at h
      rw [take_of_not_written hwritten]
      exact ih (progress.behind outDir p progress.tree) h
    | true =>
      rw [hwritten, if_pos rfl, SourceFile.storeAll?_cons] at h
      rw [take_of_written hwritten]
      cases hstore : p.file.store? progress.tree outDir with
      | none => exact ⟨_, rfl⟩
      | some between =>
        rw [hstore, Option.bind_some] at h
        exact ih (progress.behind outDir p between) h

/-! ## Outcomes -/

/-- The files of a request, processed. -/
def Request.process (request : Request) (files : List SourceFile) : List ProcessedFile :=
  files.map fun file => (file.process request.options).1

theorem processAll_eq (request : Request) (files : List SourceFile) :
    (SourceFile.processAll request.options files).1 = request.process files := by
  simp [SourceFile.processAll, Request.process, Function.comp_def]

/-- Nothing failed if every file was processed. -/
theorem failures_eq_nil_iff (request : Request) (files : List SourceFile) :
    failures (request.process files) = [] ↔
      ∀ file ∈ files, (file.process request.options).1.ok = true := by
  simp [failures, Request.process, List.filter_eq_nil_iff]

variable {request : Request} {files : List SourceFile} {tree : FileTree}

/-- **The outcome of a build** whose files can be stored. -/
theorem build_of_storeAll?
    (h : SourceFile.storeAll? tree (writtenFiles request.target? (request.process files))
      request.target? = some tree') :
    ∃ summary, build request files tree =
      ⟨if failures (request.process files) = [] then 0 else 1,
        some (s!"🔨 Transforming {files.length} file(s)..." ::
          ((request.process files).flatMap (reportLines (writtenNote request.target?)) ++
            [summary])),
        tree'⟩ := by
  unfold build
  dsimp only
  rw [processAll_eq, takeAll_of_storeAll? ⟨tree, _, 0, 0⟩ h]
  dsimp only
  rw [Nat.zero_add]
  cases failures (request.process files) with
  | nil => exact ⟨_, rfl⟩
  | cons failure others => exact ⟨_, rfl⟩

/-- A build whose files cannot be stored fails. -/
theorem exitCode_build_of_storeAll?_eq_none
    (h : SourceFile.storeAll? tree (writtenFiles request.target? (request.process files))
      request.target? = none) :
    (build request files tree).exitCode = 1 := by
  unfold build
  dsimp only
  rw [processAll_eq]
  obtain ⟨stuck, hstuck⟩ := takeAll_of_storeAll?_eq_none
    ⟨tree, [s!"🔨 Transforming {files.length} file(s)..."], 0, 0⟩ h
  rw [hstuck]

/-- **When a build succeeds**: everything to be written can be stored, and nothing failed. -/
theorem exitCode_build (request : Request) (files : List SourceFile) (tree : FileTree) :
    (build request files tree).exitCode = 0 ↔
      (∃ tree', SourceFile.storeAll? tree (writtenFiles request.target? (request.process files))
        request.target? = some tree') ∧
      ∀ file ∈ files, (file.process request.options).1.ok = true := by
  rw [← failures_eq_nil_iff]
  cases hstore : SourceFile.storeAll? tree (writtenFiles request.target? (request.process files))
      request.target? with
  | none => simp [exitCode_build_of_storeAll?_eq_none hstore]
  | some tree' =>
    obtain ⟨summary, hbuild⟩ := build_of_storeAll? hstore
    rw [hbuild]
    simp

/-! ## Runs -/

/-- What a request that fits does with the files that were loaded. -/
theorem run_of_fits {line : List Text} (hread : readLine line = some request)
    (hfits : request.fits tree = true)
    (hfiles : SourceFile.loadAll tree (request.sources.map Location.parse) = .ok files) :
    run tree line =
      match request.verb with
      | .build => build request files tree
      | .check => check request files tree := by
  unfold run Request.run
  rw [hread]
  dsimp only
  rw [if_pos hfits]
  exact hfiles ▸ rfl

/-- The sources of a request can be loaded if they are there. -/
theorem exists_loadAll_of_all (h : request.sources.all tree.namesEntry = true) :
    ∃ files, SourceFile.loadAll tree (request.sources.map Location.parse) = .ok files := by
  refine SourceFile.exists_loadAll fun path hpath => ?_
  obtain ⟨t, ht, rfl⟩ := List.mem_map.mp hpath
  exact SourceFile.exists_load? (List.all_eq_true.mp h t ht)

/-! ## Well-formed trees -/

/-- Taking a file leaves a tree well-formed, also where a build stops. -/
theorem wellFormed_take (h : progress.tree.WellFormed) {next : Progress}
    (htake : progress.take outDir p = .ok next ∨ progress.take outDir p = .error next) :
    next.tree.WellFormed := by
  cases hwritten : isWritten outDir p with
  | false =>
    rw [take_of_not_written hwritten] at htake
    rcases htake with htake | htake
    · rw [← Except.ok.inj htake]
      exact h
    · simp at htake
  | true =>
    rw [take_of_written hwritten] at htake
    cases hstore : p.file.store? progress.tree outDir with
    | none =>
      rw [hstore] at htake
      rcases htake with htake | htake
      · simp at htake
      · rw [← Except.error.inj htake]
        exact h
    | some between =>
      rw [hstore] at htake
      rcases htake with htake | htake
      · rw [← Except.ok.inj htake]
        exact SourceFile.wellFormed_store? h hstore
      · simp at htake

theorem wellFormed_takeAll (h : progress.tree.WellFormed) {last : Progress}
    (htake : processed.foldlM (·.take outDir ·) progress = .ok last ∨
      processed.foldlM (·.take outDir ·) progress = .error last) :
    last.tree.WellFormed := by
  induction processed generalizing progress with
  | nil =>
    rcases htake with htake | htake
    · rw [← Except.ok.inj htake]
      exact h
    · cases htake
  | cons p processed ih =>
    rw [List.foldlM_cons] at htake
    cases hfirst : progress.take outDir p with
    | ok next =>
      rw [hfirst] at htake
      exact ih (wellFormed_take h (.inl hfirst)) htake
    | error stuck =>
      rw [hfirst] at htake
      have hstuck := wellFormed_take h (.inr hfirst)
      rcases htake with htake | htake
      · cases htake
      · rwa [← Except.error.inj htake]

theorem wellFormed_build (h : tree.WellFormed) (request : Request) (files : List SourceFile) :
    (build request files tree).tree.WellFormed := by
  unfold build
  dsimp only
  split
  · rename_i stuck htake
    exact wellFormed_takeAll h (.inr htake)
  · rename_i done htake
    have hdone := wellFormed_takeAll h (.inl htake)
    split <;> exact hdone

/-- **A run leaves a well-formed tree well-formed**, whatever the command line is. -/
theorem wellFormed_run (h : tree.WellFormed) (line : List Text) :
    (run tree line).tree.WellFormed := by
  unfold run
  split
  · exact h
  · rename_i request _
    split
    · unfold Request.run
      split
      · exact h
      · cases request.verb with
        | build => exact wellFormed_build h _ _
        | check =>
          dsimp only
          unfold check
          dsimp only
          split <;> exact h
    · exact h

end Command

end DataBinding
