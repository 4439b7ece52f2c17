/-
# Building into another directory

Under an output directory, a file is written by its location relative to the source it was loaded
from.  Files of different sources may share that location, and the one that is written last stays.
The key facts are

* `exists_storeAll?_process` : processed files can be stored like the files that were loaded;
* `exitCode_outDirectory`    : when a build into a directory succeeds;
* `read?_outDirectory`       : what it leaves there.
-/
import DataBinding.Proofs.Command.Building
import DataBinding.Proofs.Files.Loading

namespace DataBinding

namespace SourceFile

variable {options : Options} {file g : SourceFile} {files : List SourceFile} {tree tree' : FileTree}

/-! ## Processed files under a directory -/

theorem relativeParts_process (options : Options) (file : SourceFile) :
    (file.process options).1.file.relativeParts = file.relativeParts := by
  rw [file_process]
  rfl

/-- A file that was processed without a fault holds the text of its result. -/
theorem exists_result_of_ok (hbytes : ∃ bytes, file.contents = .bytes bytes)
    (hok : (file.process options).1.ok = true) :
    ∃ result, (file.process options).1.result? = some result ∧
      (file.process options).1.file.contents = .bytes (Text.encode result.text) := by
  obtain ⟨bytes, hbytes⟩ := hbytes
  unfold process at hok ⊢
  rw [hbytes] at hok ⊢
  dsimp only at hok ⊢
  cases houtcome : transformBytes options file.path bytes with
  | mk outcome journal =>
    rw [houtcome] at hok
    cases outcome with
    | error fault => simp [failed, ProcessedFile.ok, ProcessedFile.fault?] at hok
    | ok result => exact ⟨result, rfl, rfl⟩

/-- A file that was processed without a fault can be written where it could be before. -/
theorem Ready.process (h : file.Ready) (hok : (file.process options).1.ok = true) :
    (file.process options).1.file.Ready := by
  obtain ⟨result, -, hcontents⟩ := exists_result_of_ok h.held hok
  exact ⟨by rw [relativeParts_process]; exact h.named, by rw [relativeParts_process]; exact h.plain,
    _, hcontents⟩

/-- Whether contents can be written does not depend on them. -/
theorem isSome_write? (tree : FileTree) (place : List Text) (bytes : Bytes) :
    (tree.write? place bytes).isSome = !tree.isDirectory place := by
  unfold FileTree.write?
  split <;> simp_all

/-- Whether a file can be stored does not depend on its bytes. -/
theorem isSome_store? {outDir : Option Location} {bytes : Bytes}
    (hbytes : file.contents = .bytes bytes) (tree : FileTree) :
    (file.store? tree outDir).isSome =
      (tree.makeDirectories? (file.target outDir).parent).any fun made =>
        (made.resolve? (file.target outDir)).any fun place => !made.isDirectory place := by
  unfold store?
  rw [hbytes]
  simp only [Option.bind_eq_bind, Option.isSome_bind, isSome_write?]

/-- A file that was processed without a fault can be stored if it could be before. -/
theorem exists_store?_process (h : file.Ready) (hok : (file.process options).1.ok = true)
    (tree : FileTree) (outDir : Option Location) :
    (∃ tree', (file.process options).1.file.store? tree outDir = some tree') ↔
      ∃ tree', file.store? tree outDir = some tree' := by
  obtain ⟨bytes, hbytes⟩ := h.held
  obtain ⟨result, -, hcontents⟩ := exists_result_of_ok h.held hok
  rw [← Option.isSome_iff_exists, ← Option.isSome_iff_exists, isSome_store? hbytes,
    isSome_store? hcontents, target_process]

end SourceFile

namespace Command

open SourceFile (Apart)

variable {request : Request} {files : List SourceFile} {tree : FileTree} {outDir : Location}

/-- Under an output directory, a build writes every file if none failed. -/
theorem writtenFiles_of_ok
    (hok : ∀ file ∈ files, (file.process request.options).1.ok = true) (outDir : Location) :
    writtenFiles (some outDir) (request.process files)
      = files.map fun file => (file.process request.options).1.file := by
  unfold writtenFiles Request.process
  rw [List.filter_eq_self.mpr, List.map_map]
  · rfl
  · intro p hp
    obtain ⟨file, hfile, rfl⟩ := List.mem_map.mp hp
    simp [isWritten, hok file hfile]

/-- Processed files can be written where the files that were loaded could be. -/
theorem ready_of_mem_processed (hready : ∀ file ∈ files, file.Ready)
    (hok : ∀ file ∈ files, (file.process request.options).1.ok = true) :
    ∀ g ∈ files.map fun file => (file.process request.options).1.file, g.Ready := by
  intro g hg
  obtain ⟨file, hfile, rfl⟩ := List.mem_map.mp hg
  exact (hready file hfile).process (hok file hfile)

/-- Processed files can be stored like the files that were loaded. -/
theorem exists_storeAll?_process (hready : ∀ file ∈ files, file.Ready)
    (hok : ∀ file ∈ files, (file.process request.options).1.ok = true) (tree : FileTree)
    (outDir : Location) :
    (∃ tree', SourceFile.storeAll? tree
        (files.map fun file => (file.process request.options).1.file) (some outDir) = some tree') ↔
      (∀ file ∈ files, ∃ tree', file.store? tree (some outDir) = some tree') ∧
      files.Pairwise fun f g => Apart f.relativeParts g.relativeParts := by
  have hprocessed := ready_of_mem_processed hready hok
  rw [(SourceFile.storeAll?_under hprocessed tree outDir).1, List.pairwise_map]
  simp only [SourceFile.relativeParts_process, List.forall_mem_map]
  refine and_congr_left fun _ => forall_congr' fun file => forall_congr' fun hfile => ?_
  exact SourceFile.exists_store?_process (hready file hfile) (hok file hfile) tree _

/-- **When a build into a directory succeeds**: every file is processed, each could be written by
itself, and no relative location leads through another. -/
theorem exitCode_outDirectory (hout : request.target? = some outDir)
    (hready : ∀ file ∈ files, file.Ready) :
    (build request files tree).exitCode = 0 ↔
      (∀ file ∈ files, (file.process request.options).1.ok = true) ∧
      (∀ file ∈ files, ∃ tree', file.store? tree (some outDir) = some tree') ∧
      files.Pairwise fun f g => Apart f.relativeParts g.relativeParts := by
  rw [exitCode_build, hout, and_comm]
  refine and_congr_right fun hok => ?_
  rw [writtenFiles_of_ok hok, exists_storeAll?_process hready hok]

/-- **What a build into a directory leaves** when it succeeds. -/
theorem read?_outDirectory (hout : request.target? = some outDir)
    (hready : ∀ file ∈ files, file.Ready) (hcode : (build request files tree).exitCode = 0) :
    (∀ before file after, files = before ++ file :: after →
      (∀ g ∈ after, g.relativeParts ≠ file.relativeParts) →
      ∃ result place, (file.process request.options).1.result? = some result ∧
        (build request files tree).tree.resolve? (file.target (some outDir)) = some place ∧
        (build request files tree).tree.read? place = some (Text.encode result.text)) ∧
    ∀ place, (∀ file ∈ files,
        (build request files tree).tree.resolve? (file.target (some outDir)) ≠ some place) →
      (build request files tree).tree.read? place = tree.read? place := by
  obtain ⟨⟨tree', hstore⟩, hok⟩ := (exitCode_build request files tree).mp hcode
  obtain ⟨summary, hbuild⟩ := build_of_storeAll? hstore
  rw [hbuild]
  rw [hout, writtenFiles_of_ok hok] at hstore
  have hprocessed := ready_of_mem_processed hready hok
  obtain ⟨hlast, hkept⟩ := (SourceFile.storeAll?_under hprocessed tree outDir).2 tree' hstore
  refine ⟨fun before file after hsplit hnames => ?_, fun place hplace => hkept place fun g hg => ?_⟩
  · have hfile : file ∈ files := by simp [hsplit]
    obtain ⟨result, hresult, hcontents⟩ :=
      SourceFile.exists_result_of_ok (hready file hfile).held (hok file hfile)
    obtain ⟨place, hplace, hread⟩ := hlast (before.map fun f => (f.process request.options).1.file)
      (file.process request.options).1.file (after.map fun f => (f.process request.options).1.file)
      (by simp [hsplit]) (by simpa [SourceFile.relativeParts_process] using hnames)
    rw [SourceFile.target_process] at hplace
    exact ⟨result, place, hresult, hplace, hread _ hcontents⟩
  · obtain ⟨file, hfile, rfl⟩ := List.mem_map.mp hg
    rw [SourceFile.target_process]
    exact hplace file hfile

/-- **Building into a directory.**  The build succeeds if every file that was loaded is processed,
each could be written by itself, and no relative location leads through another.  Each target then
holds what became of the last file with that relative location, and nothing else changes. -/
theorem build_outDirectory {line : List Text} (hread : readLine line = some request)
    (hbuild : request.verb = .build) (hout : request.target? = some outDir)
    (hfits : request.fits tree = true) :
    ∃ files, SourceFile.loadAll tree (request.sources.map Location.parse) = .ok files ∧
      ((run tree line).exitCode = 0 ↔
        (∀ file ∈ files, (file.process request.options).1.ok = true) ∧
        (∀ file ∈ files, ∃ tree', file.store? tree (some outDir) = some tree') ∧
        files.Pairwise fun f g => Apart f.relativeParts g.relativeParts) ∧
      ((run tree line).exitCode = 0 →
        (∀ before file after, files = before ++ file :: after →
          (∀ g ∈ after, g.relativeParts ≠ file.relativeParts) →
          ∃ result place, (file.process request.options).1.result? = some result ∧
            (run tree line).tree.resolve? (file.target (some outDir)) = some place ∧
            (run tree line).tree.read? place = some (Text.encode result.text)) ∧
        ∀ place, (∀ file ∈ files,
            (run tree line).tree.resolve? (file.target (some outDir)) ≠ some place) →
          (run tree line).tree.read? place = tree.read? place) := by
  have hsources : request.sources.all tree.namesEntry = true := by
    unfold Request.fits at hfits
    exact (Bool.and_eq_true_iff.mp hfits).1
  obtain ⟨files, hfiles⟩ := exists_loadAll_of_all hsources
  have hready := SourceFile.ready_of_loadAll hfiles
  rw [run_of_fits hread hfits hfiles, hbuild]
  exact ⟨files, hfiles, exitCode_outDirectory hout hready, read?_outDirectory hout hready⟩

/-! ## Files of one name -/

/-- Two directories with a file of one name each. -/
def twoRoots : FileTree where
  files := [([['a'], "x.html".toList], Text.encode "<p>1</p>".toList),
    ([['b'], "x.html".toList], Text.encode "<p>2</p>".toList)]
  directories := []

/-- A build of both directories into another one. -/
def twoRootsLine : List Text :=
  ["build".toList, "--out-dir".toList, "out".toList, ['a'], ['b']]

/-- What the command line asks for. -/
def twoRootsRequest : Request where
  verb := .build
  sources := [['a'], ['b']]
  outDir := some "out".toList

/-- The build of both directories succeeds, and leaves the file of the second one. -/
theorem build_outDirectory_twoRoots :
    readLine twoRootsLine = some twoRootsRequest ∧ twoRootsRequest.verb = .build ∧
    twoRootsRequest.target? = some (.parse "out".toList) ∧ twoRootsRequest.fits twoRoots = true ∧
    (run twoRoots twoRootsLine).exitCode = 0 ∧
    ∃ files, SourceFile.loadAll twoRoots (twoRootsRequest.sources.map Location.parse) = .ok files ∧
      ∀ before file after, files = before ++ file :: after →
        (∀ g ∈ after, g.relativeParts ≠ file.relativeParts) →
        ∃ result place, (file.process twoRootsRequest.options).1.result? = some result ∧
          (run twoRoots twoRootsLine).tree.resolve? (file.target (some (.parse "out".toList)))
            = some place ∧
          (run twoRoots twoRootsLine).tree.read? place = some (Text.encode result.text) := by
  have hread : readLine twoRootsLine = some twoRootsRequest := rfl
  have hfits : twoRootsRequest.fits twoRoots = true := by decide +kernel
  have hcode : (run twoRoots twoRootsLine).exitCode = 0 := by decide +kernel
  obtain ⟨files, hfiles, -, hleft⟩ := build_outDirectory hread rfl rfl hfits
  exact ⟨hread, rfl, rfl, hfits, hcode, files, hfiles, (hleft hcode).1⟩

/-- The build loses a file: all files are processed, nothing is at the output directory before, and
the target of one file does not hold what became of it. -/
theorem lost_twoRoots :
    readLine twoRootsLine = some twoRootsRequest ∧
    twoRoots.isDirectory ["out".toList] = false ∧ (run twoRoots twoRootsLine).exitCode = 0 ∧
    ∃ files, SourceFile.loadAll twoRoots (twoRootsRequest.sources.map Location.parse) = .ok files ∧
      (∀ file ∈ files, (file.process twoRootsRequest.options).1.ok = true) ∧
      ∃ file ∈ files, ∃ result place,
        (file.process twoRootsRequest.options).1.result? = some result ∧
        (run twoRoots twoRootsLine).tree.resolve? (file.target (some (.parse "out".toList)))
          = some place ∧
        (run twoRoots twoRootsLine).tree.read? place ≠ some (Text.encode result.text) := by
  have hall : ((SourceFile.loadAll twoRoots
      (twoRootsRequest.sources.map Location.parse)).toOption.bind fun files =>
        files.head?.bind fun file =>
          (file.process twoRootsRequest.options).1.result?.bind fun result =>
            ((run twoRoots twoRootsLine).tree.resolve?
              (file.target (some (.parse "out".toList)))).map fun place =>
                (files.all fun file => (file.process twoRootsRequest.options).1.ok,
                  (run twoRoots twoRootsLine).tree.read? place == some (Text.encode result.text)))
      = some (true, false) := by
    decide +kernel
  obtain ⟨files, hfiles⟩ := exists_loadAll_of_all
    (show twoRootsRequest.sources.all twoRoots.namesEntry = true by decide +kernel)
  obtain ⟨found, hfound, hall⟩ := Option.bind_eq_some_iff.mp hall
  rw [hfiles] at hfound
  obtain rfl : files = found := Option.some.inj hfound
  obtain ⟨file, hfile, hall⟩ := Option.bind_eq_some_iff.mp hall
  obtain ⟨result, hresult, hall⟩ := Option.bind_eq_some_iff.mp hall
  obtain ⟨place, hplace, hfacts⟩ := Option.map_eq_some_iff.mp hall
  obtain ⟨hok, hread⟩ := Prod.mk.inj hfacts
  refine ⟨rfl, by decide +kernel, by decide +kernel, files, hfiles, List.all_eq_true.mp hok, file,
    List.mem_of_mem_head? hfile, result, place, hresult, hplace, ?_⟩
  simpa using hread

end Command

end DataBinding
