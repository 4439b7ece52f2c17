/-
# Building in place and checking

A build in place and a check process the same files under the same options, each in a loop of its
own.  The key facts are

* `transformBytes_eq_of_path` : what a transform makes of a file depends on its bytes alone;
* `check_eq`                  : the outcome of a check;
* `agree_of_located`          : the build writes what the check reports, and nothing else;
* `outDir_eq_none_of_check`   : a check never has an output directory.
-/
import DataBinding.Proofs.Command.Building
import DataBinding.Proofs.Transform.Failure
import DataBinding.Proofs.Transform.Path

namespace DataBinding

/-! ## What becomes of a file -/

namespace SourceFile

variable {options : Options} {file : SourceFile} {bytes : Bytes} {result : Transform.Result}

/-- What becomes of the bytes of a file does not depend on its path. -/
theorem transformBytes_eq_of_path (options : Options) (p q : Location) (bytes : Bytes) :
    (transformBytes options p bytes).1 = (transformBytes options q bytes).1 := by
  unfold transformBytes
  cases Text.decode bytes with
  | error fault => rfl
  | ok t =>
    dsimp only
    rw [Transform.transform_eq_of_path options p.write q.write t]

/-- The bytes that a file is rewritten to. -/
def rewrittenBytes (options : Options) (bytes : Bytes) : Bytes :=
  match (transformBytes options ⟨[], []⟩ bytes).1 with
  | .ok result => Text.encode result.text
  | .error _ => bytes

/-- A file that was processed holds the text of its result. -/
theorem contents_process (hbytes : file.contents = .bytes bytes)
    (h : (file.process options).1.result? = some result) :
    (file.process options).1.file.contents = .bytes (Text.encode result.text) ∧
      rewrittenBytes options bytes = Text.encode result.text := by
  have hpath := transformBytes_eq_of_path options file.path ⟨[], []⟩ bytes
  unfold process at h ⊢
  unfold rewrittenBytes
  rw [hbytes] at h ⊢
  rw [← hpath]
  dsimp only at h ⊢
  cases houtcome : transformBytes options file.path bytes with
  | mk outcome journal =>
    rw [houtcome] at h
    cases outcome with
    | error fault => simp [failed, ProcessedFile.result?] at h
    | ok found =>
      obtain rfl : found = result := Option.some.inj h
      exact ⟨rfl, rfl⟩

end SourceFile

namespace Command

variable {request : Request} {files : List SourceFile} {tree : FileTree}

/-! ## Checking -/

/-- The note on a file that would change. -/
def pendingNote (p : ProcessedFile) : String :=
  s!"🔍 {shown p.file.path}: {p.generated} binding(s) to compute"

/-- What a check says about a file. -/
theorem checkLines_eq (p : ProcessedFile) : checkLines p = reportLines pendingNote p := by
  obtain ⟨file, outcome⟩ := p
  rcases outcome with fault | _ | result
  · rfl
  · rfl
  · rfl

/-- The files that change, as they are then. -/
def Request.pending (request : Request) (files : List SourceFile) : List SourceFile :=
  ((request.process files).filter (·.changed)).map (·.file)

/-- A file is pending if it was loaded and functions were generated for it. -/
theorem mem_pending {g : SourceFile} : g ∈ request.pending files ↔
    ∃ file ∈ files, (file.process request.options).1.changed = true ∧
      (file.process request.options).1.file = g := by
  simp [Request.pending, Request.process, and_assoc]

/-- In place, the pending files are the ones that are written. -/
theorem writtenFiles_none (request : Request) (files : List SourceFile) :
    writtenFiles none (request.process files) = request.pending files := by
  unfold writtenFiles Request.pending
  congr 1
  refine List.filter_congr fun p _ => ?_
  cases hchanged : p.changed with
  | false => simp [isWritten, hchanged]
  | true => simp [isWritten, hchanged, ProcessedFile.ok_of_changed hchanged]

/-- The summary of a check. -/
def checkSummary (request : Request) (files : List SourceFile) : String :=
  let pending := request.pending files
  let failed := failures (request.process files)
  if pending = [] ∧ failed = [] then s!"✅ {files.length} file(s) up to date"
  else s!"⚠️  {pending.length} file(s) would change, {failed.length} file(s) failed"

/-- **The outcome of a check.** -/
theorem check_eq (request : Request) (files : List SourceFile) (tree : FileTree) :
    check request files tree =
      ⟨if request.pending files = [] ∧ failures (request.process files) = [] then 0 else 1,
        some ((request.process files).flatMap (reportLines pendingNote) ++
          [checkSummary request files]), tree⟩ := by
  have hlines : checkLines = reportLines pendingNote := funext checkLines_eq
  have hpending : ((request.process files).filter (·.changed)).length
      = (request.pending files).length :=
    (List.length_map _).symm
  have hcond : ((request.pending files).length == 0 &&
      (failures (request.process files)).length == 0) = true ↔
        request.pending files = [] ∧ failures (request.process files) = [] := by
    simp [List.length_eq_zero_iff]
  unfold check checkSummary
  dsimp only
  rw [processAll_eq, hlines, hpending]
  change (if ((request.pending files).length == 0 &&
    (failures (request.process files)).length == 0) = true then _ else _) = _
  by_cases h : request.pending files = [] ∧ failures (request.process files) = []
  · rw [if_pos (hcond.mpr h), if_pos h, if_pos h]
  · rw [if_neg (h ∘ hcond.mp), if_neg h, if_neg h]
    rfl

/-- A check depends on what is asked of the transform alone. -/
theorem check_congr {request' : Request} (h : request'.options = request.options)
    (files : List SourceFile) (tree : FileTree) :
    check request' files tree = check request files tree := by
  unfold check
  rw [h]

/-! ## Building in place -/

/-- A file whose transform generated functions. -/
theorem changed_iff {p : ProcessedFile} :
    p.changed = true ↔ ∃ result, p.result? = some result ∧ result.functions ≠ [] := by
  unfold ProcessedFile.changed Transform.Result.changed
  simp [Option.any_eq_true]

/-- What a place holds when the file there is rewritten. -/
def rewrittenAt (request : Request) (tree : FileTree) (place : List Text) : Bytes :=
  SourceFile.rewrittenBytes request.options ((tree.read? place).getD [])

/-- A pending file holds what its place tells. -/
theorem place_of_pending (hlocated : ∀ file ∈ files, SourceFile.Located tree file)
    {g : SourceFile} (hg : g ∈ request.pending files) :
    ∃ place, tree.resolve? g.path = some place ∧ tree.isFile place = true ∧
      g.contents = .bytes (rewrittenAt request tree place) := by
  obtain ⟨file, hfile, hchanged, rfl⟩ := mem_pending.mp hg
  obtain ⟨place, bytes, hplace, hread, hbytes⟩ := hlocated file hfile
  obtain ⟨result, hresult, -⟩ := changed_iff.mp hchanged
  obtain ⟨hcontents, hrewritten⟩ := SourceFile.contents_process hbytes hresult
  refine ⟨place, ?_, ?_, ?_⟩
  · rw [SourceFile.file_process]
    exact hplace
  · unfold FileTree.isFile
    rw [hread]
    rfl
  · rw [hcontents, rewrittenAt, hread, Option.getD_some, hrewritten]

/-- What a build in place and a check of files that were loaded from a tree have to do with each
other. -/
structure Agree (request : Request) (files : List SourceFile) (tree : FileTree)
    (built checked : Outcome) : Prop where
  /-- The build leaves what the transform wrote where it generated functions. -/
  rewrites : ∀ file ∈ files, ∀ result, (file.process request.options).1.result? = some result →
    result.functions ≠ [] → ∃ place, tree.resolve? file.path = some place ∧
      built.tree.read? place = some (Text.encode result.text)
  /-- The build leaves every other place as it is. -/
  keeps : ∀ place, (∀ file ∈ files, tree.resolve? file.path = some place → ∀ result,
      (file.process request.options).1.result? = some result → result.functions = []) →
    built.tree.read? place = tree.read? place
  directories : ∀ place, built.tree.isDirectory place = tree.isDirectory place
  /-- The build fails if a file does. -/
  failure : built.exitCode = 1 ↔ ∃ file ∈ files, (file.process request.options).1.ok = false
  success : built.exitCode = 0 ↔ ∀ file ∈ files, (file.process request.options).1.ok = true
  checkKeeps : checked.tree = tree
  /-- The build writes the pending files, one after the other. -/
  writes : SourceFile.storeAll? tree (request.pending files) none = some built.tree
  /-- Both report on the same files in the same order: on those that failed in the same words, and
  on those that are pending. -/
  buildReport : ∃ first last, built.output = some (first ::
    ((request.process files).flatMap (reportLines (writtenNote none)) ++ [last]))
  checkReport : checked.output = some ((request.process files).flatMap (reportLines pendingNote) ++
    [checkSummary request files])
  /-- The check succeeds if the build would, without writing anything. -/
  checkSuccess : checked.exitCode = 0 ↔ built.exitCode = 0 ∧ request.pending files = []

/-- **A build in place writes what a check reports**, for files as they are in a tree. -/
theorem agree_of_located (hwf : tree.WellFormed)
    (hlocated : ∀ file ∈ files, SourceFile.Located tree file) (hinPlace : request.target? = none) :
    Agree request files tree (build request files tree) (check request files tree) := by
  obtain ⟨tree', hstore, hdirectories, hnew, hkept⟩ := SourceFile.exists_storeAll?_inPlace hwf
    (rewrittenAt request tree) fun g hg => place_of_pending hlocated hg
  have hwritten : SourceFile.storeAll? tree
      (writtenFiles request.target? (request.process files)) request.target? = some tree' := by
    rw [hinPlace, writtenFiles_none]
    exact hstore
  obtain ⟨summary, hbuild⟩ := build_of_storeAll? hwritten
  rw [hinPlace] at hbuild
  rw [hbuild, check_eq]
  -- both commands exit by the same list of failures
  have hfailures := failures_eq_nil_iff request files
  have hsucceeded : (if failures (request.process files) = [] then 0 else 1) = 0 ↔
      failures (request.process files) = [] := by
    split <;> simp_all
  have hfailed : (if failures (request.process files) = [] then 0 else 1) = 1 ↔
      ¬ failures (request.process files) = [] := by
    split <;> simp_all
  refine ⟨?_, ?_, hdirectories, ?_, ?_, rfl, hstore, ⟨_, _, rfl⟩, rfl, ?_⟩
  · intro file hfile result hresult hfunctions
    obtain ⟨place, bytes, hplace, hread, hbytes⟩ := hlocated file hfile
    have hpending :=
      mem_pending.mpr ⟨file, hfile, changed_iff.mpr ⟨result, hresult, hfunctions⟩, rfl⟩
    refine ⟨place, hplace, ?_⟩
    dsimp only
    rw [hnew _ hpending place (by rw [SourceFile.file_process]; exact hplace), rewrittenAt, hread,
      Option.getD_some, (SourceFile.contents_process hbytes hresult).2]
  · intro place hidle
    refine hkept place fun g hg hplace => ?_
    obtain ⟨file, hfile, hchanged, rfl⟩ := mem_pending.mp hg
    obtain ⟨result, hresult, hfunctions⟩ := changed_iff.mp hchanged
    rw [SourceFile.file_process] at hplace
    exact hfunctions (hidle file hfile hplace result hresult)
  · rw [hfailed, hfailures]
    simp
  · rw [hsucceeded, hfailures]
  · rw [hsucceeded]
    dsimp only
    split
    · rename_i h
      exact ⟨fun _ => ⟨h.2, h.1⟩, fun _ => rfl⟩
    · rename_i h
      exact ⟨fun hcode => absurd hcode (by decide), fun hboth => absurd ⟨hboth.2, hboth.1⟩ h⟩

/-! ## Command lines -/

/-- Only a build has an option for an output directory. -/
theorem valueOption?_check (name : Text) : valueOption? .check name ≠ some .outDir := by
  unfold valueOption?
  split
  · simp
  · split
    · simp
    · split <;> simp_all

/-- What was read so far of a check writes nothing elsewhere: there is no output directory, and no
value of one to come. -/
def StaysHere (reached : Stage × Request) : Prop :=
  reached.2.verb = .check → reached.2.outDir = none ∧ reached.1 ≠ .value .outDir

theorem staysHere_setValue {option : ValueOption} {value : Text}
    (h : request.verb = .check → request.outDir = none ∧ option ≠ .outDir) :
    StaysHere (.open, request.setValue option value) := by
  cases option with
  | outDir => exact fun hverb => absurd rfl (h hverb).2
  | global => exact fun hverb => ⟨(h hverb).1, by simp⟩
  | register => exact fun hverb => ⟨(h hverb).1, by simp⟩

/-- Reading an option of a check gives no output directory. -/
theorem staysHere_readOption (hout : request.verb = .check → request.outDir = none)
    {argument : Text} {reached : Stage × Request} (h : readOption request argument = some reached) :
    StaysHere reached := by
  unfold readOption at h
  split at h
  · obtain ⟨option, hoption, rfl⟩ := Option.map_eq_some_iff.mp h
    refine staysHere_setValue fun hverb => ⟨hout hverb, ?_⟩
    rintro rfl
    rw [hverb] at hoption
    exact valueOption?_check _ hoption
  · split at h
    · rename_i option hoption
      obtain rfl := Option.some.inj h
      refine fun hverb => ⟨hout hverb, fun heq => ?_⟩
      rw [show request.verb = .check from hverb, Stage.value.inj heq] at hoption
      exact valueOption?_check _ hoption
    · split at h
      · obtain rfl := Option.some.inj h
        exact fun hverb => ⟨hout hverb, by simp⟩
      · obtain ⟨flag, -, rfl⟩ := Option.map_eq_some_iff.mp h
        cases flag <;> exact fun hverb => ⟨hout hverb, by simp⟩

/-- Reading an argument of a check gives no output directory. -/
theorem staysHere_readArgument {reached reached' : Stage × Request} {argument : Text}
    (h : StaysHere reached) (hread : readArgument reached argument = some reached') :
    StaysHere reached' := by
  obtain ⟨stage, request⟩ := reached
  have hout : request.verb = .check → request.outDir = none := fun hverb => (h hverb).1
  cases stage with
  | literal =>
    obtain rfl := Option.some.inj hread
    exact fun hverb => ⟨hout hverb, by simp⟩
  | value option =>
    obtain rfl := Option.some.inj hread
    exact staysHere_setValue fun hverb =>
      ⟨hout hverb, fun heq => (h hverb).2 (by rw [heq])⟩
  | «open» =>
    unfold readArgument at hread
    dsimp only at hread
    split at hread
    · obtain rfl := Option.some.inj hread
      exact fun hverb => ⟨hout hverb, by simp⟩
    · split at hread
      · exact staysHere_readOption hout hread
      · obtain rfl := Option.some.inj hread
        exact fun hverb => ⟨hout hverb, by simp⟩

/-- Reading all arguments of a check gives no output directory. -/
theorem outDir_readArguments {verb : Verb} {arguments : List Text}
    (h : readArguments verb arguments = some request) (hverb : request.verb = .check) :
    request.outDir = none := by
  have hall : ∀ reached reached' : Stage × Request, StaysHere reached →
      arguments.foldlM readArgument reached = some reached' → StaysHere reached' := by
    clear h
    induction arguments with
    | nil =>
      intro reached reached' hreached hread
      rwa [← Option.some.inj hread]
    | cons argument arguments ih =>
      intro reached reached' hreached hread
      rw [List.foldlM_cons, Option.bind_eq_bind, Option.bind_eq_some_iff] at hread
      obtain ⟨between, hfirst, hrest⟩ := hread
      exact ih between reached' (staysHere_readArgument hreached hfirst) hrest
  unfold readArguments at h
  split at h
  · simp at h
  · simp at h
  · rename_i stage found _ hread
    split at h
    · simp at h
    · obtain rfl := Option.some.inj h
      exact (hall _ _ (fun _ => ⟨rfl, by simp⟩) hread hverb).1

/-- A check that was read has no output directory. -/
theorem outDir_eq_none_of_check {line : List Text} (h : readLine line = some request)
    (hverb : request.verb = .check) : request.outDir = none := by
  unfold readLine at h
  split at h
  · simp at h
  · split at h
    · split at h
      · simp at h
      · obtain ⟨verb, -, hread⟩ := Option.bind_eq_some_iff.mp h
        exact outDir_readArguments hread hverb
    · obtain ⟨verb, -, hread⟩ := Option.bind_eq_some_iff.mp h
      exact outDir_readArguments hread hverb

/-! ## Runs -/

/-- A request that writes nothing elsewhere fits a tree if its sources are there. -/
theorem fits_of_target? (hwf : tree.WellFormed) (h : request.target? = none) :
    request.fits tree = request.sources.all tree.namesEntry := by
  have hout : request.outDir.any tree.namesFile = false := by
    unfold Request.target? at h
    rw [Option.map_eq_none_iff, Option.filter_eq_none_iff] at h
    rw [Option.any_eq_false]
    intro t ht
    have hempty : t = [] := by simpa using h t ht
    have htop : tree.resolve? (.parse []) = some [] := rfl
    rw [hempty]
    unfold FileTree.namesFile
    rw [htop]
    simp [hwf.isFile_eq_false (show tree.isDirectory [] = true from rfl)]
  unfold Request.fits
  rw [hout, Bool.not_false, Bool.and_true]

/-- Command lines for a build in place and a check of the same sources under the same options. -/
structure SameWork (line line' : List Text) (request request' : Request) : Prop where
  read : readLine line = some request
  read' : readLine line' = some request'
  builds : request.verb = .build
  checks : request'.verb = .check
  sources : request'.sources = request.sources
  options : request'.options = request.options
  inPlace : request.target? = none

/-- **A build in place and a check agree.**  Both are refused if a source is missing.  Else the
build rewrites the files for which functions are generated and leaves all other places as they are,
whatever files fail; the check changes nothing, reports the files that the build writes, in the same
order, and succeeds if the build succeeds without writing anything. -/
theorem build_agrees_with_check {line line' : List Text} {request request' : Request}
    (h : SameWork line line' request request') (hwf : tree.WellFormed) :
    (request.sources.all tree.namesEntry = true →
      ∃ files, SourceFile.loadAll tree (request.sources.map Location.parse) = .ok files ∧
        (∀ file ∈ files, SourceFile.Located tree file) ∧
        Agree request files tree (run tree line) (run tree line')) ∧
    (request.sources.all tree.namesEntry = false →
      run tree line = refused tree ∧ run tree line' = refused tree) := by
  have hhere : request'.target? = none := by
    unfold Request.target?
    rw [outDir_eq_none_of_check h.read' h.checks]
    rfl
  have hfits := fits_of_target? hwf h.inPlace
  have hfits' := fits_of_target? hwf hhere
  rw [h.sources] at hfits'
  constructor
  · intro hall
    obtain ⟨files, hfiles⟩ := exists_loadAll_of_all hall
    have hlocated := SourceFile.located_of_loadAll hwf hfiles
    refine ⟨files, hfiles, hlocated, ?_⟩
    rw [run_of_fits h.read (hfits.trans hall) hfiles,
      run_of_fits h.read' (hfits'.trans hall) (by rw [h.sources]; exact hfiles), h.builds, h.checks]
    dsimp only
    rw [check_congr h.options]
    exact agree_of_located hwf hlocated h.inPlace
  · intro hmissing
    unfold run
    rw [h.read, h.read']
    dsimp only
    rw [hfits, hfits', hmissing]
    exact ⟨rfl, rfl⟩

/-- A tree with a component, one without a declaration, and a page with nothing to compute. -/
def site : FileTree where
  files := [
    ([['a'], "x.html".toList], Text.encode Transform.sumPage),
    (["b.html".toList], Text.encode Transform.orphanPage),
    (["c.html".toList], Text.encode "<p>1</p>".toList)]
  directories := []

/-- Sources that name the component twice. -/
def siteSources : List Text :=
  [['a'], "./a//x.html".toList, "b.html".toList, "c.html".toList]

theorem site_wellFormed : site.WellFormed :=
  ⟨by decide +kernel, by decide +kernel⟩

/-- A build and a check of the tree: the component is pending twice, and another file fails. -/
theorem build_agrees_with_check_site :
    SameWork ("build".toList :: siteSources) ("check".toList :: siteSources)
      { verb := .build, sources := siteSources } { verb := .check, sources := siteSources } ∧
    site.WellFormed ∧ siteSources.all site.namesEntry = true ∧
    (run site ("build".toList :: siteSources)).exitCode = 1 ∧
    (run site ("check".toList :: siteSources)).output.map List.length = some 5 ∧
    ∃ files, SourceFile.loadAll site (siteSources.map Location.parse) = .ok files ∧
      (∀ file ∈ files, SourceFile.Located site file) ∧
      Agree { verb := .build, sources := siteSources } files site
        (run site ("build".toList :: siteSources)) (run site ("check".toList :: siteSources)) := by
  have hsame : SameWork ("build".toList :: siteSources) ("check".toList :: siteSources)
      { verb := .build, sources := siteSources } { verb := .check, sources := siteSources } :=
    ⟨rfl, rfl, rfl, rfl, rfl, rfl, rfl⟩
  have hall : siteSources.all site.namesEntry = true := by decide +kernel
  exact ⟨hsame, site_wellFormed, hall, by decide +kernel, by decide +kernel,
    (build_agrees_with_check hsame site_wellFormed).1 hall⟩

end Command

end DataBinding
