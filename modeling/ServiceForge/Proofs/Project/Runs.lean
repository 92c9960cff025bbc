/-
This file says what a run over metadata leaves when it is done. The operations are taken
in the order of the metadata, and the first that has no document or cannot be generated
ends the run: what the others gave is written, but no module is listed. A run over whole
services that comes to its end lists the modules that it has written. What is written is
what the workspace holds, until the formatters change it, whatever these do. A session reads
the same whether or not it keeps documents, since a document is kept as its file has it.
-/

import ServiceForge.Project.Execution
import ServiceForge.Project.Session
import ServiceForge.Proofs.Project.Rendering
import ServiceForge.Proofs.Sdk.Context
import ServiceForge.Proofs.Workspace

namespace ServiceForge.Project.Session

/-! ### Files -/

@[simp] theorem workspace_keep (session : Session) (path : String) :
    (session.keep path).workspace = session.workspace := by
  unfold keep
  repeat' split
  all_goals rfl

/-- Keeping documents leaves the workspace as it is. -/
@[simp] theorem workspace_keepAll (session : Session) (paths : List String) :
    (session.keepAll paths).workspace = session.workspace := by
  induction paths generalizing session with
  | nil => rfl
  | cons path rest inductionHypothesis =>
    exact (inductionHypothesis (session.keep path)).trans (workspace_keep session path)

@[simp] theorem programs_keep (session : Session) (path : String) :
    (session.keep path).programs = session.programs := by
  unfold keep
  repeat' split
  all_goals rfl

@[simp] theorem programs_keepAll (session : Session) (paths : List String) :
    (session.keepAll paths).programs = session.programs := by
  induction paths generalizing session with
  | nil => rfl
  | cons path rest inductionHypothesis =>
    exact (inductionHypothesis (session.keep path)).trans (programs_keep session path)

theorem content_of_workspace {first second : Session}
    (same : first.workspace = second.workspace) (path : String) :
    first.content path = second.content path := by
  unfold content
  rw [same]

/-! ### Documents -/

/-- Two paths that lead to one place lead to one document. -/
theorem spec_of_locate {session : Session} {path other : String}
    (same : session.workspace.locate? path = session.workspace.locate? other) :
    session.spec path = session.spec other := by
  unfold spec content Workspace.read?
  rw [same]

/-- A document that is loaded has a file. -/
theorem content_of_spec {session : Session} {path : String} {spec : OpenApi.Spec}
    (loaded : session.spec path = .ok spec) : ∃ text, session.content path = .ok text := by
  unfold Session.spec at loaded
  cases read : session.content path with
  | error cause =>
    rw [read] at loaded
    cases loaded
  | ok text => exact ⟨text, rfl⟩

theorem spec_of_content {session : Session} {path text : String}
    (read : session.content path = .ok text) :
    session.spec path =
      match (session.workspace.locate? path).bind fun location =>
          session.loaded.lookup location with
      | some spec => .ok spec
      | none => (OpenApi.Spec.ofText text).mapError .unloadable := by
  unfold Session.spec
  rw [read]
  rfl

/-- Adding a document that the session reads anyway changes nothing that it reads. -/
theorem spec_add {session : Session} {kept : String} {location : Location} {spec : OpenApi.Spec}
    (place : session.workspace.locate? kept = some location)
    (loaded : session.spec kept = .ok spec) (path : String) :
    ({ session with loaded := session.loaded ++ [(location, spec)] } : Session).spec path =
      session.spec path := by
  by_cases here : session.workspace.locate? path = some location
  · -- The file is that of the document, which is read as it was added.
    have before : session.spec path = .ok spec :=
      (spec_of_locate (here.trans place.symm)).trans loaded
    obtain ⟨text, read⟩ := content_of_spec before
    rw [before]
    rw [spec_of_content read, here, Option.bind_some] at before
    have added : ({ session with loaded := session.loaded ++ [(location, spec)] } :
        Session).content path = .ok text := read
    rw [spec_of_content added, here, Option.bind_some, List.lookup_append]
    cases old : session.loaded.lookup location with
    | some other =>
      rw [old] at before
      exact before
    | none =>
      rw [List.lookup_cons_self]
      rfl
  · have elsewhere : (session.workspace.locate? path).bind
        (fun other => (session.loaded ++ [(location, spec)]).lookup other) =
          (session.workspace.locate? path).bind fun other => session.loaded.lookup other := by
      cases found : session.workspace.locate? path with
      | none => rfl
      | some other =>
        have apart : (other == location) = false :=
          beq_eq_false_iff_ne.mpr fun same => here (found.trans (congrArg some same))
        rw [Option.bind_some, Option.bind_some, List.lookup_append, List.lookup_cons, apart,
          List.lookup_nil, Option.or_none]
    unfold Session.spec
    show (session.content path >>= fun _ => _) = _
    rw [elsewhere]

/-- Keeping a document changes nothing that a session reads. -/
theorem spec_keep (session : Session) (kept path : String) :
    (session.keep kept).spec path = session.spec path := by
  unfold keep
  split
  · rfl
  · next location place =>
    split
    · rfl
    · split
      · next spec loaded => exact spec_add place loaded path
      · rfl

/-- Documents read the same after others were kept. -/
theorem spec_keepAll (session : Session) (paths : List String) (path : String) :
    (session.keepAll paths).spec path = session.spec path := by
  induction paths generalizing session with
  | nil => rfl
  | cons kept rest inductionHypothesis =>
    exact (inductionHypothesis (session.keep kept)).trans (spec_keep session kept path)

end ServiceForge.Project.Session

namespace ServiceForge.Project

open ServiceForge.Generation (File Language ModuleIndex OperationRequest)

/-! ### Requests -/

/-- A request that reads metadata. -/
structure Request.ReadsMetadata (request : Request) (path : String) : Prop where
  descriptors : request.descriptors = none
  className : request.className = none
  /-- No operation of a document is asked for on its own. -/
  several : request.openapiSpec = none ∨ request.operation = none
  metadata : request.metadata = some path

/-- A request that reads metadata renders what the metadata names. -/
theorem generation_of_readsMetadata {session : Session} {config : Config} {request : Request}
    {path : String} (reads : request.ReadsMetadata path) :
    generation session config request = metadataRendering session config request path := by
  unfold generation
  rw [reads.descriptors, reads.className, reads.metadata]
  rcases reads.several with none | none
  · rw [none]
  · rw [none]
    cases request.openapiSpec <;> rfl

/-- A request for a target with a generator renders what is generated. -/
theorem plan_of_generator {session : Session} {config : Config} {request : Request}
    (generator : (operationGenerator? config request.target).isSome = true ∨
      (resourceGenerator? request.target).isSome = true) :
    plan session config request =
      { root := FilePath.join request.workDirectory (config.root request.target)
        rendering := generation session config request } := by
  unfold plan
  cases target : request.target with
  | openapiSpec => simp [target, operationGenerator?, resourceGenerator?] at generator
  | metadata => simp [target, operationGenerator?, resourceGenerator?] at generator
  | _ => rfl

/-! ### Pairs -/

/-- The files that a pair gives, with the document that the metadata names. -/
def Pair.files (session : Session) (directory : String)
    (generate : OperationRequest → Except GenerationError (List File)) (pair : Pair) :
    Except Cause (List File) :=
  pairFiles session (specFile directory pair.entry pair.operation) pair generate

section Pairs

variable {session : Session} {config : Config} {directory : String} {target : Target}
  {generate : OperationRequest → Except GenerationError (List File)} {pair : Pair}

theorem files_keepAll (paths : List String) :
    pair.files (session.keepAll paths) directory generate =
      pair.files session directory generate := by
  unfold Pair.files pairFiles
  rw [Session.spec_keepAll]

/-- A pair is rendered to its files if they can be generated. -/
theorem pairRendering_of_files (files : List File)
    (given : pair.files session directory generate = .ok files) :
    pairRendering session directory generate pair =
      { files, specs := [specFile directory pair.entry pair.operation] } := by
  have same : pairFiles session (specFile directory pair.entry pair.operation) pair generate =
      .ok files := given
  unfold pairRendering
  simp only [same]
  rfl

/-- A pair that cannot be generated fails with the name of its operation. -/
theorem pairRendering_of_cause {cause : Cause}
    (failed : pair.files session directory generate = .error cause) :
    pairRendering session directory generate pair =
      { specs := [specFile directory pair.entry pair.operation]
        failure := some (.operation pair.operation.operation
          (specFile directory pair.entry pair.operation) cause) } := by
  have same : pairFiles session (specFile directory pair.entry pair.operation) pair generate =
      .error cause := failed
  unfold pairRendering
  simp only [same]
  rfl

/-- Operations are generated as modules. -/
theorem isSome_record_of_generator {request : OperationRequest} {files : List File} {file : File}
    (generator : operationGenerator? config target = some generate)
    (given : generate request = .ok files) (member : file ∈ files) :
    file.record.isSome = true := by
  cases target with
  | sdk =>
    cases generator
    obtain ⟨contexts, -, returned⟩ := bind_eq_ok.mp given
    cases returned
    obtain ⟨context, -, rfl⟩ := List.mem_map.mp member
    rfl
  | cli =>
    cases generator
    obtain ⟨contexts, -, returned⟩ := bind_eq_ok.mp given
    cases returned
    obtain ⟨context, -, rfl⟩ := List.mem_map.mp member
    rfl
  | _ => cases generator

/-- Each file of a pair belongs to a module. -/
theorem isSome_record_of_files {files : List File} {file : File}
    (generator : operationGenerator? config target = some generate)
    (given : pair.files session directory generate = .ok files) (member : file ∈ files) :
    file.record.isSome = true := by
  obtain ⟨spec, -, given⟩ := bind_eq_ok.mp given
  exact isSome_record_of_generator generator (mapError_eq_ok.mp given) member

end Pairs

/-! ### Writing -/

/-- The paths of files below a root with their contents. -/
def contentsBelow (root : String) (files : List File) : List (String × String) :=
  files.map fun file => (FilePath.join root file.path, file.contents)

/-- Files are all written, or those are before the first that something stands in the way of. -/
theorem writeFiles_cases (workspace : Workspace) (root : String) (files : List File) :
    (∃ filled, writeFiles workspace root files =
        (filled, .ok (files.map fun file => FilePath.join root file.path)) ∧
      workspace.Holds filled (contentsBelow root files)) ∨
    ∃ earlier file later middle after, files = earlier ++ file :: later ∧
      workspace.Holds middle (contentsBelow root earlier) ∧
      middle.Blocks (FilePath.join root file.path) ∧ after.files = middle.files ∧
      writeFiles workspace root files = (after, .error (.cause .inaccessible)) := by
  induction files generalizing workspace with
  | nil => exact Or.inl ⟨workspace, rfl, .nil workspace⟩
  | cons file rest inductionHypothesis =>
    rw [writeFiles]
    by_cases blocked : workspace.Blocks (FilePath.join root file.path)
    · obtain ⟨refused, unchanged, -⟩ := Workspace.write_of_blocks blocked file.contents
      refine Or.inr ⟨[], file, rest, workspace, _, rfl, .nil workspace, blocked, unchanged, ?_⟩
      simp only [refused, Bool.false_eq_true, if_false]
      rfl
    · have first := Workspace.Holds.write blocked file.contents
      have accepted : (workspace.write (FilePath.join root file.path) file.contents).2 = true :=
        Workspace.write_iff.mpr blocked
      simp only [accepted, if_true]
      rcases inductionHypothesis (workspace.write (FilePath.join root file.path) file.contents).1 with
        ⟨filled, written, holds⟩ | ⟨earlier, stuck, later, middle, after, rfl, holds, stops,
          unchanged, failed⟩
      · refine Or.inl ⟨filled, ?_, first.append holds⟩
        rw [written]
        rfl
      · refine Or.inr ⟨file :: earlier, stuck, later, middle, after, rfl, first.append holds,
          stops, unchanged, ?_⟩
        rw [failed]
        rfl

/-! ### Formatting -/

/-- What formatting the files of a language changes. Without a formatter or without files that is
nothing, and otherwise what the formatter does when it is started once for all of them. -/
structure Formats (programs : Programs) (config : Config) (root : String) (files : List File)
    (language : Language) (before after : Workspace) (failures : Nat) : Prop where
  idle : config.formatter? language = none ∨ (∀ file ∈ files, file.language ≠ language) →
    after = before ∧ failures = 0
  started : ∀ command, config.formatter? language = some command →
    (∃ file ∈ files, file.language = language) →
      let outcome := programs command ((files.filter (·.language = language)).map fun file =>
        FilePath.join root file.path) before
      after = outcome.1 ∧ failures = if outcome.2 then 0 else 1

section Formats

variable (programs : Programs) (config : Config) (root : String) (files : List File)

theorem pathsOf_eq_nil_iff {language : Language} :
    pathsOf root files language = [] ↔ ∀ file ∈ files, file.language ≠ language := by
  simp [pathsOf, List.filter_eq_nil_iff]

theorem formats_formatFiles (language : Language) (workspace : Workspace) :
    Formats programs config root files language workspace
      (formatFiles programs config root files language workspace).1
      (formatFiles programs config root files language workspace).2 := by
  unfold formatFiles
  cases chosen : config.formatter? language with
  | none => exact ⟨fun _ => ⟨rfl, rfl⟩, fun command found => by rw [chosen] at found; cases found⟩
  | some command =>
    cases paths : pathsOf root files language with
    | nil =>
      have none := (pathsOf_eq_nil_iff root files).mp paths
      exact ⟨fun _ => ⟨rfl, rfl⟩, fun _ _ ⟨file, member, same⟩ => absurd same (none file member)⟩
    | cons path rest =>
      refine ⟨fun idle => ?_, fun other found _ => ?_⟩
      · rcases idle with none | none
        · rw [chosen] at none
          cases none
        · rw [(pathsOf_eq_nil_iff root files).mpr none] at paths
          cases paths
      · cases chosen.symm.trans found
        have whole : (files.filter (·.language = language)).map
            (fun file => FilePath.join root file.path) = path :: rest := paths
        rw [whole]
        exact ⟨rfl, rfl⟩

/-- Where no program does anything, formatting changes nothing. -/
theorem Formats.unchanged_bare {language : Language} {before after : Workspace} {failures : Nat}
    (formats : Formats .bare config root files language before after failures) :
    after = before := by
  cases chosen : config.formatter? language with
  | none => exact (formats.idle (Or.inl chosen)).1
  | some command =>
    by_cases some : ∃ file ∈ files, file.language = language
    · exact (formats.started command chosen some).1
    · exact (formats.idle (Or.inr fun file member same => some ⟨file, member, same⟩)).1

/-- Only the files of two languages are formatted, those in Rust before those in Python. -/
theorem formatAll_formats (workspace : Workspace) :
    ∃ middle after rust python,
      formatAll programs config root files workspace = (after, rust + python) ∧
      Formats programs config root files .rust workspace middle rust ∧
      Formats programs config root files .python middle after python := by
  have unformatted : ∀ language, config.formatter? language = none → ∀ workspace,
      formatFiles programs config root files language workspace = (workspace, 0) := by
    intro language none workspace
    unfold formatFiles
    rw [none]
  have json := unformatted .json rfl
  have yaml := unformatted .yaml rfl
  refine ⟨_, _, _, _, ?_, formats_formatFiles programs config root files .rust workspace,
    formats_formatFiles programs config root files .python _⟩
  simp only [formatAll, Language.all, List.foldl_cons, List.foldl_nil, json, yaml, Nat.zero_add,
    Nat.add_zero]

end Formats

/-! ### Runs -/

/-- What a run leaves of the files that it renders, and what it answers. -/
inductive Outcome (programs : Programs) (config : Config) (root : String) (files : List File)
    (failure : Option Error) (before : Workspace) : Workspace → Except Error Report → Prop where
  /-- The files are all written and then formatted. -/
  | whole {filled middle after : Workspace} {rust python : Nat}
      (holds : before.Holds filled (contentsBelow root files))
      (formatsRust : Formats programs config root files .rust filled middle rust)
      (formatsPython : Formats programs config root files .python middle after python) :
      Outcome programs config root files failure before after
        (failure.elim (.ok {
          written := files.map fun file => FilePath.join root file.path
          unformatted := rust + python }) .error)
  /-- The files before one that something stands in the way of are written. -/
  | stuck {earlier later : List File} {file : File} {middle after : Workspace}
      (rendered : files = earlier ++ file :: later)
      (holds : before.Holds middle (contentsBelow root earlier))
      (blocked : middle.Blocks (FilePath.join root file.path))
      (unchanged : after.files = middle.files) :
      Outcome programs config root files failure before after (.error (.cause .inaccessible))

/-- Where no program does anything, each file of a run that nothing stood in the way of is read as it
was rendered, unless a later one has its place. -/
theorem Outcome.read? {config : Config} {root : String} {files earlier later : List File}
    {file : File} {failure : Option Error} {before after : Workspace}
    {answer : Except Error Report}
    (outcome : Outcome .bare config root files failure before after answer)
    (standing : before.isDirectory before.current = true)
    (free : answer ≠ .error (.cause .inaccessible)) (whole : files = earlier ++ file :: later)
    (last : ∀ other ∈ later, before.target (FilePath.join root other.path) ≠
      before.target (FilePath.join root file.path)) :
    after.read? (FilePath.join root file.path) = some file.contents := by
  cases outcome with
  | stuck => exact absurd rfl free
  | whole holds formatsRust formatsPython =>
    have written : contentsBelow root files =
        contentsBelow root earlier ++
          (FilePath.join root file.path, file.contents) :: contentsBelow root later := by
      rw [whole]
      exact List.map_append
    rw [formatsPython.unchanged_bare, formatsRust.unchanged_bare]
    exact holds.read? standing written (List.forall_mem_map.mpr last)

/-- A request renders files up to a failure and leaves them in the workspace. -/
structure Leaves (session : Session) (config : Config) (request : Request) (files : List File)
    (failure : Option Error) : Prop where
  rendered : (plan session config request).rendering.files = files
  failed : (plan session config request).rendering.failure = failure
  outcome : Outcome session.programs config (plan session config request).root files failure
    session.workspace (execute session config request).1.workspace
    (execute session config request).2

/-- Files are written and formatted, up to the first that cannot be. -/
theorem outcome_writeAll (programs : Programs) (config : Config) (workspace : Workspace)
    (root : String) (files : List File) (failure : Option Error) :
    Outcome programs config root files failure workspace
      (writeAll programs config workspace root files).1
      ((writeAll programs config workspace root files).2.bind fun report =>
        failure.elim (.ok report) .error) := by
  unfold writeAll
  rcases writeFiles_cases workspace root files with
    ⟨filled, written, holds⟩ | ⟨earlier, file, later, middle, after, whole, holds, blocked,
      unchanged, failed⟩
  · obtain ⟨middle, after, rust, python, formatted, formatsRust, formatsPython⟩ :=
      formatAll_formats programs config root files filled
    simp only [written, formatted]
    exact .whole holds formatsRust formatsPython
  · simp only [failed]
    exact .stuck whole holds blocked unchanged

theorem writeAll_nil (programs : Programs) (config : Config) (workspace : Workspace)
    (root : String) : writeAll programs config workspace root [] = (workspace, .ok {}) := by
  have none : ∀ language workspace,
      formatFiles programs config root [] language workspace = (workspace, 0) := by
    intro language workspace
    unfold formatFiles pathsOf
    cases config.formatter? language <;> rfl
  simp only [writeAll, writeFiles, formatAll, Language.all, List.foldl_cons, List.foldl_nil, none]
  rfl

/-- What a plan renders is written, also if there is a failure. -/
theorem execute_of_plan {session : Session} {config : Config} {request : Request}
    {root : String} {rendering : Rendering}
    (planned : plan session config request = { root, rendering }) :
    execute session config request =
      ({ session.after rendering with
          workspace := (writeAll session.programs config session.workspace root
            rendering.files).1 },
        (writeAll session.programs config session.workspace root rendering.files).2.bind
          fun report => rendering.failure.elim (.ok report) .error) := by
  have workspace : (session.after rendering).workspace = session.workspace :=
    Session.workspace_keepAll session rendering.specs
  have programs : (session.after rendering).programs = session.programs :=
    Session.programs_keepAll session rendering.specs
  obtain ⟨files, specs, failure⟩ := rendering
  unfold execute
  simp only [planned, workspace, programs]
  cases failure with
  | none =>
    simp only [Option.isSome_none, Bool.false_and, Bool.false_eq_true, if_false]
    rcases writeAll session.programs config session.workspace root files with
      ⟨after, _ | report⟩ <;> rfl
  | some error =>
    cases files with
    | nil =>
      simp only [Option.isSome_some, List.isEmpty_nil, Bool.and_self, if_true, writeAll_nil]
      rfl
    | cons file rest =>
      simp only [Option.isSome_some, List.isEmpty_cons, Bool.and_false, Bool.false_eq_true,
        if_false]
      rcases writeAll session.programs config session.workspace root (file :: rest) with
        ⟨after, _ | report⟩ <;> rfl

/-- A run leaves what its plan rendered. -/
theorem leaves_of_plan {session : Session} {config : Config} {request : Request}
    {root : String} {rendering : Rendering}
    (planned : plan session config request = { root, rendering }) :
    Leaves session config request rendering.files rendering.failure := by
  refine ⟨congrArg (·.rendering.files) planned, congrArg (·.rendering.failure) planned, ?_⟩
  rw [execute_of_plan planned, planned]
  exact outcome_writeAll _ _ _ _ _ _

section Metadata

variable {session : Session} {config : Config} {request : Request} {path : String}
  {metadata : Metadata} {resources : List (Resource.Id × ResourceEntry)}
  {generate : OperationRequest → Except GenerationError (List File)}

/-- Adds the files that list the modules, unless resources are selected by name. -/
def Request.complete (request : Request) (rendering : Rendering) : Rendering :=
  if request.resourceFilter.isNone then withIndex rendering else rendering

section Selected

variable (document : session.document Metadata.read path = .ok metadata)
  (selected : request.select metadata = .ok resources)

include document selected

theorem selected_of_document :
    (do
      let metadata ← ofCause (session.document Metadata.read path)
      request.select metadata) = .ok resources := by
  rw [document]
  exact selected

/-- A run over metadata takes the pairs of the selected resources one after another. -/
theorem plan_of_pairs (reads : request.ReadsMetadata path)
    (generator : operationGenerator? config request.target = some generate) :
    ∃ root kept, plan session config request = {
      root
      rendering := request.complete (Rendering.forEach
        (pairRendering (session.keepAll kept) (FilePath.directory path) generate)
        (pairs request.target resources)) } := by
  rw [plan_of_generator (Or.inl (by rw [generator]; rfl)), generation_of_readsMetadata reads]
  unfold metadataRendering
  simp only [selected_of_document document selected, generator]
  exact ⟨_, _, rfl⟩

/-- A run for descriptors takes the selected resources themselves. -/
theorem plan_of_resources (reads : request.ReadsMetadata path)
    {generateResource : Generation.ResourceRequest → List File}
    (single : operationGenerator? config request.target = none)
    (generator : resourceGenerator? request.target = some generateResource) :
    ∃ root, plan session config request = {
      root
      rendering := Rendering.forEach
        (fun (resource, entry) => resourceRendering session request.target
          (FilePath.directory path) generateResource resource entry)
        resources } := by
  rw [plan_of_generator (Or.inr (by rw [generator]; rfl)), generation_of_readsMetadata reads]
  unfold metadataRendering
  simp only [selected_of_document document selected, single, generator]
  exact ⟨_, rfl⟩

end Selected

theorem complete_of_failure {rendering : Rendering} {error : Error}
    (failed : rendering.failure = some error) : request.complete rendering = rendering := by
  unfold Request.complete withIndex Rendering.andThen
  rw [failed]
  exact ite_self rendering

theorem complete_of_success {files : List File} {specs : List String} :
    request.complete { files, specs } =
      { files := files ++
          if request.resourceFilter.isNone then
            (ModuleIndex.ofRecords (files.filterMap File.record)).files
          else []
        specs } := by
  unfold Request.complete withIndex Rendering.andThen
  cases request.resourceFilter.isNone <;> simp

/-- The first pair of a run that fails ends it: the files before it are left, all of them modules
and none that lists others, and the failure names the operation and its document. If no pair fails,
the files of all of them are left, and after them those that list these modules, unless resources
are selected by name. -/
theorem metadata_run_leaves (reads : request.ReadsMetadata path)
    (generator : operationGenerator? config request.target = some generate)
    (document : session.document Metadata.read path = .ok metadata)
    (selected : request.select metadata = .ok resources) :
    let directory := FilePath.directory path
    let files := Pair.files session directory generate
    (∀ before failing after results cause,
      pairs request.target resources = before ++ failing :: after →
      before.mapM files = .ok results → files failing = .error cause →
        Leaves session config request results.flatten
            (some (.operation failing.operation.operation
              (specFile directory failing.entry failing.operation) cause)) ∧
          ∀ file ∈ results.flatten, file.record.isSome = true) ∧
      ∀ results, (pairs request.target resources).mapM files = .ok results →
        Leaves session config request
          (results.flatten ++
            if request.resourceFilter.isNone then
              (ModuleIndex.ofRecords (results.flatten.filterMap File.record)).files
            else []) none := by
  obtain ⟨root, kept, planned⟩ := plan_of_pairs document selected reads generator
  intro directory files
  have each : ∀ pair : Pair, ∀ given, files pair = .ok given →
      pairRendering (session.keepAll kept) directory generate pair =
        { files := given, specs := [specFile directory pair.entry pair.operation] } :=
    fun pair given made => pairRendering_of_files given ((files_keepAll kept).trans made)
  constructor
  · intro before failing after results cause whole given failed
    have fails := pairRendering_of_cause ((files_keepAll kept).trans failed)
    rw [whole, Rendering.forEach_failing given (fun pair _ => each pair) fails,
      complete_of_failure rfl] at planned
    refine ⟨leaves_of_plan planned, fun file member => ?_⟩
    obtain ⟨list, inside, member⟩ := List.mem_flatten.mp member
    obtain ⟨pair, -, made⟩ := (mem_mapM given).mp inside
    exact isSome_record_of_files generator made member
  · intro results given
    rw [Rendering.forEach_eq given fun pair _ => each pair, complete_of_success] at planned
    exact leaves_of_plan planned

end Metadata

/-- Zones, of which the metadata lists and shows some. -/
def zonesMetadata : String :=
  "resources:\n" ++
  " dns.zones:\n" ++
  "  spec_file: v2.yaml\n" ++
  "  operations:\n" ++
  "   list:\n" ++
  "    operation_id: list\n" ++
  "    targets:\n" ++
  "     sdk:\n" ++
  "   show:\n" ++
  "    operation_id: show\n" ++
  "    targets:\n" ++
  "     sdk:\n"

/-- The metadata of zones beside a document that has been loaded. -/
def zones (spec : OpenApi.Spec) : Session where
  workspace := {
    current := []
    directories := []
    files := [(["v2.yaml"], ""), (["metadata.yaml"], zonesMetadata)] }
  loaded := [(["v2.yaml"], spec)]

/-- A request for the library of the zones. -/
def zonesRequest : Request where
  target := .sdk
  metadata := some "metadata.yaml"

theorem readsMetadata_zones : zonesRequest.ReadsMetadata "metadata.yaml" :=
  ⟨rfl, rfl, Or.inl rfl, rfl⟩

/-- Zones that are listed and not shown. -/
def listedZones : Session := zones {
  version := "3.1.0"
  paths := [("/v2/zones", OpenApi.PathItem.setOperation {} .get { id := some "list" })] }

/-- The message of an answer that is a failure. -/
def failureMessage? : Except Error Report → Option String
  | .ok _ => none
  | .error error => some error.message

theorem metadata_run_leaves_zones :
    ∃ metadata resources list shown file cause,
      listedZones.document Metadata.read "metadata.yaml" = .ok metadata ∧
        zonesRequest.select metadata = .ok resources ∧
        pairs .sdk resources = [list] ++ shown :: [] ∧
        Pair.files listedZones "" Sdk.generate list = .ok [file] ∧
        file.path = "dns/v2/zones/list.rs" ∧
        Pair.files listedZones "" Sdk.generate shown = .error cause ∧
        Leaves listedZones {} zonesRequest [file] (some (.operation "show" "v2.yaml" cause)) ∧
        (execute listedZones {} zonesRequest).1.workspace.read?
          "./openstack_sdk/src/api/dns/v2/zones/list.rs" = some file.contents := by
  have read : ((listedZones.document Metadata.read "metadata.yaml").toOption.bind fun metadata =>
      (zonesRequest.select metadata).toOption.map fun resources =>
        (pairs .sdk resources).map fun pair =>
          (pair.operation.operation, specFile "" pair.entry pair.operation,
            (pair.files listedZones "" Sdk.generate).toOption.map (List.map File.path))) =
      some [("list", "v2.yaml", some ["dns/v2/zones/list.rs"]), ("show", "v2.yaml", none)] := by
    decide +kernel
  obtain ⟨metadata, document, read⟩ := Option.bind_eq_some_iff.mp read
  obtain ⟨resources, selected, read⟩ := Option.map_eq_some_iff.mp read
  have document := toOption_eq_some.mp document
  have selected := toOption_eq_some.mp selected
  obtain ⟨list, rest, taken, first, read⟩ := List.map_eq_cons_iff.mp read
  obtain ⟨shown, others, rfl, second, nothing⟩ := List.map_eq_cons_iff.mp read
  cases List.map_eq_nil_iff.mp nothing
  simp only [Prod.mk.injEq] at first second
  obtain ⟨files, given, paths⟩ := Option.map_eq_some_iff.mp first.2.2
  have given := toOption_eq_some.mp given
  obtain ⟨file, rfl, path⟩ := List.map_eq_singleton_iff.mp paths
  obtain ⟨named, place, fails⟩ := second
  cases failed : shown.files listedZones "" Sdk.generate with
  | ok files =>
    rw [failed] at fails
    cases fails
  | error cause =>
    have earlier : [list].mapM (Pair.files listedZones "" Sdk.generate) = .ok [[file]] := by
      rw [List.mapM_cons, given]
      rfl
    have generator : operationGenerator? {} zonesRequest.target = some Sdk.generate := rfl
    have stops := (metadata_run_leaves readsMetadata_zones generator document selected).1
    obtain ⟨leaves, -⟩ := stops [list] shown [] [[file]] cause taken earlier failed
    have directory : FilePath.directory "metadata.yaml" = "" := by decide +kernel
    rw [List.flatten_singleton, directory, named, place] at leaves
    refine ⟨metadata, resources, list, shown, file, cause, document, selected, taken, given, path,
      failed, leaves, ?_⟩
    -- The run fails for the operation, so nothing stood in the way of its file.
    have answer : failureMessage? (execute listedZones {} zonesRequest).2 =
        some "operation 'show' (v2.yaml)" := by
      decide +kernel
    have root : (plan listedZones {} zonesRequest).root = "./openstack_sdk/src/api" := by
      decide +kernel
    have below : FilePath.join "./openstack_sdk/src/api" file.path =
        "./openstack_sdk/src/api/dns/v2/zones/list.rs" := by
      rw [path]
      decide +kernel
    have outcome := leaves.outcome
    rw [root] at outcome
    rw [← below]
    refine outcome.read? rfl (fun stuck => ?_) (List.nil_append [file]).symm nofun
    rw [stuck] at answer
    exact absurd answer (by decide)

end ServiceForge.Project
