/-
This file says when the files that list modules and the modules themselves are in each
other's way. Modules are written first, then the files that list them; names that fall
together show in the paths, since the names of modules hold no slash and no point.
-/

import ServiceForge.Proofs.FilePath
import ServiceForge.Proofs.Generation.Records
import ServiceForge.Proofs.ModuleIndex
import ServiceForge.Proofs.Project.Validation

namespace ServiceForge.Project

open ServiceForge.Generation (File ModuleIndex ModuleRecord OperationRequest RecordOf)
open ServiceForge.Naming (IsPlain)

/-! ### Runs that come to their end -/

section Runs

variable {session : Session} {config : Config} {request : Request} {path : String}
  {metadata : Metadata} {resources : List (Resource.Id × ResourceEntry)}
  {generate : OperationRequest → Except GenerationError (List File)} {given : Pair → List File}

/-- The files that modules are given, and after them those that list the modules. -/
def tree (modules : List File) : List File :=
  modules ++ (ModuleIndex.ofRecords (modules.filterMap File.record)).files

/-- A run without a failure has read its metadata and selected resources from it. -/
theorem selected_of_plan (reads : request.ReadsMetadata path)
    (generator : operationGenerator? config request.target = some generate)
    (done : (plan session config request).rendering.failure = none) :
    ∃ metadata resources, session.document Metadata.read path = .ok metadata ∧
      request.select metadata = .ok resources := by
  rw [plan_of_generator (Or.inl (generator ▸ rfl)), generation_of_readsMetadata reads] at done
  unfold metadataRendering at done
  cases document : session.document Metadata.read path with
  | error cause =>
    rw [document] at done
    cases done
  | ok metadata =>
    cases selected : request.select metadata with
    | error error =>
      simp only [document, ofCause, Except.mapError, bind, Except.bind, selected] at done
      cases done
    | ok resources => exact ⟨metadata, resources, rfl, selected⟩

variable (reads : request.ReadsMetadata path)
  (generator : operationGenerator? config request.target = some generate)
  (document : session.document Metadata.read path = .ok metadata)
  (selected : request.select metadata = .ok resources)

include reads generator document selected

/-- If no resource is selected by name, pairs that all give files make a tree. -/
theorem plan_of_given (unnamed : request.resourceFilter = none)
    (each : ∀ pair ∈ pairs request.target resources,
      pair.files session (FilePath.directory path) generate = .ok (given pair)) :
    (plan session config request).rendering.failure = none ∧
      (plan session config request).rendering.files =
        tree ((pairs request.target resources).flatMap given) := by
  obtain ⟨root, kept, planned⟩ := plan_of_pairs document selected reads generator
  have rendered : ∀ pair : Pair, ∀ files,
      pair.files session (FilePath.directory path) generate = .ok files →
        pairRendering (session.keepAll kept) (FilePath.directory path) generate pair =
          { files, specs := [specFile (FilePath.directory path) pair.entry pair.operation] } :=
    fun pair files made => pairRendering_of_files files ((files_keepAll kept).trans made)
  rw [planned, Rendering.forEach_eq (mapM_eq_ok_map each) fun pair _ => rendered pair,
    complete_of_success, unnamed, ← List.flatMap_def]
  exact ⟨rfl, rfl⟩

/-- In a run without a failure each pair gives files. -/
theorem given_of_plan (done : (plan session config request).rendering.failure = none) :
    ∃ given : Pair → List File, ∀ pair ∈ pairs request.target resources,
      pair.files session (FilePath.directory path) generate = .ok (given pair) := by
  obtain ⟨root, kept, planned⟩ := plan_of_pairs document selected reads generator
  have each : ∀ pair ∈ pairs request.target resources, ∃ files,
      pair.files session (FilePath.directory path) generate = .ok files := by
    intro pair member
    cases made : pair.files session (FilePath.directory path) generate with
    | ok files => exact ⟨files, rfl⟩
    | error cause =>
      have fails := pairRendering_of_cause ((files_keepAll kept).trans made)
      have failed : ∃ error, (Rendering.forEach
          (pairRendering (session.keepAll kept) (FilePath.directory path) generate)
          (pairs request.target resources)).failure = some error := by
        refine Option.ne_none_iff_exists'.mp fun none => ?_
        have passes := Rendering.failure_of_mem none member
        rw [fails] at passes
        cases passes
      obtain ⟨error, failed⟩ := failed
      rw [planned, complete_of_failure failed, failed] at done
      cases done
  choose! given made using each
  exact ⟨given, made⟩

end Runs

/-! ### Modules -/

/-- Whether a file is a module with plain names. -/
def IsModule (file : File) : Prop :=
  ∃ record : ModuleRecord, file.record = some record ∧ file.path = record.path ∧
    (∀ segment ∈ record.directory, IsPlain segment) ∧ IsPlain record.name

/-- Operations are generated as modules in the directory of the operation. -/
theorem record_of_generator {config : Config} {target : Target}
    {generate : OperationRequest → Except GenerationError (List File)} {request : OperationRequest}
    {files : List File} (generator : operationGenerator? config target = some generate)
    (given : generate request = .ok files) :
    ∃ placed, ∀ file ∈ files, ∃ record, RecordOf request placed record ∧
      file.record = some record ∧ file.path = record.path := by
  cases target with
  | sdk =>
    cases generator
    obtain ⟨contexts, made, returned⟩ := bind_eq_ok.mp given
    cases returned
    obtain ⟨placed, -, each⟩ := Sdk.recordOf_of_contexts made
    refine ⟨placed, fun file member => ?_⟩
    obtain ⟨context, inside, rfl⟩ := List.mem_map.mp member
    exact ⟨context.record, each context inside, rfl, rfl⟩
  | cli =>
    cases generator
    obtain ⟨contexts, made, returned⟩ := bind_eq_ok.mp given
    cases returned
    obtain ⟨placed, -, each⟩ := Cli.recordOf_of_contexts made
    refine ⟨placed, fun file member => ?_⟩
    obtain ⟨context, inside, rfl⟩ := List.mem_map.mp member
    exact ⟨context.record, each context inside, rfl, rfl⟩
  | _ => cases generator

theorem isModule_of_generator {config : Config} {target : Target}
    {generate : OperationRequest → Except GenerationError (List File)} {request : OperationRequest}
    {files : List File} (generator : operationGenerator? config target = some generate)
    (given : generate request = .ok files) {file : File} (member : file ∈ files) :
    IsModule file := by
  obtain ⟨placed, each⟩ := record_of_generator generator given
  obtain ⟨record, made, held, path⟩ := each file member
  exact ⟨record, held, path, fun segment inside =>
    Generation.isPlain_of_mem_directory (made.directory ▸ inside), made.plain⟩

section Pairs

variable {session : Session} {config : Config} {target : Target} {directory : String}
  {generate : OperationRequest → Except GenerationError (List File)} {pair : Pair}
  {files : List File} (generator : operationGenerator? config target = some generate)
  (given : pair.files session directory generate = .ok files) {file : File} (member : file ∈ files)

include generator given member

theorem isModule_of_files : IsModule file := by
  obtain ⟨spec, -, given⟩ := bind_eq_ok.mp given
  exact isModule_of_generator generator (mapError_eq_ok.mp given) member

/-- Without a directory of its own, a module stands below the service of its resource. -/
theorem head?_of_files (own : pair.parameters.modulePath = none) :
    ∃ record, file.record = some record ∧
      record.directory.head? = some (Naming.moduleName pair.resource.service) := by
  obtain ⟨spec, -, given⟩ := bind_eq_ok.mp given
  obtain ⟨placed, each⟩ := record_of_generator generator (mapError_eq_ok.mp given)
  obtain ⟨record, made, held, -⟩ := each file member
  exact ⟨record, held, made.directory ▸ Generation.head?_directory own⟩

end Pairs

end ServiceForge.Project

namespace ServiceForge.Generation

open ServiceForge.FilePath (IsExtension visible)
open ServiceForge.Naming (IsPlain)

/-! ### Paths in a tree -/

theorem slash_notMem_append {base extension : String} (plain : IsPlain base)
    (ending : IsExtension extension) : '/' ∉ (base ++ extension).toList := by
  rw [String.toList_append, List.mem_append]
  exact not_or.mpr ⟨plain.slash_notMem, ending.plain⟩

theorem slash_notMem_concat {pieces : List String} {base extension : String}
    (plain : ∀ piece ∈ pieces, IsPlain piece) (plainBase : IsPlain base)
    (ending : IsExtension extension) :
    ∀ piece ∈ pieces ++ [base ++ extension], '/' ∉ piece.toList :=
  List.forall_mem_append.mpr ⟨fun piece member => (plain piece member).slash_notMem,
    List.forall_mem_singleton.mpr (slash_notMem_append plainBase ending)⟩

theorem isPlain_of_mem_visible {directory : List String}
    (plain : ∀ segment ∈ directory, IsPlain segment) : ∀ segment ∈ visible directory,
    IsPlain segment := fun segment member => plain segment (List.mem_filter.mp member).1

theorem isPlain_mod : IsPlain "mod" := by decide

section Paths

variable {record : ModuleRecord} {directory children : List String}
  (plainDirectory : ∀ segment ∈ directory, IsPlain segment)
  (plain : (∀ segment ∈ record.directory, IsPlain segment) ∧ IsPlain record.name)

include plain in
theorem ModuleRecord.path_eq :
    record.path = Text.join "/" (visible record.directory ++ [record.name ++ ".rs"]) :=
  FilePath.join_ofSegments (fun segment member => (plain.1 segment member).slash_notMem)
    (slash_notMem_append plain.2 .rust)

include plainDirectory in
theorem ModuleIndex.path_fileOfEntry : (fileOfEntry directory children).path =
    Text.join "/" (visible directory ++ ["mod" ++ ".rs"]) :=
  FilePath.join_ofSegments (fun segment member => (plainDirectory segment member).slash_notMem)
    (slash_notMem_append isPlain_mod .rust)

include plainDirectory plain

/-- A file that lists a directory has the path of a module exactly if the module stands in that
directory under the name of such files. -/
theorem ModuleIndex.path_fileOfEntry_eq_iff :
    (fileOfEntry directory children).path = record.path ↔
      visible directory = visible record.directory ∧ record.name = "mod" := by
  have plainListing :=
    slash_notMem_concat (isPlain_of_mem_visible plainDirectory) isPlain_mod .rust
  have plainModule := slash_notMem_concat (isPlain_of_mem_visible plain.1) plain.2 .rust
  rw [path_fileOfEntry plainDirectory, ModuleRecord.path_eq plain,
    FilePath.join_inj (List.concat_ne_nil _ _) (List.concat_ne_nil _ _) plainListing plainModule,
    List.append_singleton_inj, String.append_left_inj]
  exact and_congr_right fun _ => eq_comm

/-- A module stands beside the directory of its name exactly if that directory is listed. -/
theorem ModuleIndex.exists_stem_iff :
    (∃ stem, record.path = stem ++ ".rs" ∧
        (fileOfEntry directory children).path = stem ++ "/mod.rs") ↔
      visible directory = visible record.directory ++ [record.name] := by
  have plainListing :=
    slash_notMem_concat (isPlain_of_mem_visible plainDirectory) isPlain_mod .rust
  have plainStem : ∀ piece ∈ visible record.directory ++ [record.name], IsPlain piece :=
    List.forall_mem_append.mpr
      ⟨isPlain_of_mem_visible plain.1, List.forall_mem_singleton.mpr plain.2⟩
  have plainBelow := slash_notMem_concat plainStem isPlain_mod .rust
  have below : Text.join "/" (visible record.directory ++ [record.name]) ++ "/mod.rs" =
      Text.join "/" (visible record.directory ++ [record.name] ++ ["mod" ++ ".rs"]) := by
    rw [FilePath.join_concat (List.concat_ne_nil _ _), String.append_assoc]
    rfl
  -- The path of the module leaves one stem, so the question is about the listing alone.
  rw [path_fileOfEntry plainDirectory, ModuleRecord.path_eq plain, FilePath.join_concat_append]
  simp only [String.append_left_inj, exists_eq_left']
  rw [below, FilePath.join_inj (List.concat_ne_nil _ _) (List.concat_ne_nil _ _) plainListing
    plainBelow, List.append_singleton_inj, and_iff_left rfl]

end Paths

end ServiceForge.Generation

namespace ServiceForge.Project

open ServiceForge.FilePath (visible)
open ServiceForge.Generation (File ModuleIndex ModuleRecord OperationRequest)

/-! ### Modules and the files that list them -/

/-- Whether a directory has a file that lists the modules in it and below it. -/
def IsListed (records : List ModuleRecord) (directory : List String) : Prop :=
  directory ≠ [] ∧ ∃ record ∈ records, directory <+: record.directory

/-- Whether the paths of a module and of a file that lists modules are related. -/
def Clashes (related : String → String → Prop) (files : List File) : Prop :=
  ∃ module ∈ files, ∃ listing ∈ files,
    module.record.isSome = true ∧ listing.record = none ∧ related module.path listing.path

/-- Whether the paths are those of a module and of the directory that is named like it. -/
def IsBeside (module listing : String) : Prop :=
  ∃ stem, module = stem ++ ".rs" ∧ listing = stem ++ "/mod.rs"

section Clashes

variable {records : List ModuleRecord} {modules : List File}

theorem isListed_iff {directory : List String} :
    IsListed records directory ↔
      ∃ children, (directory, children) ∈ (ModuleIndex.ofRecords records).entries := by
  have found : IsListed records directory ↔ _ := ModuleIndex.isSome_children?.symm
  rw [found, ModuleIndex.children?, (ModuleIndex.ascending_ofRecords records).isSome_lookup,
    Generation.Directories.present, List.mem_map]
  simp

/-- A file that lists modules is no module. -/
theorem record_of_mem_files {index : ModuleIndex} {listing : File}
    (member : listing ∈ index.files) : listing.record = none := by
  obtain ⟨entry, -, rfl⟩ := List.mem_map.mp member
  rfl

theorem filterMap_record_tree :
    (tree modules).filterMap File.record = modules.filterMap File.record := by
  have none : ∀ index : ModuleIndex, index.files.filterMap File.record = [] :=
    fun index => List.filterMap_eq_nil_iff.mpr fun _ => record_of_mem_files
  rw [tree, List.filterMap_append, none, List.append_nil]

variable (each : ∀ file ∈ modules, IsModule file)

include each

theorem isPlain_of_isListed {directory : List String}
    (listed : IsListed (modules.filterMap File.record) directory) :
    ∀ segment ∈ directory, Naming.IsPlain segment := by
  obtain ⟨-, record, held, above⟩ := listed
  obtain ⟨file, member, held⟩ := List.mem_filterMap.mp held
  obtain ⟨_, same, -, plain, -⟩ := each file member
  cases held.symm.trans same
  exact fun segment inside => plain segment (above.subset inside)

/-- Paths in a tree are related as the modules are to the directories that are listed. -/
theorem clashes_tree_iff {related : String → String → Prop}
    {meets : ModuleRecord → List String → Prop}
    (paths : ∀ {record directory children}, (∀ segment ∈ directory, Naming.IsPlain segment) →
      ((∀ segment ∈ record.directory, Naming.IsPlain segment) ∧ Naming.IsPlain record.name) →
        (related record.path (ModuleIndex.fileOfEntry directory children).path ↔
          meets record directory)) :
    Clashes related (tree modules) ↔
      ∃ record ∈ modules.filterMap File.record, ∃ directory,
        IsListed (modules.filterMap File.record) directory ∧ meets record directory := by
  constructor
  · rintro ⟨module, member, listing, memberListing, isSome, isNone, clash⟩
    have inModules := (List.mem_append.mp member).resolve_right fun lists => by
      rw [record_of_mem_files lists] at isSome
      cases isSome
    have inListings := (List.mem_append.mp memberListing).resolve_left fun other => by
      obtain ⟨record, given, -⟩ := each listing other
      exact Option.some_ne_none record (given.symm.trans isNone)
    obtain ⟨record, given, path, plain⟩ := each module inModules
    obtain ⟨⟨directory, children⟩, entry, rfl⟩ := List.mem_map.mp inListings
    have listed := isListed_iff.mpr ⟨children, entry⟩
    rw [path] at clash
    exact ⟨record, List.mem_filterMap.mpr ⟨module, inModules, given⟩, directory, listed,
      (paths (isPlain_of_isListed each listed) plain).mp clash⟩
  · rintro ⟨record, held, directory, listed, meet⟩
    obtain ⟨module, member, held⟩ := List.mem_filterMap.mp held
    obtain ⟨_, same, path, plain⟩ := each module member
    cases held.symm.trans same
    obtain ⟨children, entry⟩ := isListed_iff.mp listed
    refine ⟨module, List.mem_append_left _ member, ModuleIndex.fileOfEntry directory children,
      List.mem_append_right _ (List.mem_map.mpr ⟨_, entry, rfl⟩),
      Option.isSome_iff_exists.mpr ⟨record, held⟩, rfl, ?_⟩
    rw [path]
    exact (paths (isPlain_of_isListed each listed) plain).mpr meet

end Clashes

/-- In a run over all resources of metadata that comes to its end, a file that lists modules takes
the place of a module exactly if that is named like such files and stands in a directory that is
listed, and a module stands beside a directory of its name exactly if that directory is listed. -/
theorem clashes_iff {session : Session} {config : Config} {request : Request} {path : String}
    {generate : OperationRequest → Except GenerationError (List File)}
    (reads : request.ReadsMetadata path)
    (generator : operationGenerator? config request.target = some generate)
    (unnamed : request.resourceFilter = none)
    (done : (plan session config request).rendering.failure = none) :
    let files := (plan session config request).rendering.files
    let records := files.filterMap File.record
    (Clashes Eq files ↔
        ∃ record ∈ records, ∃ directory, IsListed records directory ∧
          visible directory = visible record.directory ∧ record.name = "mod") ∧
      (Clashes IsBeside files ↔
        ∃ record ∈ records, ∃ directory, IsListed records directory ∧
          visible directory = visible record.directory ++ [record.name]) := by
  obtain ⟨metadata, resources, document, selected⟩ := selected_of_plan reads generator done
  obtain ⟨given, each⟩ := given_of_plan reads generator document selected done
  have whole := (plan_of_given reads generator document selected unnamed each).2
  have modules : ∀ file ∈ (pairs request.target resources).flatMap given, IsModule file := by
    intro file member
    obtain ⟨pair, inside, member⟩ := List.mem_flatMap.mp member
    exact isModule_of_files generator (each pair inside) member
  intro files records
  have same : records = ((pairs request.target resources).flatMap given).filterMap File.record :=
    (congrArg _ whole).trans filterMap_record_tree
  rw [same, show files = tree _ from whole]
  exact ⟨clashes_tree_iff modules fun plainDirectory plain =>
      eq_comm.trans (ModuleIndex.path_fileOfEntry_eq_iff plainDirectory plain),
    clashes_tree_iff modules ModuleIndex.exists_stem_iff⟩

theorem clashes_iff_zones :
    let files := (plan shownZones {} zonesRequest).rendering.files
    files.length = 5 ∧ ¬ Clashes Eq files ∧ ¬ Clashes IsBeside files := by
  intro files
  have ran : (plan shownZones {} zonesRequest).rendering.failure.isNone = true ∧
      files.length = 5 ∧ files.filterMap File.record =
        [⟨["dns", "v2", "zones"], "list"⟩, ⟨["dns", "v2", "zones"], "show"⟩] := by
    decide +kernel
  obtain ⟨done, count, records⟩ := ran
  obtain ⟨overwritten, beside⟩ :=
    clashes_iff readsMetadata_zones rfl rfl (Option.isNone_iff_eq_none.mp done)
  refine ⟨count, fun clash => ?_, fun clash => ?_⟩
  · obtain ⟨record, held, directory, -, -, named⟩ := overwritten.mp clash
    rw [records] at held
    revert record
    decide
  · obtain ⟨record, held, directory, ⟨-, other, inside, above⟩, same⟩ := beside.mp clash
    rw [records] at held inside
    have deep : ∀ record ∈ [ModuleRecord.mk ["dns", "v2", "zones"] "list",
        ⟨["dns", "v2", "zones"], "show"⟩], (visible record.directory).length = 3 := by decide
    have flat : (visible directory).length ≤ (visible other.directory).length :=
      (above.filter _).length_le
    rw [same, List.length_append, deep record held, deep other inside] at flat
    exact Nat.not_succ_le_self 3 flat

/-- Zones and their tags. One operation is named like the files that list modules, another one
like the resource of the tags. -/
def taggedZones : Session := { shownZones with
  workspace := {
    current := []
    directories := []
    files := [(["v2.yaml"], ""), (["metadata.yaml"],
      "resources:\n" ++
      " dns.zones:\n" ++
      "  spec_file: v2.yaml\n" ++
      "  operations:\n" ++
      "   mod:\n" ++
      "    operation_id: list\n" ++
      "    targets:\n" ++
      "     sdk:\n" ++
      "   tags:\n" ++
      "    operation_id: show\n" ++
      "    targets:\n" ++
      "     sdk:\n" ++
      " dns.zones/tags:\n" ++
      "  spec_file: v2.yaml\n" ++
      "  operations:\n" ++
      "   list:\n" ++
      "    operation_id: list\n" ++
      "    targets:\n" ++
      "     sdk:\n")] } }

/-- Modules that are all apart from each other can stand where modules are listed. -/
theorem taggedZones_clash :
    let rendering := (plan taggedZones {} zonesRequest).rendering
    rendering.failure = none ∧ (rendering.files.filterMap File.record).Nodup ∧
      Clashes Eq rendering.files ∧ Clashes IsBeside rendering.files := by
  have ran : (plan taggedZones {} zonesRequest).rendering.failure.isNone = true ∧
      (plan taggedZones {} zonesRequest).rendering.files.map
        (fun file => (file.path, file.record)) = [
        ("dns/v2/zones/mod.rs", some ⟨["dns", "v2", "zones"], "mod"⟩),
        ("dns/v2/zones/tags.rs", some ⟨["dns", "v2", "zones"], "tags"⟩),
        ("dns/v2/zones/tags/list.rs", some ⟨["dns", "v2", "zones", "tags"], "list"⟩),
        ("dns/mod.rs", none),
        ("dns/v2/mod.rs", none),
        ("dns/v2/zones/mod.rs", none),
        ("dns/v2/zones/tags/mod.rs", none)] := by
    decide +kernel
  generalize (plan taggedZones {} zonesRequest).rendering = rendering at ran
  obtain ⟨done, entries⟩ := ran
  have held : ∀ {path record}, (path, record) ∈
      rendering.files.map (fun file => (file.path, file.record)) →
        ∃ file ∈ rendering.files, file.path = path ∧ file.record = record := by
    intro path record member
    obtain ⟨file, inside, same⟩ := List.mem_map.mp member
    exact ⟨file, inside, congrArg Prod.fst same, congrArg Prod.snd same⟩
  rw [entries] at held
  obtain ⟨module, inside, path, record⟩ := held (List.mem_of_getElem? (i := 0) rfl)
  obtain ⟨listing, insideListing, pathListing, none⟩ := held (List.mem_of_getElem? (i := 5) rfl)
  obtain ⟨tags, insideTags, pathTags, recordTags⟩ := held (List.mem_of_getElem? (i := 1) rfl)
  obtain ⟨below, insideBelow, pathBelow, noneBelow⟩ := held (List.mem_of_getElem? (i := 6) rfl)
  have distinct : (rendering.files.filterMap File.record).Nodup := by
    have records : rendering.files.filterMap File.record =
        (rendering.files.map fun file => (file.path, file.record)).filterMap Prod.snd := by
      rw [List.filterMap_map]
      rfl
    rw [records, entries]
    decide +kernel
  exact ⟨Option.isNone_iff_eq_none.mp done, distinct,
    ⟨module, inside, listing, insideListing, record ▸ rfl, none, path.trans pathListing.symm⟩,
    tags, insideTags, below, insideBelow, recordTags ▸ rfl, noneBelow,
    "dns/v2/zones/tags", pathTags, pathBelow⟩

end ServiceForge.Project
