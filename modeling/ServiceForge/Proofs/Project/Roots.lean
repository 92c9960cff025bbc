/-
This file says which generated files stand below the root of their target. Modules, the
files that list them and those with fixed directories always do. Files that stand in the
directory of a service do unless the service leaves no name for it: then their paths begin
with a slash, so they are absolute.
-/

import ServiceForge.Proofs.Project.Trees

namespace ServiceForge.FilePath

open ServiceForge.Naming (IsPlain)
open ServiceForge.Text

/-! ### Paths of plain names -/

/-- A path of names without slashes is absolute exactly if the first of them is empty and others
follow. -/
theorem isAbsolute_join_iff {pieces : List String} {last : String}
    (plain : ∀ piece ∈ pieces ++ [last], '/' ∉ piece.toList) :
    isAbsolute (Text.join "/" (pieces ++ [last])) = true ↔ pieces.head? = some "" := by
  cases pieces with
  | nil =>
    have single : Text.join "/" ([] ++ [last]) = last := String.intercalate_singleton
    rw [single, isAbsolute_of_notMem (plain last List.mem_cons_self)]
    simp
  | cons first rest =>
    have whole : Text.join "/" (first :: rest ++ [last]) =
        first ++ ("/" ++ Text.join "/" (rest ++ [last])) := by
      rw [List.cons_append, Text.join, String.intercalate_cons_of_ne_nil (by simp),
        String.append_assoc]
      rfl
    rw [whole, List.head?_cons, Option.some_inj]
    by_cases empty : first = ""
    · subst empty
      refine iff_of_true ?_ rfl
      rw [String.empty_append]
      exact isAbsolute_iff.mpr ⟨_, by rw [String.toList_append]; rfl⟩
    · rw [isAbsolute_append empty, isAbsolute_of_notMem (plain first List.mem_cons_self)]
      exact iff_of_false Bool.false_ne_true empty

section Pieces

variable {pieces : List String} {base extension : String}
  (plain : ∀ piece ∈ pieces, IsPlain piece) (plainBase : IsPlain base)
  (ending : IsExtension extension)

include plain plainBase ending

/-- Plain names lead down if the first of them is not empty. -/
theorem descends_join_iff :
    Descends (Text.join "/" (pieces ++ [base ++ extension])) ↔ pieces.head? ≠ some "" := by
  have noSlash := Generation.slash_notMem_concat plain plainBase ending
  have found := split_join (List.concat_ne_nil _ _) noSlash
  have absolute := isAbsolute_join_iff noSlash
  constructor
  · intro descends first
    exact Bool.false_ne_true (descends.relative.symm.trans (absolute.mpr first))
  · intro first
    refine ⟨Bool.eq_false_iff.mpr fun isAbsolute => first (absolute.mp isAbsolute), ?_, ?_⟩
    · rw [found, List.mem_append, List.mem_singleton]
      refine not_or.mpr ⟨fun member => ?_, (ending.append_ne base (by decide)).symm⟩
      -- Names are made of words, so none of them leads up.
      have point : '.' ∉ "..".toList := (plain ".." member).notMem (by decide) (by decide)
      exact point (by decide)
    · rw [found]
      exact ⟨base ++ extension, by simp, ending.isIdle_append base⟩

end Pieces

/-- Whether a path is one of plain names, the first of which is given. -/
def BeginsWith (top path : String) : Prop :=
  ∃ pieces base extension, (∀ piece ∈ pieces, IsPlain piece) ∧ IsPlain base ∧
    IsExtension extension ∧ path = Text.join "/" (pieces ++ [base ++ extension]) ∧
    (pieces ++ [base ++ extension]).head? = some top

namespace BeginsWith

variable {top path : String} (begins : BeginsWith top path)

include begins

theorem head?_split : (split '/' path).head? = some top := by
  obtain ⟨pieces, base, extension, plain, plainBase, ending, rfl, first⟩ := begins
  have plainAll := Generation.slash_notMem_concat plain plainBase ending
  rw [split_join (List.concat_ne_nil _ _) plainAll, first]

theorem descends_iff : Descends path ↔ top ≠ "" := by
  obtain ⟨pieces, base, extension, plain, plainBase, ending, rfl, first⟩ := begins
  rw [descends_join_iff plain plainBase ending]
  cases pieces with
  | nil =>
    cases first
    exact iff_of_true nofun (ending.append_ne base (by decide))
  | cons piece rest =>
    cases first
    simp

/-- A path that begins with a slash takes the place of what it is joined to. -/
theorem join_eq (empty : top = "") (root : String) : join root path = path := by
  obtain ⟨pieces, base, extension, plain, plainBase, ending, rfl, first⟩ := begins
  have absolute := isAbsolute_join_iff (Generation.slash_notMem_concat plain plainBase ending)
  cases pieces with
  | nil =>
    cases first
    exact absurd empty (ending.append_ne base (by decide))
  | cons piece rest =>
    cases first
    rw [join, absolute.mpr (congrArg some empty), Bool.true_or, if_pos rfl]

end BeginsWith

end ServiceForge.FilePath

namespace ServiceForge.Generation

open ServiceForge.FilePath (BeginsWith IsExtension)
open ServiceForge.Naming (IsPlain isPlain_underscore)

/-! ### Files of resources -/

variable {request : ResourceRequest} {file : File}

theorem isPlain_verb (verb : Descriptor.Verb) : IsPlain verb.name := by cases verb <;> decide

theorem isPlain_serviceModule : IsPlain request.serviceModule := Naming.isPlain_moduleName _

theorem isPlain_resourceModule : IsPlain request.resourceModule := Naming.isPlain_moduleName _

/-- The schema of a resource stands in the directory of its service. -/
theorem beginsWith_schemaFile :
    BeginsWith request.serviceModule (Descriptor.schemaFile request).path := by
  refine ⟨[request.serviceModule], request.resourceModule, ".json",
    List.forall_mem_singleton.mpr isPlain_serviceModule, isPlain_resourceModule, .json, ?_, rfl⟩
  simp [Text.join, Descriptor.schemaFile, String.append_assoc]

/-- Commands stand in the directory of their service, their tests in one of their own. -/
theorem beginsWith_of_commands (member : file ∈ Osc.generate request) :
    BeginsWith request.serviceModule file.path ∨ BeginsWith "tests" file.path := by
  obtain ⟨verb, -, member⟩ := List.mem_flatMap.mp member
  have plain : ∀ piece ∈ [request.serviceModule, Naming.moduleName request.apiVersion,
      request.resourceModule], IsPlain piece := by
    simp [isPlain_serviceModule, isPlain_resourceModule, Naming.isPlain_moduleName]
  simp only [List.mem_cons, List.not_mem_nil, or_false] at member
  rcases member with rfl | rfl
  · refine Or.inl ⟨_, verb.name, ".py", plain, isPlain_verb verb, .python, ?_, rfl⟩
    simp [Text.join, Osc.Command.directory, Osc.Command.ofRequest, String.append_assoc]
  · refine Or.inr ⟨["tests", "unit"] ++ _, "test_" ++ verb.name, ".py",
      List.forall_mem_append.mpr ⟨by decide, plain⟩, .append (by decide) (isPlain_verb verb),
      .python, String.ext_iff.mpr ?_, rfl⟩
    simp [Text.join, Osc.Command.directory, Osc.Command.ofRequest]

/-- Modules and their tests stand in directories of their own. -/
theorem beginsWith_of_modules (member : file ∈ Ansible.generate request) :
    BeginsWith "plugins" file.path ∨ BeginsWith "tests" file.path := by
  obtain ⟨verb, -, member⟩ := List.mem_flatMap.mp member
  have plain : IsPlain (Ansible.Module.ofRequest request verb).name :=
    (((isPlain_serviceModule.append isPlain_underscore).append isPlain_resourceModule).append
      isPlain_underscore).append (isPlain_verb verb)
  simp only [List.mem_cons, List.not_mem_nil, or_false] at member
  rcases member with rfl | rfl
  · refine Or.inl ⟨["plugins", "modules"], _, ".py", by decide, plain, .python,
      String.ext_iff.mpr ?_, rfl⟩
    simp [Text.join]
  · refine Or.inr ⟨["tests", "unit", "plugins", "modules"],
      "test_" ++ (Ansible.Module.ofRequest request verb).name, ".py", by decide,
      .append (by decide) plain, .python, String.ext_iff.mpr ?_, rfl⟩
    simp [Text.join]

/-! ### Modules -/

/-- Modules and the files that list them begin with a name that is not empty. -/
theorem beginsWith_visible {directory : List String} {base extension : String}
    (plain : ∀ segment ∈ directory, IsPlain segment) (plainBase : IsPlain base)
    (ending : IsExtension extension) :
    ∃ top, top ≠ "" ∧
      BeginsWith top (Text.join "/" (FilePath.visible directory ++ [base ++ extension])) := by
  obtain ⟨top, rest, whole⟩ := List.exists_cons_of_ne_nil
    (List.concat_ne_nil (base ++ extension) (FilePath.visible directory))
  refine ⟨top, ?_, _, base, extension, isPlain_of_mem_visible plain, plainBase, ending, rfl,
    congrArg List.head? whole⟩
  have member : top ∈ FilePath.visible directory ++ [base ++ extension] :=
    whole ▸ List.mem_cons_self
  rcases List.mem_append.mp member with shown | last
  · simpa using (List.mem_filter.mp shown).2
  · rw [List.mem_singleton.mp last]
    exact ending.append_ne base (by decide)

end ServiceForge.Generation

namespace ServiceForge.Project

open ServiceForge.FilePath (BeginsWith Descends)
open ServiceForge.Generation (File ModuleIndex OperationRequest ResourceRequest)

theorem beginsWith_of_isModule {file : File} (module : IsModule file) :
    ∃ top, top ≠ "" ∧ BeginsWith top file.path := by
  obtain ⟨record, -, path, plain⟩ := module
  rw [path, Generation.ModuleRecord.path_eq plain]
  exact Generation.beginsWith_visible plain.1 plain.2 .rust

theorem beginsWith_of_mem_tree {modules : List File} (each : ∀ file ∈ modules, IsModule file)
    {file : File} (member : file ∈ tree modules) : ∃ top, top ≠ "" ∧ BeginsWith top file.path := by
  rcases List.mem_append.mp member with module | listing
  · exact beginsWith_of_isModule (each file module)
  · obtain ⟨⟨directory, children⟩, entry, rfl⟩ := List.mem_map.mp listing
    have plain := isPlain_of_isListed each (isListed_iff.mpr ⟨children, entry⟩)
    show ∃ top, top ≠ "" ∧ BeginsWith top (ModuleIndex.fileOfEntry directory children).path
    rw [ModuleIndex.path_fileOfEntry plain]
    exact Generation.beginsWith_visible plain Generation.isPlain_mod .rust

/-! ### What a run generates -/

section Modes

variable {session : Session} {config : Config} {request : Request} {file : File}

/-- What is generated comes from a descriptor, from one operation or from metadata. -/
theorem mem_generation (member : file ∈ (generation session config request).files) :
    (∃ path className files, descriptorFiles session request path className = .ok files ∧
        file ∈ files) ∨
      (∃ path operation,
        file ∈ (operationRendering session config request path operation).files) ∨
      ∃ path, request.metadata = some path ∧
        file ∈ (metadataRendering session config request path).files := by
  unfold generation at member
  split at member
  · next path className _ _ =>
    obtain ⟨files, given, inside⟩ := Rendering.mem_files_ofResult.mp member
    exact Or.inl ⟨path, className, files, given, inside⟩
  · split at member
    · next path operation _ _ => exact Or.inr (Or.inl ⟨path, operation, member⟩)
    · split at member
      · next path named => exact Or.inr (Or.inr ⟨path, named, member⟩)
      · cases member
  · cases member

theorem mem_operationRendering {path operation : String}
    (member : file ∈ (operationRendering session config request path operation).files) :
    ∃ generate service files, operationGenerator? config request.target = some generate ∧
      operationFiles session path operation service request.apiVersion generate = .ok files ∧
      file ∈ files := by
  unfold operationRendering at member
  cases generator : operationGenerator? config request.target with
  | none =>
    rw [generator] at member
    cases member
  | some generate =>
    cases named : request.service with
    | none =>
      rw [generator, named] at member
      cases member
    | some service =>
      rw [generator, named] at member
      obtain ⟨files, given, inside⟩ := Rendering.mem_files_ofResult.mp member
      exact ⟨generate, service, files, rfl, mapError_eq_ok.mp given, inside⟩

theorem resourceGenerator?_eq_none {target : Target}
    {generate : OperationRequest → Except GenerationError (List File)}
    (generator : operationGenerator? config target = some generate) :
    resourceGenerator? target = none := by
  cases target with
  | sdk | cli => rfl
  | _ => cases generator

theorem mem_withIndex {rendering : Rendering} (member : file ∈ (withIndex rendering).files) :
    file ∈ tree rendering.files :=
  List.mem_append.mpr (Rendering.mem_files_andThen member)

theorem isModule_of_mem_forEach {directory : String} {pairs : List Pair}
    {generate : OperationRequest → Except GenerationError (List File)}
    (generator : operationGenerator? config request.target = some generate)
    (member : file ∈ (Rendering.forEach (pairRendering session directory generate) pairs).files) :
    IsModule file := by
  obtain ⟨pair, -, made⟩ := Rendering.mem_files_forEach member
  obtain ⟨files, given, held⟩ := Rendering.mem_files_ofResult.mp made
  exact isModule_of_files generator (mapError_eq_ok.mp given) held

/-- What is generated for operations in metadata is a module or lists the modules before it. -/
theorem mem_tree_of_metadata {path : String}
    {generate : OperationRequest → Except GenerationError (List File)}
    (generator : operationGenerator? config request.target = some generate)
    (member : file ∈ (metadataRendering session config request path).files) :
    ∃ modules : List File, (∀ module ∈ modules, IsModule module) ∧ file ∈ tree modules := by
  unfold metadataRendering at member
  simp only [generator] at member
  split at member
  · cases member
  · split at member
    · refine ⟨_, ?_, mem_withIndex member⟩
      exact fun module => isModule_of_mem_forEach generator
    · refine ⟨_, ?_, List.mem_append_left _ member⟩
      exact fun module => isModule_of_mem_forEach generator

/-- What is generated for operations begins with a name that is not empty. -/
theorem beginsWith_of_operations
    {generate : OperationRequest → Except GenerationError (List File)}
    (generator : operationGenerator? config request.target = some generate)
    (member : file ∈ (generation session config request).files) :
    ∃ top, top ≠ "" ∧ BeginsWith top file.path := by
  rcases mem_generation member with ⟨path, className, files, given, -⟩ |
    ⟨path, operation, member⟩ | ⟨path, -, member⟩
  · obtain ⟨other, made, -⟩ := bind_eq_ok.mp given
    rw [resourceGenerator?_eq_none generator] at made
    cases made
  · obtain ⟨other, service, files, same, given, inside⟩ := mem_operationRendering member
    cases generator.symm.trans same
    obtain ⟨spec, -, given⟩ := bind_eq_ok.mp given
    obtain ⟨placed, -, given⟩ := bind_eq_ok.mp given
    exact beginsWith_of_isModule (isModule_of_generator generator (mapError_eq_ok.mp given) inside)
  · obtain ⟨modules, each, inside⟩ := mem_tree_of_metadata generator member
    exact beginsWith_of_mem_tree each inside

/-- Whether a request names a service or selects a resource of it. -/
def Request.IsFor (request : Request) (session : Session) (service : String) : Prop :=
  request.service = some service ∨ ∃ path metadata, request.metadata = some path ∧
    session.document Metadata.read path = .ok metadata ∧
    ∃ entry ∈ request.selection metadata, entry.1.service = service

theorem eq_selection_of_select {metadata : Metadata}
    {resources : List (Resource.Id × ResourceEntry)}
    (selected : request.select metadata = .ok resources) :
    resources = request.selection metadata := by
  simp only [Request.select] at selected
  split at selected
  · cases selected
  · exact (Except.ok.inj selected).symm

theorem needed_eq_ok {α : Type} {input : Option α} {usage : Usage} {value : α} :
    needed input usage = .ok value ↔ input = some value := by
  cases input with
  | none => exact iff_of_false nofun nofun
  | some given => exact ⟨fun same => congrArg some (Except.ok.inj same), by rintro ⟨⟩; rfl⟩

/-- What is generated for a resource is generated from its descriptor. -/
theorem exists_resourceRequest {generate : ResourceRequest → List File}
    (single : operationGenerator? config request.target = none)
    (generator : resourceGenerator? request.target = some generate)
    (member : file ∈ (generation session config request).files) :
    ∃ resourceRequest, file ∈ generate resourceRequest ∧
      request.IsFor session resourceRequest.service := by
  rcases mem_generation member with ⟨path, className, files, given, inside⟩ |
    ⟨path, operation, member⟩ | ⟨path, named, member⟩
  · obtain ⟨other, made, given⟩ := bind_eq_ok.mp given
    cases generator.symm.trans (needed_eq_ok.mp made)
    obtain ⟨service, named, given⟩ := bind_eq_ok.mp given
    obtain ⟨descriptors, -, given⟩ := bind_eq_ok.mp given
    obtain ⟨descriptor, -, returned⟩ := bind_eq_ok.mp given
    cases returned
    exact ⟨_, inside, Or.inl (needed_eq_ok.mp named)⟩
  · obtain ⟨other, service, files, same, -⟩ := mem_operationRendering member
    cases single.symm.trans same
  · unfold metadataRendering at member
    simp only [single, generator] at member
    split at member
    · cases member
    · next resources selected =>
      obtain ⟨metadata, document, selected⟩ := bind_eq_ok.mp selected
      obtain ⟨⟨resource, entry⟩, held, inside⟩ := Rendering.mem_files_forEach member
      unfold resourceRendering at inside
      split at inside
      · obtain ⟨files, given, inside⟩ := Rendering.mem_files_ofResult.mp inside
        obtain ⟨descriptor, -, rfl⟩ := map_eq_ok.mp given
        rw [eq_selection_of_select selected] at held
        exact ⟨_, inside, Or.inr ⟨path, metadata, named, mapError_eq_ok.mp document,
          (resource, entry), held, rfl⟩⟩
      · cases inside

end Modes

/-- Schemas and commands stand in the directory of their service, other files of a resource in
directories of their own. -/
theorem beginsWith_of_resource {target : Target} {generate : ResourceRequest → List File}
    (generator : resourceGenerator? target = some generate) {request : ResourceRequest}
    {file : File} (member : file ∈ generate request) :
    ∃ top, BeginsWith top file.path ∧ (target ≠ .jsonschema ∧ top ≠ "" ∨
      (target = .jsonschema ∨ target = .osc) ∧ top = request.serviceModule) := by
  cases target with
  | jsonschema =>
    cases generator
    rw [List.mem_singleton.mp member]
    exact ⟨_, Generation.beginsWith_schemaFile, Or.inr ⟨Or.inl rfl, rfl⟩⟩
  | osc =>
    cases generator
    rcases Generation.beginsWith_of_commands member with command | test
    · exact ⟨_, command, Or.inr ⟨Or.inr rfl, rfl⟩⟩
    · exact ⟨_, test, Or.inl ⟨nofun, by decide⟩⟩
  | ansible =>
    cases generator
    rcases Generation.beginsWith_of_modules member with module | test
    · exact ⟨_, module, Or.inl ⟨nofun, by decide⟩⟩
    · exact ⟨_, test, Or.inl ⟨nofun, by decide⟩⟩
  | _ => cases generator

theorem beginsWith_of_generation {session : Session} {config : Config} {request : Request}
    {file : File}
    (takes : (operationGenerator? config request.target).isSome = true ∨
      (resourceGenerator? request.target).isSome = true)
    (member : file ∈ (generation session config request).files) :
    ∃ top, BeginsWith top file.path ∧ (request.target ≠ .jsonschema ∧ top ≠ "" ∨
      (request.target = .jsonschema ∨ request.target = .osc) ∧
        ∃ service, request.IsFor session service ∧ top = Naming.moduleName service) := by
  cases single : operationGenerator? config request.target with
  | some generate =>
    obtain ⟨top, filled, begins⟩ := beginsWith_of_operations single member
    refine ⟨top, begins, Or.inl ⟨fun target => ?_, filled⟩⟩
    rw [target] at single
    cases single
  | none =>
    rw [single] at takes
    obtain ⟨generate, generator⟩ := Option.isSome_iff_exists.mp (takes.resolve_left nofun)
    obtain ⟨resource, inside, own⟩ := exists_resourceRequest single generator member
    obtain ⟨top, begins, stands⟩ := beginsWith_of_resource generator inside
    exact ⟨top, begins, stands.imp_right (And.imp_right fun same => ⟨_, own, same⟩)⟩

/-- The path of a generated file begins with a name. If that is not empty, the file stands below
the root, whatever the root is; if it is empty, the path is absolute and the root does not count.
It is the directory of the service for schemas, and it is empty only for a schema or a command
whose service leaves no name for a directory. -/
theorem files_below_root {session : Session} {config : Config} {request : Request}
    (takes : request.target ∈ [.sdk, .cli, .jsonschema, .osc, .ansible]) {file : File}
    (member : file ∈ (plan session config request).rendering.files) :
    ∃ top, (Text.split '/' file.path).head? = some top ∧
      (top ≠ "" → Descends file.path ∧ FilePath.steps file.path ≠ [] ∧
        ∀ (workspace : Workspace) (root : String),
          workspace.target (FilePath.join root file.path) =
            workspace.target root ++ FilePath.steps file.path) ∧
      (top = "" → (request.target = .jsonschema ∨ request.target = .osc) ∧
        (∃ service, request.IsFor session service ∧ Naming.moduleName service = "") ∧
        ∀ root, FilePath.join root file.path = file.path) ∧
      (request.target = .jsonschema →
        ∃ service, request.IsFor session service ∧ top = Naming.moduleName service) := by
  have generator : (operationGenerator? config request.target).isSome = true ∨
      (resourceGenerator? request.target).isSome = true := by
    revert takes
    cases request.target <;> simp [operationGenerator?, resourceGenerator?]
  rw [plan_of_generator generator] at member
  obtain ⟨top, begins, stands⟩ := beginsWith_of_generation generator member
  refine ⟨top, begins.head?_split, fun filled => ?_, fun empty => ?_, fun schema => ?_⟩
  · have descends := begins.descends_iff.mpr filled
    exact ⟨descends, descends.steps_ne_nil, fun workspace root =>
      Workspace.target_join descends⟩
  · obtain ⟨own, service, isFor, same⟩ := stands.resolve_left fun filled => filled.2 empty
    exact ⟨own, ⟨service, isFor, same.symm.trans empty⟩, begins.join_eq empty⟩
  · exact (stands.resolve_left fun other => other.1 schema).2

/-- A descriptor of zones, and metadata with a resource that has no service. -/
def describedZones : Session where
  workspace := {
    current := []
    directories := []
    files := [
      (["zones.yaml"],
        "resources:\n" ++
        " zone:\n" ++
        "  name: zone\n"),
      (["metadata.yaml"],
        "resources:\n" ++
        " zone:\n" ++
        "  spec_file: v2.yaml\n" ++
        "  operations:\n" ++
        "   show:\n" ++
        "    operation_id: show\n" ++
        "    targets:\n" ++
        "     jsonschema:\n" ++
        "  extensions:\n" ++
        "   descriptor:\n" ++
        "    name: zone\n")] }

theorem files_below_root_zone :
    ∃ file ∈ (plan describedZones {} {
        target := .jsonschema, descriptors := some "zones.yaml", className := some "zone",
        service := some "dns" }).rendering.files,
      file.path = "dns/zone.json" ∧ ∀ (workspace : Workspace) (root : String),
        workspace.target (FilePath.join root "dns/zone.json") =
          workspace.target root ++ ["dns", "zone.json"] := by
  have ran : "dns/zone.json" ∈ (plan describedZones {} {
      target := .jsonschema, descriptors := some "zones.yaml", className := some "zone",
      service := some "dns" }).rendering.files.map File.path := by
    decide +kernel
  obtain ⟨file, member, path⟩ := List.mem_map.mp ran
  obtain ⟨top, first, below, -⟩ := files_below_root (by decide) member
  rw [path] at first below
  have dns : some "dns" = some top := Eq.trans (by decide +kernel) first
  have steps : FilePath.steps "dns/zone.json" = ["dns", "zone.json"] := by decide +kernel
  obtain ⟨-, -, leads⟩ := below (by rw [← Option.some.inj dns]; decide)
  exact ⟨file, member, path, fun workspace root => steps ▸ leads workspace root⟩

/-- The schema of a resource without a service stands at the top of all files. -/
theorem schema_escapes :
    ∃ file ∈ (plan describedZones {} {
        target := .jsonschema, metadata := some "metadata.yaml" }).rendering.files,
      ¬ Descends file.path ∧ ∀ root, FilePath.join root file.path = "/zone.json" := by
  have ran : "/zone.json" ∈ (plan describedZones {} {
      target := .jsonschema, metadata := some "metadata.yaml" }).rendering.files.map File.path := by
    decide +kernel
  obtain ⟨file, member, path⟩ := List.mem_map.mp ran
  have absolute : FilePath.isAbsolute "/zone.json" = true := rfl
  refine ⟨file, member, fun descends => ?_, fun root => ?_⟩
  · have relative := descends.relative
    rw [path, absolute] at relative
    cases relative
  · rw [path, FilePath.join, absolute, Bool.true_or, if_pos rfl]

end ServiceForge.Project
