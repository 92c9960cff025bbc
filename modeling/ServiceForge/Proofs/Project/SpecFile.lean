/-
This file proves that metadata leads back to the document that it was made of. The document is
recorded as seen from the directory of the metadata, and each of its operations is later looked
for in the file that leads there from that directory, however the metadata is then named.
-/

import ServiceForge.Proofs.FilePath.Absolute
import ServiceForge.Proofs.Project.LookupCalls
import ServiceForge.Proofs.Project.Modes
import ServiceForge.Proofs.Project.Roots

namespace ServiceForge.Metadata

open ServiceForge.OpenApi (Spec)

/-- Only a resource names the document, and it names the one that it was made of. -/
theorem specFile_of_synthesize {spec : Spec} {service specFile key : String}
    {apiVersion : Option String} {metadata : Metadata} {resource : ResourceEntry}
    (synthesized : synthesize spec service specFile apiVersion = .ok metadata)
    (held : (key, resource) ∈ metadata.resources) {entry : String × OperationEntry}
    (member : entry ∈ resource.operations) :
    resource.specFile = specFile ∧ entry.2.specFile = none := by
  have found := OrderedMap.get?_of_mem (nodup_of_synthesize synthesized) held
  refine ⟨?_, ?_⟩
  · rw [contents_of_synthesize synthesized] at found
    obtain ⟨operations, isHeld, rfl⟩ := Option.map_eq_some_iff.mp found
    rw [addFind_eq, (resourceOf?_eq_some isHeld).1]
  · rcases entry_cases synthesized found member with ⟨operation, own⟩ | ⟨list, shown, -, -, rfl⟩
    · obtain ⟨_, _, _, same⟩ := eq_of_mem_entriesOf own
      rw [same]
      rfl
    · rfl

end ServiceForge.Metadata

namespace ServiceForge.Project

open ServiceForge.FilePath (IsExtension IsStep absoluteSteps)
open ServiceForge.OpenApi (Spec)

/-! ### Places -/

theorem isExtension_metadata : IsExtension "_metadata.yaml" := ⟨by decide, 'm', by decide⟩

/-- Metadata gets the name of a file, and its place is the one that was asked for. -/
theorem isStep_of_metadataPlace {config : Config} {request : Request}
    {service directory name : String}
    (unnested : request.metadata = none → '/' ∉ service.toList)
    (placed : metadataPlace config request service = .ok (directory, name)) :
    (IsStep name ∧ name ≠ "..") ∧ ∀ asked, request.metadata = some asked →
      FilePath.fileName? asked = some name ∧ directory = FilePath.directory asked := by
  unfold metadataPlace at placed
  split at placed
  · next asked given =>
    split at placed
    · next found =>
      cases placed
      refine ⟨FilePath.isStep_of_fileName? found, ?_⟩
      rw [given]
      rintro other ⟨⟩
      exact ⟨found, rfl⟩
    · cases placed
  · next none =>
    cases placed
    have plain : '/' ∉ (service ++ "_metadata.yaml").toList := by
      simp [unnested none]
    refine ⟨⟨⟨plain, isExtension_metadata.isIdle_append service⟩,
      isExtension_metadata.append_ne service (by decide)⟩, ?_⟩
    rw [none]
    rintro other ⟨⟩

/-! ### Synthesis -/

/-- The document, the service, the directory and the name that metadata is synthesized with. -/
def synthesisInputs (config : Config) (request : Request) :
    Except Error (String × String × String × String) := do
  let path ← needed request.openapiSpec .openapiSpec
  let service ← needed request.service .metadataService
  return (path, service, ← metadataPlace config request service)

section Synthesis

variable {session : Session} {config : Config} {request : Request} {path : String}

theorem synthesis_eq : synthesis session config request =
    match synthesisInputs config request with
    | .error error => { root := "", rendering := .ofFailure error }
    | .ok (path, service, directory, name) => {
        root := directory
        rendering := .ofResult [path] <|
          (metadataOfSpec session request path service directory).map fun metadata =>
            [{ path := name, language := .yaml, contents := Yaml.render metadata.toJson }] } :=
  rfl

theorem exists_of_synthesis (given : request.openapiSpec = some path)
    (done : (synthesis session config request).rendering.failure = none) :
    ∃ service directory name metadata, request.service = some service ∧
      metadataPlace config request service = .ok (directory, name) ∧
      metadataOfSpec session request path service directory = .ok metadata ∧
      synthesis session config request = {
        root := directory
        rendering := {
          files := [{
            path := name, language := .yaml, contents := Yaml.render metadata.toJson }]
          specs := [path] } } := by
  rw [synthesis_eq] at done ⊢
  cases inputs : synthesisInputs config request with
  | error error =>
    rw [inputs] at done
    cases done
  | ok found =>
    obtain ⟨other, isGiven, found⟩ := bind_eq_ok.mp inputs
    obtain ⟨service, isService, found⟩ := bind_eq_ok.mp found
    obtain ⟨⟨directory, name⟩, placed, found⟩ := bind_eq_ok.mp found
    cases found
    cases (needed_eq_ok.mp isGiven).symm.trans given
    rw [inputs] at done
    cases made : metadataOfSpec session request path service directory with
    | error error =>
      simp only [made] at done
      cases done
    | ok metadata =>
      refine ⟨service, directory, name, metadata, needed_eq_ok.mp isService, placed, made, ?_⟩
      simp only [made]
      rfl

theorem metadataOfSpec_eq_ok {service directory : String} {metadata : Metadata}
    (made : metadataOfSpec session request path service directory = .ok metadata) :
    ∃ spec, session.spec path = .ok spec ∧
      Metadata.synthesize spec service
        (FilePath.relativeTo session.workspace.current path directory) request.apiVersion =
          .ok metadata := by
  obtain ⟨spec, loaded, made⟩ := bind_eq_ok.mp made
  exact ⟨spec, mapError_eq_ok.mp loaded, mapError_eq_ok.mp made⟩

/-- A plan for metadata holds the metadata of the loaded document, which is recorded as seen from
the directory that the file is put in. -/
theorem exists_of_plan (target : request.target = .metadata)
    (given : request.openapiSpec = some path)
    (done : (plan session config request).rendering.failure = none) :
    ∃ spec service directory name metadata, session.spec path = .ok spec ∧
      request.service = some service ∧
      metadataPlace config request service = .ok (directory, name) ∧
      Metadata.synthesize spec service
        (FilePath.relativeTo session.workspace.current path directory) request.apiVersion =
          .ok metadata ∧
      plan session config request = {
        root := directory
        rendering := {
          files := [{
            path := name, language := .yaml, contents := Yaml.render metadata.toJson }]
          specs := [path] } } := by
  have own : plan session config request = synthesis session config request := by
    rw [plan, target]
  rw [own] at done ⊢
  obtain ⟨service, directory, name, metadata, isService, placed, made, whole⟩ :=
    exists_of_synthesis given done
  obtain ⟨spec, loaded, synthesized⟩ := metadataOfSpec_eq_ok made
  exact ⟨spec, service, directory, name, metadata, loaded, isService, placed, synthesized, whole⟩

end Synthesis

/-! ### The way back -/

/-- Whether each operation of metadata in a file is looked for in the document of a path. -/
def LeadsTo (current : Location) (metadata : Metadata) (file path : String) : Prop :=
  ∀ key resource, (key, resource) ∈ metadata.resources →
    ∀ operation ∈ resource.operations,
      absoluteSteps current (specFile (FilePath.directory file) resource operation.2) =
        absoluteSteps current path

instance (current : Location) (metadata : Metadata) (file path : String) :
    Decidable (LeadsTo current metadata file path) :=
  decidable_of_iff
    (∀ entry ∈ metadata.resources, ∀ operation ∈ entry.2.operations,
      absoluteSteps current (specFile (FilePath.directory file) entry.2 operation.2) =
        absoluteSteps current path)
    Prod.forall

/-- From the directory that a document was recorded for, an operation is looked for in the document
exactly if no step that it is seen by from there has a backslash. -/
theorem absoluteSteps_specFile_iff {current : Location} {spec : Spec}
    {path service directory named key : String} {apiVersion : Option String} {metadata : Metadata}
    {resource : ResourceEntry} {operation : String × OperationEntry}
    (located : ∀ step ∈ current, IsStep step)
    (synthesized : Metadata.synthesize spec service (FilePath.relativeTo current path directory)
      apiVersion = .ok metadata)
    (back : absoluteSteps current (FilePath.directory named) = absoluteSteps current directory)
    (held : (key, resource) ∈ metadata.resources) (member : operation ∈ resource.operations) :
    absoluteSteps current (specFile (FilePath.directory named) resource operation.2) =
        absoluteSteps current path ↔
      ∀ step ∈ FilePath.seenSteps current path directory, '\\' ∉ step.toList := by
  obtain ⟨recorded, none⟩ := Metadata.specFile_of_synthesize synthesized held member
  rw [specFile, none, Option.getD_none, recorded, FilePath.absoluteSteps_join, back]
  exact FilePath.absoluteSteps_relativeTo_iff located directory

/-- Synthesized metadata leads back to its document. The file of the metadata is where the request
asks for it, and from its directory, under whatever name the file is then given, each operation is
looked for in the document that the metadata was made of, unless a step that the document is seen by
from there has a backslash, which is recorded as a slash. No step has one if neither the path of the
document nor the current directory has. A slash in the name of the service would put the file
further down. -/
theorem leadsTo_of_plan {session : Session} {config : Config} {request : Request} {path : String}
    (target : request.target = .metadata) (given : request.openapiSpec = some path)
    (located : ∀ step ∈ session.workspace.current, IsStep step)
    (unnested : request.metadata = none → ∀ service ∈ request.service, '/' ∉ service.toList)
    (done : (plan session config request).rendering.failure = none) :
    let current := session.workspace.current
    let directory := (plan session config request).root
    ∃ file spec service metadata, (plan session config request).rendering.files = [file] ∧
      session.spec path = .ok spec ∧ request.service = some service ∧
      Metadata.synthesize spec service (FilePath.relativeTo current path directory)
        request.apiVersion = .ok metadata ∧
      file.contents = Yaml.render metadata.toJson ∧
      let written := FilePath.join directory file.path
      FilePath.fileName? written = some file.path ∧
        (∀ asked, request.metadata = some asked →
          FilePath.fileName? asked = some file.path ∧
            absoluteSteps current asked = absoluteSteps current written) ∧
        ∀ named, FilePath.fileName? named = some file.path →
          absoluteSteps current named = absoluteSteps current written →
          (∀ key resource, (key, resource) ∈ metadata.resources →
            ∀ operation ∈ resource.operations,
              (absoluteSteps current (specFile (FilePath.directory named) resource operation.2) =
                  absoluteSteps current path ↔
                ∀ step ∈ FilePath.seenSteps current path directory, '\\' ∉ step.toList)) ∧
            ('\\' ∉ path.toList → (∀ step ∈ current, '\\' ∉ step.toList) →
              LeadsTo current metadata named path) := by
  intro current directory
  obtain ⟨spec, service, root, name, metadata, loaded, isService, placed, synthesized, whole⟩ :=
    exists_of_plan target given done
  obtain ⟨⟨isStep, forward⟩, isAsked⟩ :=
    isStep_of_metadataPlace (fun none => unnested none service isService) placed
  have isRoot : directory = root := congrArg Plan.root whole
  have joined := FilePath.absoluteSteps_join_name current directory isStep
  rw [← isRoot] at synthesized isAsked
  refine ⟨_, spec, service, metadata, congrArg (·.rendering.files) whole, loaded, isService,
    synthesized, rfl, FilePath.fileName?_join directory isStep forward,
    fun asked isGiven => ?_, fun named isNamed same => ?_⟩
  · obtain ⟨found, above⟩ := isAsked asked isGiven
    rw [joined, above]
    exact ⟨found, FilePath.absoluteSteps_directory _ found⟩
  · have back : absoluteSteps current (FilePath.directory named) =
        absoluteSteps current directory :=
      List.append_cancel_right
        ((FilePath.absoluteSteps_directory _ isNamed).symm.trans (same.trans joined))
    refine ⟨fun key resource held operation member =>
      absoluteSteps_specFile_iff located synthesized back held member,
      fun plain plainCurrent key resource held operation member => ?_⟩
    refine (absoluteSteps_specFile_iff located synthesized back held member).mpr fun step seen => ?_
    exact FilePath.notMem_of_mem_absoluteSteps plainCurrent plain
      (FilePath.seenSteps_subset current path directory seen)

/-- A session that has loaded the servers from a directory below the current one. -/
def specsSession : Session where
  workspace := {
    current := ["work"]
    directories := [["work"], ["work", "specs"]]
    files := [(["work", "specs", "compute.yaml"], "")] }
  loaded := [(["work", "specs", "compute.yaml"], serverSpec)]

/-- A request for the metadata of the servers beside their document. -/
def specsRequest : Request where
  target := .metadata
  metadata := some "./specs/resources.yaml"
  openapiSpec := some "specs/compute.yaml"
  service := some "compute"

/-- The metadata of servers beside their document leads back to it. -/
theorem leadsTo_of_plan_servers :
    ∃ file metadata, (plan specsSession {} specsRequest).rendering.files = [file] ∧
      Metadata.synthesize serverSpec "compute" "compute.yaml" none = .ok metadata ∧
      file.contents = Yaml.render metadata.toJson ∧
      metadata.resources.map
          (fun entry => (entry.1, entry.2.specFile, OrderedMap.keys entry.2.operations)) =
        [("compute.servers", "compute.yaml", ["list", "show", "pause", "resize", "find"])] ∧
      LeadsTo ["work"] metadata "specs/resources.yaml" "specs/compute.yaml" := by
  have done : (plan specsSession {} specsRequest).rendering.failure = none := by decide +kernel
  have located : ∀ step ∈ specsSession.workspace.current, IsStep step :=
    List.forall_mem_singleton.mpr ⟨by decide, by decide⟩
  obtain ⟨file, spec, service, metadata, files, loaded, isService, synthesized, contents, -, asked,
    leads⟩ := leadsTo_of_plan rfl rfl located (fun none => by cases none) done
  cases isService
  cases (show specsSession.spec "specs/compute.yaml" = .ok serverSpec from rfl).symm.trans loaded
  have seen : FilePath.relativeTo specsSession.workspace.current "specs/compute.yaml"
      (plan specsSession {} specsRequest).root = "compute.yaml" := by
    decide +kernel
  rw [seen] at synthesized
  have made : Metadata.synthesize serverSpec "compute" "compute.yaml" none = .ok metadata :=
    synthesized
  have entries : (Metadata.synthesize serverSpec "compute" "compute.yaml" none).toOption.map
      (fun metadata => metadata.resources.map fun entry =>
        (entry.1, entry.2.specFile, OrderedMap.keys entry.2.operations)) =
        some [("compute.servers", "compute.yaml", ["list", "show", "pause", "resize", "find"])] := by
    decide +kernel
  obtain ⟨name, place⟩ := asked _ rfl
  have named : FilePath.fileName? "specs/resources.yaml" = some "resources.yaml" := by
    decide +kernel
  refine ⟨file, metadata, files, made, contents, ?_,
    (leads "specs/resources.yaml" ?_ ?_).2 (by decide) (by decide)⟩
  · rw [made] at entries
    exact Option.some.inj entries
  · rw [← name]
    decide +kernel
  · rw [← place]
    decide +kernel

/-- Whether a request puts the metadata of a document into a file that does not lead back to it. -/
def LeadsAstray (session : Session) (request : Request) (file path : String) : Prop :=
  ∃ spec service metadata name, session.spec path = .ok spec ∧ request.service = some service ∧
    Metadata.synthesize spec service
      (FilePath.relativeTo session.workspace.current path (plan session {} request).root)
      request.apiVersion = .ok metadata ∧
    (plan session {} request).rendering.files =
      [{ path := name, language := .yaml, contents := Yaml.render metadata.toJson }] ∧
    FilePath.join (plan session {} request).root name = file ∧
    ¬ LeadsTo session.workspace.current metadata file path

theorem leadsAstray_of_plan {session : Session} {request : Request} {spec : Spec}
    {path service directory name : String} (target : request.target = .metadata)
    (given : request.openapiSpec = some path) (isService : request.service = some service)
    (done : (plan session {} request).rendering.failure = none)
    (loaded : session.spec path = .ok spec)
    (placed : metadataPlace {} request service = .ok (directory, name))
    (leads : (Metadata.synthesize spec service
      (FilePath.relativeTo session.workspace.current path directory)
      request.apiVersion).toOption.map (fun metadata => decide
        (LeadsTo session.workspace.current metadata (FilePath.join directory name) path)) =
          some false) :
    LeadsAstray session request (FilePath.join directory name) path := by
  obtain ⟨ownSpec, ownService, root, file, metadata, isOwn, isOwnService, isPlace, synthesized,
    whole⟩ := exists_of_plan target given done
  cases isOwn.symm.trans loaded
  cases isOwnService.symm.trans isService
  cases isPlace.symm.trans placed
  rw [synthesized] at leads
  refine ⟨spec, service, metadata, name, loaded, isService, ?_, ?_, ?_,
    of_decide_eq_false (Option.some.inj leads)⟩ <;> rw [whole]
  exact synthesized

/-- A session in a directory with a backslash in its name, which has loaded the servers there. -/
def backslashSession : Session where
  workspace := {
    current := ["a\\b"]
    directories := [["a\\b"]]
    files := [(["a\\b", "compute.yaml"], "")] }
  loaded := [(["a\\b", "compute.yaml"], serverSpec)]

/-- A request for the metadata of the servers in the current directory. -/
def besideRequest : Request where
  target := .metadata
  metadata := some "resources.yaml"
  openapiSpec := some "compute.yaml"
  service := some "compute"

/-- A session that has loaded the servers from the directory of all metadata. -/
def metadataSession : Session where
  workspace := {
    current := ["work"]
    directories := [["work"], ["work", "metadata"]]
    files := [(["work", "metadata", "compute.yaml"], "")] }
  loaded := [(["work", "metadata", "compute.yaml"], serverSpec)]

/-- A request for the metadata of a service with a slash in its name. -/
def nestedRequest : Request where
  target := .metadata
  openapiSpec := some "metadata/compute.yaml"
  service := some "a/b"

/-- Metadata leads elsewhere if the current directory, which is recorded where the document is not
below the metadata, has a backslash, or if the name of the service has a slash. -/
theorem leadsAstray_backslash_nested :
    LeadsAstray backslashSession besideRequest "resources.yaml" "compute.yaml" ∧
      LeadsAstray metadataSession nestedRequest "./metadata/a/b_metadata.yaml"
        "metadata/compute.yaml" := by
  constructor
  · have loaded : backslashSession.spec "compute.yaml" = .ok serverSpec := rfl
    have placed : metadataPlace {} besideRequest "compute" = .ok ("", "resources.yaml") := rfl
    exact leadsAstray_of_plan rfl rfl rfl (by decide +kernel) loaded placed (by decide +kernel)
  · have loaded : metadataSession.spec "metadata/compute.yaml" = .ok serverSpec := rfl
    have placed : metadataPlace {} nestedRequest "a/b" =
        .ok ("./metadata", "a/b_metadata.yaml") := rfl
    have file : FilePath.join "./metadata" "a/b_metadata.yaml" = "./metadata/a/b_metadata.yaml" :=
      rfl
    rw [← file]
    exact leadsAstray_of_plan rfl rfl rfl (by decide +kernel) loaded placed (by decide +kernel)

end ServiceForge.Project
