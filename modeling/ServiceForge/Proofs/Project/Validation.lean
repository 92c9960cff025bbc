/-
This file proves that metadata which was found valid can be generated from as far as its
documents and operations go: a later run over it, for whatever target, loads every
document that it needs and finds every operation in it. It also says which ids are
counted when metadata is found not to be valid.
-/

import Mathlib.Algebra.GroupWithZero.Nat
import ServiceForge.Project.Execution
import ServiceForge.Proofs.Generation.Lookups
import ServiceForge.Proofs.Project.Runs

namespace ServiceForge.Project

open ServiceForge.Generation (File OperationRequest ResourceRequest)

/-! ### Failures -/

/-- A document cannot be loaded, or lacks an operation. -/
def Cause.IsUnresolved : Cause → Prop
  | .inaccessible | .unloadable _ | .ungenerable (.operationNotFound _) => True
  | _ => False

/-- A failure for such a cause. -/
def Error.IsUnresolved : Error → Prop
  | .cause reason | .operation _ _ reason => reason.IsUnresolved
  | _ => False

theorem isUnresolved_ungenerable {reason : GenerationError} :
    (Cause.ungenerable reason).IsUnresolved ↔
      ∃ operation, reason = .operationNotFound operation := by
  cases reason <;> simp [Cause.IsUnresolved]

/-! ### Sessions -/

/-- A session whose files are read as those of an earlier one. -/
structure Session.Unchanged (session later : Session) : Prop where
  content : ∀ path, later.content path = session.content path
  spec : ∀ path, later.spec path = session.spec path

namespace Session.Unchanged

variable {session later : Session}

/-- Documents that are kept change nothing else. -/
theorem keepAll (session : Session) (paths : List String) :
    session.Unchanged (session.keepAll paths) where
  content := content_of_workspace (workspace_keepAll session paths)
  spec := spec_keepAll session paths

/-- A session that is unchanged reads the same models. -/
theorem document (unchanged : session.Unchanged later) {α : Type} (read : Document.Reader α)
    (path : String) : later.document read path = session.document read path := by
  unfold Session.document
  rw [unchanged.content]

end Session.Unchanged

/-! ### Ids -/

section Ids

variable {session : Session} {directory : String}
  {resources : List (Resource.Id × ResourceEntry)}

/-- The ids of an operation of a resource are checked. -/
theorem mem_namedOperations {resource : Resource.Id} {entry : ResourceEntry} {key id : String}
    {operation : OperationEntry} (member : (resource, entry) ∈ resources)
    (held : (key, operation) ∈ entry.operations) (named : id ∈ namedIds operation) :
    ⟨id, specFile directory entry operation⟩ ∈ namedOperations directory resources :=
  List.mem_flatMap.mpr ⟨_, member, List.mem_flatMap.mpr
    ⟨operation, List.mem_map_of_mem held, List.mem_map_of_mem named⟩⟩

/-- An id is found exactly if its document can be loaded and has it. -/
theorem resolves_iff {named : NamedOperation} :
    resolves session named = true ↔
      ∃ spec, session.spec named.specFile = .ok spec ∧
        (spec.findOperation? named.id).isSome = true := by
  unfold resolves
  cases session.spec named.specFile <;> simp

/-- How many of the ids that resources name are not found in the documents of their operations. -/
def unresolvedCount (session : Session) (directory : String)
    (resources : List (Resource.Id × ResourceEntry)) : Nat :=
  (resources.map fun (_, entry) =>
    (entry.operations.values.map fun operation =>
      (namedIds operation).countP fun id =>
        !resolves session ⟨id, specFile directory entry operation⟩).sum).sum

/-- The named ids that are not found are as many as the resources leave unresolved. -/
theorem countP_namedOperations :
    (namedOperations directory resources).countP (fun named => !resolves session named) =
      unresolvedCount session directory resources := by
  unfold namedOperations unresolvedCount
  simp only [List.countP_flatMap, List.countP_map, Function.comp_def]

/-- No id is left unresolved exactly if each is found. -/
theorem unresolvedCount_eq_zero :
    unresolvedCount session directory resources = 0 ↔
      ∀ named ∈ namedOperations directory resources, resolves session named = true := by
  rw [← countP_namedOperations, List.countP_eq_zero]
  simp

end Ids

/-! ### Validation -/

section Validation

variable {session : Session} {request : Request}

theorem resolves_keepAll (paths : List String) (named : NamedOperation) :
    resolves (session.keepAll paths) named = resolves session named := by
  unfold resolves
  rw [Session.spec_keepAll]

/-- The ids that a validation checks, if it comes to it. -/
def checkedIds (session : Session) (request : Request) : Except Error (List NamedOperation) := do
  let path ← needed request.metadata .validateMetadata
  let metadata ← ofCause (session.document Metadata.read path)
  return namedOperations (FilePath.directory path) (← request.select metadata)

/-- The checked ids are those that the selected resources name. -/
theorem checkedIds_eq_ok {named : List NamedOperation}
    (given : checkedIds session request = .ok named) :
    ∃ path metadata resources, request.metadata = some path ∧
      session.document Metadata.read path = .ok metadata ∧
      request.select metadata = .ok resources ∧
      named = namedOperations (FilePath.directory path) resources := by
  obtain ⟨path, found, given⟩ := bind_eq_ok.mp given
  obtain ⟨metadata, document, given⟩ := bind_eq_ok.mp given
  obtain ⟨resources, selected, returned⟩ := bind_eq_ok.mp given
  cases returned
  refine ⟨path, metadata, resources, ?_, mapError_eq_ok.mp document, selected, rfl⟩
  cases metadata : request.metadata with
  | none =>
    rw [metadata] at found
    cases found
  | some other =>
    rw [metadata] at found
    cases found
    rfl

theorem checkedIds_ne_validation {failed checked : Nat} :
    checkedIds session request ≠ .error (.validation failed checked) := by
  intro given
  rcases bind_eq_error.mp given with lacking | ⟨path, -, given⟩
  · cases metadata : request.metadata with
    | none =>
      rw [metadata] at lacking
      cases lacking
    | some path =>
      rw [metadata] at lacking
      cases lacking
  rcases bind_eq_error.mp given with unread | ⟨metadata, -, given⟩
  · obtain ⟨cause, -, other⟩ := mapError_eq_error.mp unread
    cases other
  rcases bind_eq_error.mp given with unknown | ⟨resources, -, given⟩
  · unfold Request.select at unknown
    simp only at unknown
    split at unknown
    · cases unknown
    · cases unknown
  · cases given

/-- A validation counts the ids that are not found, once it knows which to check. -/
theorem validate_eq : validate session request =
    match checkedIds session request with
    | .error error => (session, .error error)
    | .ok named =>
      (session.keepAll (named.map NamedOperation.specFile),
        let failed := named.countP fun operation => !resolves session operation
        if failed = 0 then .ok named.length else .error (.validation failed named.length)) := by
  show (match checkedIds session request with | .error error => _ | .ok named => _) = _
  cases checkedIds session request with
  | error error => rfl
  | ok named =>
    simp only [resolves_keepAll, List.countP_eq_length_filter]
    split <;> rfl

/-- Validation leaves the files as they are. -/
theorem unchanged_validate (session : Session) (request : Request) :
    session.Unchanged (validate session request).1 := by
  rw [validate_eq]
  cases checkedIds session request with
  | error error => exact ⟨fun _ => rfl, fun _ => rfl⟩
  | ok named => exact .keepAll session _

end Validation

/-! ### Runs -/

section Runs

variable {session : Session} {config : Config} {target : Target} {directory : String}
  {resources : List (Resource.Id × ResourceEntry)}
  {generate : OperationRequest → Except GenerationError (List File)}

/-- Each target misses only what a request lacks. -/
theorem generator_missesOnly (generator : operationGenerator? config target = some generate)
    (request : OperationRequest) : MissesOnly request.Lacks (generate request) := by
  cases target with
  | sdk =>
    cases generator
    exact Sdk.generate_missesOnly request
  | cli =>
    cases generator
    exact Cli.generate_missesOnly config.sdkCrate request
  | _ => cases generator

/-- What searches for no operation in vain is not unresolved when it fails. -/
theorem not_unresolved_of_missesOnly {α : Type} {result : Except GenerationError α} {cause : Cause}
    (misses : MissesOnly (fun _ => False) result)
    (failed : result.mapError Cause.ungenerable = .error cause) : ¬ cause.IsUnresolved := by
  obtain ⟨reason, missed, rfl⟩ := mapError_eq_error.mp failed
  intro unresolved
  obtain ⟨operation, rfl⟩ := isUnresolved_ungenerable.mp unresolved
  exact misses operation missed

theorem mem_of_showOperation? {entry : ResourceEntry} {operation : OperationEntry}
    (shown : showOperation? entry = some operation) :
    ∃ key, (key, operation) ∈ entry.operations := by
  obtain ⟨⟨other, kind⟩, found, rfl⟩ := Option.map_eq_some_iff.mp shown
  obtain ⟨⟨key, held⟩, member, same⟩ := List.mem_map.mp (List.mem_of_find?_eq_some found)
  cases same
  exact ⟨key, member⟩

/-- The reasons for which a resource has no descriptor. -/
theorem resourceDescriptor_fails {resource : Resource.Id} {entry : ResourceEntry} {error : Error}
    (failed : (resourceDescriptor session directory resource entry).2 = .error error) :
    (∃ reason, error = .cause (.invalidDescriptor reason)) ∨
      error = .cause (.ungenerable (.missingDescriptor resource.key)) ∨
      ∃ operation cause, showOperation? entry = some operation ∧
        error = .operation operation.operation (specFile directory entry operation) cause ∧
        (session.spec (specFile directory entry operation) = .error cause ∨
          ∃ spec, session.spec (specFile directory entry operation) = .ok spec ∧
            (Descriptor.ofOperation spec operation.operation resource.leaf).mapError
              Cause.ungenerable = .error cause) := by
  unfold resourceDescriptor at failed
  cases given : entry.extensions.get? descriptorKey with
  | some value =>
    simp only [given] at failed
    obtain ⟨cause, invalid, rfl⟩ := mapError_eq_error.mp failed
    obtain ⟨reason, -, rfl⟩ := mapError_eq_error.mp invalid
    exact Or.inl ⟨reason, rfl⟩
  | none =>
    simp only [given] at failed
    cases shown : showOperation? entry with
    | none =>
      simp only [shown] at failed
      exact Or.inr (Or.inl (Except.error.inj failed).symm)
    | some operation =>
      simp only [shown] at failed
      obtain ⟨cause, underived, rfl⟩ := mapError_eq_error.mp failed
      refine Or.inr (Or.inr ⟨operation, cause, rfl, rfl, ?_⟩)
      rcases bind_eq_error.mp underived with unloaded | ⟨spec, loaded, underived⟩
      · exact Or.inl unloaded
      · refine Or.inr ⟨spec, loaded, ?_⟩
        rcases bind_eq_error.mp underived with underived | ⟨descriptor, -, returned⟩
        · exact underived
        · cases returned

section Resolved

variable (resolved : ∀ named ∈ namedOperations directory resources, resolves session named = true)

include resolved

/-- The ids of an operation are found in its document. -/
theorem found_of_resolved {resource : Resource.Id} {entry : ResourceEntry} {key : String}
    {operation : OperationEntry} (member : (resource, entry) ∈ resources)
    (held : (key, operation) ∈ entry.operations) :
    ∃ spec, session.spec (specFile directory entry operation) = .ok spec ∧
      ∀ id ∈ namedIds operation, spec.findOperation? id ≠ none := by
  have each : ∀ id ∈ namedIds operation, ∃ spec,
      session.spec (specFile directory entry operation) = .ok spec ∧
        (spec.findOperation? id).isSome = true := by
    intro id named
    have found := resolves_iff.mp (resolved _ (mem_namedOperations member held named))
    exact found
  obtain ⟨spec, loaded, -⟩ := each operation.operation List.mem_cons_self
  refine ⟨spec, loaded, fun id named absent => ?_⟩
  obtain ⟨other, loadedAgain, found⟩ := each id named
  cases loaded.symm.trans loadedAgain
  rw [absent] at found
  cases found

/-- A pair fails neither for its document nor for an operation that is not in it. -/
theorem not_unresolved_of_pair (generator : operationGenerator? config target = some generate)
    {pair : Pair} {cause : Cause} (member : pair ∈ pairs target resources)
    (failed : pair.files session directory generate = .error cause) : ¬ cause.IsUnresolved := by
  obtain ⟨⟨resource, entry⟩, inside, made⟩ := List.mem_flatMap.mp member
  obtain ⟨⟨key, operation⟩, held, made⟩ := List.mem_filterMap.mp made
  obtain ⟨parameters, listed, rfl⟩ := Option.map_eq_some_iff.mp made
  obtain ⟨spec, loaded, found⟩ := found_of_resolved resolved inside held
  rcases bind_eq_error.mp failed with unloaded | ⟨other, loadedAgain, failed⟩
  · cases loaded.symm.trans unloaded
  · cases loaded.symm.trans loadedAgain
    refine not_unresolved_of_missesOnly (fun id missed => ?_) failed
    obtain ⟨absent, named⟩ := generator_missesOnly generator _ id missed
    refine found id ?_ absent
    rcases named with rfl | listing
    · exact List.mem_cons_self
    · obtain ⟨before, after, whole, -⟩ := List.lookup_eq_some_iff.mp listed
      have inTargets : (target, parameters) ∈ operation.targets := by
        rw [whole]
        exact List.mem_append_right _ List.mem_cons_self
      exact List.mem_cons_of_mem _ (List.mem_filterMap.mpr ⟨_, inTargets, listing⟩)

/-- A descriptor fails neither for the document of the operation that shows the resource nor for that
operation. -/
theorem not_unresolved_of_descriptor {resource : Resource.Id} {entry : ResourceEntry} {error : Error}
    (member : (resource, entry) ∈ resources)
    (failed : (resourceDescriptor session directory resource entry).2 = .error error) :
    ¬ error.IsUnresolved := by
  rcases resourceDescriptor_fails failed with ⟨reason, rfl⟩ | rfl |
    ⟨operation, cause, shown, rfl, reason⟩
  · exact not_false
  · exact not_false
  obtain ⟨key, held⟩ := mem_of_showOperation? shown
  obtain ⟨spec, loaded, found⟩ := found_of_resolved resolved member held
  rcases reason with unloaded | ⟨other, loadedAgain, underived⟩
  · cases loaded.symm.trans unloaded
  · cases loaded.symm.trans loadedAgain
    refine not_unresolved_of_missesOnly (fun id missed => ?_) underived
    obtain ⟨rfl, absent⟩ := Descriptor.ofOperation_missesOnly _ _ _ id missed
    exact found _ List.mem_cons_self absent

theorem not_unresolved_of_resource {generateResource : ResourceRequest → List File}
    {resource : Resource.Id} {entry : ResourceEntry} {error : Error}
    (member : (resource, entry) ∈ resources)
    (failed : (resourceRendering session target directory generateResource resource
      entry).failure = some error) : ¬ error.IsUnresolved := by
  unfold resourceRendering at failed
  split at failed
  · refine not_unresolved_of_descriptor resolved member ?_
    cases given : (resourceDescriptor session directory resource entry).2 with
    | ok descriptor =>
      simp only [given] at failed
      cases failed
    | error other =>
      simp only [given] at failed
      exact congrArg Except.error (Option.some.inj failed)
  · cases failed

end Resolved

end Runs

/-! ### Runs after a validation -/

/-- A run over metadata that a request validates, with the same filters. -/
structure Request.Follows (run request : Request) (path : String) : Prop where
  validated : request.metadata = some path
  reads : run.ReadsMetadata path
  service : run.serviceFilter = request.serviceFilter
  resource : run.resourceFilter = request.resourceFilter
  target : run.target ∈ [Target.sdk, .cli, .jsonschema, .osc, .ansible]

section Follows

variable {session later : Session} {config : Config} {run request : Request} {path : String}
  {metadata : Metadata} {resources : List (Resource.Id × ResourceEntry)}

/-- A run that follows a validation selects the same resources. -/
theorem Request.Follows.select (follows : run.Follows request path) :
    run.select metadata = request.select metadata := by
  unfold Request.select Request.selection Request.selects Request.filterText
  rw [follows.service, follows.resource]

/-- A run generates for operations or else for resources. -/
theorem Request.Follows.generators (follows : run.Follows request path) (config : Config) :
    (∃ generate, operationGenerator? config run.target = some generate) ∨
      operationGenerator? config run.target = none ∧
        ∃ generate, resourceGenerator? run.target = some generate := by
  have target := follows.target
  simp only [List.mem_cons, List.not_mem_nil, or_false] at target
  rcases target with target | target | target | target | target
  all_goals rw [target]
  · exact Or.inl ⟨_, rfl⟩
  · exact Or.inl ⟨_, rfl⟩
  · exact Or.inr ⟨rfl, _, rfl⟩
  · exact Or.inr ⟨rfl, _, rfl⟩
  · exact Or.inr ⟨rfl, _, rfl⟩

theorem failure_complete {rendering : Rendering} {error : Error}
    (failed : (request.complete rendering).failure = some error) :
    rendering.failure = some error := by
  unfold Request.complete at failed
  split at failed
  · rcases Rendering.failure_andThen failed with failed | none
    · exact failed
    · cases none
  · exact failed

/-- A run finds the documents and the operations if all ids of its resources are found. -/
theorem leaves_of_resolved (follows : run.Follows request path)
    (document : session.document Metadata.read path = .ok metadata)
    (selected : run.select metadata = .ok resources)
    (resolved : ∀ named ∈ namedOperations (FilePath.directory path) resources,
      resolves session named = true) :
    ∃ files failure, Leaves session config run files failure ∧
      ∀ error, failure = some error → ¬ error.IsUnresolved := by
  rcases follows.generators config with ⟨generate, generator⟩ | ⟨single, generate, generator⟩
  · obtain ⟨root, kept, planned⟩ := plan_of_pairs document selected follows.reads generator
    refine ⟨_, _, leaves_of_plan planned, fun error failed => ?_⟩
    obtain ⟨pair, member, failed⟩ := Rendering.failure_forEach (failure_complete failed)
    cases given : pair.files session (FilePath.directory path) generate with
    | ok files =>
      rw [pairRendering_of_files files ((files_keepAll kept).trans given)] at failed
      cases failed
    | error cause =>
      rw [pairRendering_of_cause ((files_keepAll kept).trans given)] at failed
      cases failed
      exact not_unresolved_of_pair resolved generator member given
  · obtain ⟨root, planned⟩ := plan_of_resources document selected follows.reads single generator
    refine ⟨_, _, leaves_of_plan planned, fun error failed => ?_⟩
    obtain ⟨⟨resource, entry⟩, member, failed⟩ := Rendering.failure_forEach failed
    exact not_unresolved_of_resource resolved member failed

end Follows

/-- Metadata that is valid has no run with the same filters and the same files, for whatever target,
that fails for want of a document or an operation. Metadata that is not valid is reported with the
number of the ids that are not found, over all operations of the selected resources and all targets
of these. -/
theorem validate_sound (session : Session) (request : Request) :
    (∀ count, (validate session request).2 = .ok count →
      ∀ later config run path, session.Unchanged later → run.Follows request path →
        ∃ files failure, Leaves later config run files failure ∧
          ∀ error, failure = some error → ¬ error.IsUnresolved) ∧
      ∀ failed checked, (validate session request).2 = .error (.validation failed checked) →
        ∃ path metadata resources, request.metadata = some path ∧
          session.document Metadata.read path = .ok metadata ∧
          request.select metadata = .ok resources ∧
          failed = unresolvedCount session (FilePath.directory path) resources := by
  rw [validate_eq]
  cases checks : checkedIds session request with
  | error error =>
    refine ⟨nofun, fun failed checked invalid => ?_⟩
    cases Except.error.inj invalid
    exact absurd checks checkedIds_ne_validation
  | ok named =>
    obtain ⟨path, metadata, resources, given, document, selected, rfl⟩ := checkedIds_eq_ok checks
    simp only [countP_namedOperations]
    constructor
    · intro count valid later config run other unchanged follows
      cases given.symm.trans follows.validated
      have none : unresolvedCount session (FilePath.directory path) resources = 0 := by
        by_contra some
        rw [if_neg some] at valid
        cases valid
      have resolved : ∀ named ∈ namedOperations (FilePath.directory path) resources,
          resolves later named = true := by
        intro named member
        have same : resolves later named = resolves session named := by
          unfold resolves
          rw [unchanged.spec]
        exact same.trans (unresolvedCount_eq_zero.mp none named member)
      exact leaves_of_resolved follows ((unchanged.document _ _).trans document)
        (follows.select.trans selected) resolved
    · intro failed checked invalid
      refine ⟨path, metadata, resources, given, document, selected, ?_⟩
      split at invalid
      · cases invalid
      · cases invalid
        rfl

/-- Zones that are listed and shown. -/
def shownZones : Session := zones {
  version := "3.1.0"
  paths := [
    ("/v2/zones", OpenApi.PathItem.setOperation {} .get { id := some "list" }),
    ("/v2/zones/\x7bid\x7d", OpenApi.PathItem.setOperation {} .get { id := some "show" })] }

theorem validate_sound_zones :
    (validate shownZones zonesRequest).2 = .ok 2 ∧
      (∃ files failure,
        Leaves (validate shownZones zonesRequest).1 {} zonesRequest files failure ∧
          ∀ error, failure = some error → ¬ error.IsUnresolved) ∧
      (validate listedZones zonesRequest).2 = .error (.validation 1 2) ∧
      ∃ path metadata resources, zonesRequest.metadata = some path ∧
        listedZones.document Metadata.read path = .ok metadata ∧
        zonesRequest.select metadata = .ok resources ∧
        1 = unresolvedCount listedZones (FilePath.directory path) resources := by
  have answers : (validate shownZones zonesRequest).2.toOption = some 2 ∧
      (match (validate listedZones zonesRequest).2 with
      | .error (.validation failed checked) => some (failed, checked)
      | _ => none) = some (1, 2) := by decide +kernel
  obtain ⟨valid, counted⟩ := answers
  have valid := toOption_eq_some.mp valid
  have invalid : (validate listedZones zonesRequest).2 = .error (.validation 1 2) := by
    split at counted
    · next failed checked given =>
      cases counted
      exact given
    · cases counted
  have follows : zonesRequest.Follows zonesRequest "metadata.yaml" :=
    ⟨rfl, readsMetadata_zones, rfl, rfl, List.mem_cons_self⟩
  exact ⟨valid,
    (validate_sound shownZones zonesRequest).1 2 valid _ {} zonesRequest _
      (unchanged_validate shownZones zonesRequest) follows,
    invalid, (validate_sound listedZones zonesRequest).2 1 2 invalid⟩

end ServiceForge.Project
