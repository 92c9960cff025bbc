/-
This file proves that the names of modules are stable. A name that was made for a module stays
as it is when it is made into the name of a module again. Synthesis records such names, as the
keys of operations and for their targets, and both generators name the variants of an operation
from the recorded name as it is.
-/

import ServiceForge.Proofs.Generation.VariantPaths
import ServiceForge.Proofs.Metadata.Entries
import ServiceForge.Proofs.Text.Alphanumeric

namespace ServiceForge.Naming

open ServiceForge.Text

/-- Whether a name is one that is made for modules. -/
def IsModuleName (name : String) : Prop := ∃ segment, moduleName segment = name

theorem isModuleName_moduleName (segment : String) : IsModuleName (moduleName segment) :=
  ⟨segment, rfl⟩

theorem IsModuleName.moduleName_eq {name : String} (isName : IsModuleName name)
    (ascii : IsAscii name) : moduleName name = name := by
  obtain ⟨segment, rfl⟩ := isName
  exact snakeCase_of_isAscii ascii

end ServiceForge.Naming

namespace ServiceForge.Metadata

open ServiceForge.Generation (Variant actionName?)
open ServiceForge.Naming
open ServiceForge.OpenApi (PlacedOperation Schema Spec)

/-! ### Recorded names -/

/-- Whether an entry of a resource has the name of a module as its key, and the same name for each
of its targets. -/
structure RecordsName (entry : String × OperationEntry) : Prop where
  isModuleName : IsModuleName entry.1
  moduleName : ∀ target ∈ entry.2.targets, target.2.moduleName = some entry.1

theorem recordsName_entryFor {name : String} (isName : IsModuleName name) (operation : String)
    (kind : Kind) {parameters : TargetParameters} (recorded : parameters.moduleName = some name) :
    RecordsName (name, entryFor operation kind parameters) where
  isModuleName := isName
  moduleName target member := by
    rcases List.mem_cons.mp member with rfl | member
    · exact recorded
    · rw [List.mem_singleton.mp member]
      exact recorded

/-- A variant that stands for an action is named after it, unless the action is chosen. -/
theorem isModuleName_of_action {body : Option Schema} {base action : String}
    {version : Option String} {variant : Variant}
    (member : variant ∈ Variant.all body base none version) (named : variant.action = some action) :
    IsModuleName variant.moduleName := by
  unfold Variant.all at member
  split at member
  · rw [List.mem_singleton.mp member] at named
    cases named
  simp only at member
  split at member
  · rw [List.mem_singleton.mp member] at named
    cases named
  split at member
  · obtain ⟨branch, -, given⟩ := List.mem_filterMap.mp member
    obtain ⟨action, -, given⟩ := Option.bind_eq_some_iff.mp given
    cases given
    exact isModuleName_moduleName action
  · obtain ⟨⟨branch, index⟩, -, rfl⟩ := List.mem_map.mp member
    cases named

theorem recordsName_of_mem_entriesOf {placed : PlacedOperation} {operation leaf : String}
    {kind : Kind} {entry : String × OperationEntry}
    (member : entry ∈ entriesOf placed operation kind leaf) : RecordsName entry := by
  unfold entriesOf at member
  simp only at member
  split at member
  · obtain ⟨variant, inside, made⟩ := List.mem_filterMap.mp member
    obtain ⟨action, named, given⟩ := Option.bind_eq_some_iff.mp made
    cases given
    exact recordsName_entryFor (isModuleName_of_action inside named) _ _ rfl
  · rw [List.mem_singleton.mp member]
    exact recordsName_entryFor (isModuleName_moduleName _) _ _ rfl

theorem recordsName_of_mem_lookupsOf {operations : OrderedMap OperationEntry}
    {entry : String × OperationEntry} (member : entry ∈ lookupsOf operations) :
    RecordsName entry := by
  have isName : IsModuleName Kind.find.name := ⟨Kind.find.name, by decide⟩
  obtain ⟨-, list, showItem, -, -, rfl⟩ := eq_of_mem_lookupsOf member
  refine ⟨isName, fun target inside => ?_⟩
  rw [List.mem_singleton.mp inside]

/-- Every entry that is synthesized records the name of its module. -/
theorem recordsName_of_synthesize {spec : Spec} {service specFile : String}
    {apiVersion : Option String} {metadata : Metadata}
    (synthesized : synthesize spec service specFile apiVersion = .ok metadata)
    {resource : String × ResourceEntry} (held : resource ∈ metadata.resources)
    {entry : String × OperationEntry} (member : entry ∈ resource.2.operations) :
    RecordsName entry := by
  have found := OrderedMap.get?_of_mem (nodup_of_synthesize synthesized) held
  rw [contents_of_synthesize synthesized] at found
  obtain ⟨before, isBefore, same⟩ := Option.map_eq_some_iff.mp found
  rw [← same, addFind_eq, (resourceOf?_eq_some isBefore).2.1] at member
  rcases List.mem_append.mp member with own | lookup
  · obtain ⟨operation, -, inside⟩ := List.mem_flatMap.mp own
    exact recordsName_of_mem_entriesOf inside
  · exact recordsName_of_mem_lookupsOf lookup

end ServiceForge.Metadata

namespace ServiceForge.Generation

open ServiceForge.Naming
open ServiceForge.OpenApi (PlacedOperation)
open ServiceForge.Text

/-- The name that the metadata give to the module of an operation: the one for the target, or else
the key of the operation. -/
def OperationRequest.recordedName? (request : OperationRequest) : Option String :=
  request.parameters.moduleName.or request.key

theorem OperationRequest.moduleName_of_recordedName? {request : OperationRequest} {name : String}
    (recorded : request.recordedName? = some name) (isName : IsModuleName name)
    (ascii : IsAscii name) (kind : Kind) : request.moduleName kind = name := by
  unfold recordedName? at recorded
  rw [OperationRequest.moduleName, recorded, Option.getD_some, isName.moduleName_eq ascii]

/-- The paths of the modules of an operation with the given names. -/
def modulePaths (request : OperationRequest) (placed : PlacedOperation) (names : List String) :
    List String :=
  names.map fun name => ModuleRecord.path ⟨request.directory placed, name⟩

theorem map_path_records {request : OperationRequest} {placed : PlacedOperation}
    {records : List ModuleRecord} (each : ∀ record ∈ records, RecordOf request placed record) :
    records.map ModuleRecord.path =
      modulePaths request placed (records.map ModuleRecord.name) := by
  rw [modulePaths, List.map_map]
  refine List.map_congr_left fun record member => ?_
  show record.path = ModuleRecord.path ⟨request.directory placed, record.name⟩
  rw [← (each record member).directory]

end ServiceForge.Generation

namespace ServiceForge.Sdk

open ServiceForge.Generation
open ServiceForge.OpenApi (PlacedOperation)

/-- The modules of an operation stand in its directory under their names. -/
theorem paths_of_generate {request : OperationRequest} {placed : PlacedOperation}
    {modules : List File} (found : request.placed = .ok placed)
    (made : generate request = .ok modules) :
    modules.map File.path = modulePaths request placed
      (moduleNames request placed (request.moduleName (request.effectiveKind placed))) := by
  obtain ⟨given, gathered, returned⟩ := bind_eq_ok.mp made
  cases returned
  obtain ⟨_, again, each⟩ := recordOf_of_contexts gathered
  cases found.symm.trans again
  have paths := map_path_records (List.forall_mem_map.mpr each)
  rw [List.map_map, List.map_map] at paths
  rw [← map_moduleName_contexts found gathered, List.map_map]
  exact paths

end ServiceForge.Sdk

namespace ServiceForge.Cli

open ServiceForge.Generation
open ServiceForge.OpenApi (PlacedOperation)

theorem paths_of_generate {sdkCrate : String} {request : OperationRequest}
    {placed : PlacedOperation} {commands : List File} (found : request.placed = .ok placed)
    (made : generate sdkCrate request = .ok commands) :
    commands.map File.path = modulePaths request placed
      (Variant.names (bodySchema? request placed)
        (request.moduleName (request.effectiveKind placed)) request.parameters.operationName) := by
  obtain ⟨given, gathered, returned⟩ := bind_eq_ok.mp made
  cases returned
  obtain ⟨_, again, each⟩ := recordOf_of_contexts gathered
  cases found.symm.trans again
  have paths := map_path_records (List.forall_mem_map.mpr each)
  rw [List.map_map, List.map_map] at paths
  rw [← map_moduleName_contexts found gathered, List.map_map]
  exact paths

end ServiceForge.Cli

namespace ServiceForge.Generation

open ServiceForge.Naming
open ServiceForge.OpenApi (PlacedOperation Spec)
open ServiceForge.Text

/-- A name of ASCII that is made for a module stays as it is when it is made again. Whatever kind an
operation has, the name of its module is the one that is recorded for it, if that was made for a
module; the files of the client library and of the tool are those of its variants from this name.
Synthesis records such names. -/
theorem moduleNames_stable :
    (∀ segment, IsAscii segment → moduleName (moduleName segment) = moduleName segment) ∧
    (∀ (request : OperationRequest) (name : String), request.recordedName? = some name →
      IsModuleName name → IsAscii name →
        (∀ kind, request.moduleName kind = name) ∧
        ∀ placed, request.placed = .ok placed →
          (∀ modules, Sdk.generate request = .ok modules →
            modules.map File.path =
              modulePaths request placed (Sdk.moduleNames request placed name)) ∧
          ∀ sdkCrate commands, Cli.generate sdkCrate request = .ok commands →
            commands.map File.path = modulePaths request placed
              (Variant.names (bodySchema? request placed) name
                request.parameters.operationName)) ∧
    ∀ (spec : Spec) (service specFile : String) (apiVersion : Option String) (metadata : Metadata),
      Metadata.synthesize spec service specFile apiVersion = .ok metadata →
        ∀ resource ∈ metadata.resources, ∀ entry ∈ resource.2.operations,
          Metadata.RecordsName entry := by
  refine ⟨fun segment ascii => moduleName_moduleName ascii, ?_, ?_⟩
  · intro request name recorded isName ascii
    have named := OperationRequest.moduleName_of_recordedName? recorded isName ascii
    refine ⟨named, fun placed found => ⟨fun modules made => ?_, fun sdkCrate commands made => ?_⟩⟩
    · rw [Sdk.paths_of_generate found made, named]
    · rw [Cli.paths_of_generate found made, named]
  · intro spec service specFile apiVersion metadata synthesized resource held entry member
    exact Metadata.recordsName_of_synthesize synthesized held member

/-- A request for zones that can be made in two ways, under a name that is recorded. -/
def namedZone : OperationRequest := { createdZone "2.1" "2.10" with key := some "make_zone_v2" }

theorem moduleNames_stable_zone :
    moduleName (moduleName "HTTPServer2-ID") = moduleName "HTTPServer2-ID" ∧
    ∃ placed modules commands metadata, namedZone.placed = .ok placed ∧
      Sdk.generate namedZone = .ok modules ∧
      Cli.generate Cli.defaultSdkCrate namedZone = .ok commands ∧
      namedZone.moduleName .create = "make_zone_v2" ∧
      modules.map File.path =
        ["dns/v2/zones/make_zone_v2_21.rs", "dns/v2/zones/make_zone_v2_210.rs"] ∧
      commands.map File.path =
        ["dns/v2/zones/make_zone_v2_21.rs", "dns/v2/zones/make_zone_v2_210.rs"] ∧
      Metadata.synthesize namedZone.spec "dns" "v2.yaml" none = .ok metadata ∧
      ∀ resource ∈ metadata.resources, ∀ entry ∈ resource.2.operations,
        Metadata.RecordsName entry := by
  obtain ⟨again, files, records⟩ := moduleNames_stable
  have library : (Sdk.generate namedZone).toOption.isSome = true := by decide +kernel
  have tool : (Cli.generate Cli.defaultSdkCrate namedZone).toOption.isSome = true := by
    decide +kernel
  have described : (Metadata.synthesize namedZone.spec "dns" "v2.yaml" none).toOption.isSome =
      true := by decide +kernel
  obtain ⟨modules, made⟩ := Option.isSome_iff_exists.mp library
  obtain ⟨commands, wrapped⟩ := Option.isSome_iff_exists.mp tool
  obtain ⟨metadata, synthesized⟩ := Option.isSome_iff_exists.mp described
  have made := toOption_eq_some.mp made
  have wrapped := toOption_eq_some.mp wrapped
  have synthesized := toOption_eq_some.mp synthesized
  obtain ⟨named, paths⟩ := files namedZone "make_zone_v2" rfl ⟨"MakeZoneV2", by decide⟩ (by decide)
  obtain ⟨modulePaths, commandPaths⟩ := paths _ rfl
  refine ⟨again "HTTPServer2-ID" (by decide), _, modules, commands, metadata, rfl, made, wrapped,
    named .create, ?_, ?_, synthesized, records _ _ _ _ _ synthesized⟩
  · rw [modulePaths modules made]
    decide +kernel
  · rw [commandPaths _ commands wrapped]
    decide +kernel

end ServiceForge.Generation
