/-
This file proves that what is written of metadata is read as the same metadata again, and
that the parameters of a target keep what they do not declare.
-/

import ServiceForge.Proofs.Classification
import ServiceForge.Proofs.Document.RoundTrip

namespace ServiceForge

open ServiceForge.Document

theorem Kind.verbatim_read : Verbatim Kind.read Kind.toJson := by
  intro json kind ok
  obtain ⟨name, isName, returned⟩ := bind_eq_ok.mp ok
  cases returned
  rw [Kind.toJson, Kind.name_ofName]
  exact (text_ofJson.mp isName).symm

namespace TargetParameters

/-- The members that the parameters of a target may be written with. -/
def slots (parameters : TargetParameters) : Slots :=
  [("operation_type", parameters.kind.map Kind.toJson),
    ("module_path", parameters.modulePath.map .string),
    ("module_name", parameters.moduleName.map .string),
    ("request_key", parameters.requestKey.map .string),
    ("response_key", parameters.responseKey.map .string),
    ("response_list_item_key", parameters.itemKey.map .string),
    ("operation_name", parameters.operationName.map .string),
    ("list_operation_id", parameters.listOperation.map .string)]

theorem toJson_eq (parameters : TargetParameters) :
    parameters.toJson = .object (parameters.slots.members ++ parameters.rest) := by
  simp only [toJson, Writer.text, Slots.present_eq, ← Slots.members_append, List.cons_append,
    List.nil_append, slots]

theorem faithful_read : Faithful read read toJson (.record .targetParameters) := by
  refine .of_open .targetParameters slots (fun _ => rfl) fun isRead => ?_
  simp only [bind_eq_ok] at isRead
  obtain ⟨kind, isKind, modulePath, isModulePath, moduleName, isModuleName, requestKey,
    isRequestKey, responseKey, isResponseKey, itemKey, isItemKey, operationName, isOperationName,
    listOperation, isListOperation, returned⟩ := isRead
  cases returned
  refine ⟨toJson_eq _, fun rereads rest => ?_⟩
  have kind := rereads.optional Kind.verbatim_read.faithful (fun _ _ => rfl) isKind rfl
  have modulePath := rereads.text isModulePath rfl
  have moduleName := rereads.text isModuleName rfl
  have requestKey := rereads.text isRequestKey rfl
  have responseKey := rereads.text isResponseKey rfl
  have itemKey := rereads.text isItemKey rfl
  have operationName := rereads.text isOperationName rfl
  have listOperation := rereads.text isListOperation rfl
  constructor
  · simp only [bind_eq_ok]
    exact ⟨_, kind.1, _, modulePath.1, _, moduleName.1, _, requestKey.1, _, responseKey.1, _,
      itemKey.1, _, operationName.1, _, listOperation.1, by rw [rest]; rfl⟩
  · simp only [Model.fields, List.forall_mem_cons]
    exact ⟨kind.2, modulePath.2, moduleName.2, requestKey.2, responseKey.2, itemKey.2,
      operationName.2, listOperation.2, List.forall_mem_nil _⟩

end TargetParameters

namespace OperationEntry

/-- Writes the parameters of each target under its name. -/
def targetsToJson (targets : List (Target × TargetParameters)) : Json :=
  .object (targets.map fun entry => (entry.1.name, entry.2.toJson))

/-- Targets are read as a map whose keys are their names. -/
theorem readTargets_ofJson {json : Json} {targets : List (Target × TargetParameters)} :
    ofJson readTargets json = .ok targets ↔
      ofJson (Reader.map TargetParameters.read) json =
        .ok (targets.map fun entry => (entry.1.name, entry.2)) := by
  have named (target : Target) :
      Reader.named (Target.all.map fun target => (target.name, target)) target.name = .ok target := by
    cases target <;> rfl
  constructor
  · intro ok
    obtain ⟨entries, isRead, each⟩ := bind_eq_ok.mp ok
    rw [map_of_mapM (fun converted => ?_) each]
    · exact isRead
    · obtain ⟨target, isTarget, same⟩ := bind_eq_ok.mp converted
      cases same
      rw [(name_of_named isTarget).1]
  · intro isRead
    refine bind_eq_ok.mpr ⟨_, isRead, ?_⟩
    rw [List.mapM_map]
    refine (mapM_eq_ok_map fun entry _ => ?_).trans (congrArg Except.ok (List.map_id targets))
    exact bind_eq_ok.mpr ⟨entry.1, named entry.1, rfl⟩

theorem faithful_readTargets :
    Faithful readTargets readTargets targetsToJson (.map (.record .targetParameters)) where
  again {json targets} ok := by
    have again := TargetParameters.faithful_read.map.again (readTargets_ofJson.mp ok)
    rw [Writer.map, OrderedMap.mapValues, List.map_map] at again
    exact readTargets_ofJson.mpr again
  kept {json targets} keyed ok := by
    have kept := TargetParameters.faithful_read.map.kept keyed (readTargets_ofJson.mp ok)
    rw [Writer.map, OrderedMap.mapValues, List.map_map] at kept
    exact kept

/-- The members that the entry of an operation may be written with. -/
def slots (entry : OperationEntry) : Slots :=
  [("operation_id", some (.string entry.operation)), ("spec_file", entry.specFile.map .string),
    ("operation_type", entry.kind.map Kind.toJson), ("targets", some (targetsToJson entry.targets))]

theorem toJson_eq (entry : OperationEntry) : entry.toJson = .object entry.slots.members := by
  simp only [toJson, Writer.text, Slots.present_eq, Slots.written_eq, ← Slots.members_append,
    List.cons_append, List.nil_append, slots]
  rfl

theorem faithful_read : Faithful read read toJson (.record .operationEntry) := by
  refine .of_closed .operationEntry slots rfl (fun _ => rfl) fun isRead => ?_
  simp only [bind_eq_ok] at isRead
  obtain ⟨operation, isOperation, specFile, isSpecFile, kind, isKind, targets, areTargets,
    returned⟩ := isRead
  cases returned
  refine ⟨toJson_eq _, fun rereads _ => ?_⟩
  have operation := rereads.required verbatim_text.faithful isOperation rfl
  have specFile := rereads.text isSpecFile rfl
  have kind := rereads.optional Kind.verbatim_read.faithful (fun _ _ => rfl) isKind rfl
  have targets := rereads.withDefault faithful_readTargets areTargets rfl
    (.written fun same => by rw [same]; rfl)
  constructor
  · simp only [bind_eq_ok]
    exact ⟨_, operation.1, _, specFile.1, _, kind.1, _, targets.1, rfl⟩
  · simp only [Model.fields, List.forall_mem_cons]
    exact ⟨operation.2, specFile.2, kind.2, targets.2, List.forall_mem_nil _⟩

end OperationEntry

namespace ResourceEntry

/-- The members that the entry of a resource may be written with. -/
def slots (entry : ResourceEntry) : Slots :=
  [("spec_file", some (.string entry.specFile)), ("api_version", entry.apiVersion.map .string),
    ("operations", some (.object (Writer.map OperationEntry.toJson entry.operations))),
    ("extensions", Slots.filledMap (Writer.map id entry.extensions))]

theorem toJson_eq (entry : ResourceEntry) : entry.toJson = .object entry.slots.members := by
  have same : Writer.map id entry.extensions = entry.extensions := List.map_id _
  simp only [toJson, Writer.text, Slots.present_eq, Slots.written_eq, Slots.filledMap_eq,
    ← Slots.members_append, List.cons_append, List.nil_append, slots, same]

theorem faithful_read : Faithful read read toJson (.record .resourceEntry) := by
  refine .of_closed .resourceEntry slots rfl (fun _ => rfl) fun isRead => ?_
  simp only [bind_eq_ok] at isRead
  obtain ⟨specFile, isSpecFile, apiVersion, isApiVersion, operations, areOperations, extensions,
    areExtensions, returned⟩ := isRead
  cases returned
  refine ⟨toJson_eq _, fun rereads _ => ?_⟩
  have specFile := rereads.required verbatim_text.faithful isSpecFile rfl
  have apiVersion := rereads.text isApiVersion rfl
  have operations := rereads.wholeMap OperationEntry.faithful_read areOperations rfl
  have extensions := rereads.map faithful_json areExtensions rfl
  constructor
  · simp only [bind_eq_ok]
    exact ⟨_, specFile.1, _, apiVersion.1, _, operations.1, _, extensions.1, rfl⟩
  · simp only [Model.fields, List.forall_mem_cons]
    exact ⟨specFile.2, apiVersion.2, operations.2, extensions.2, List.forall_mem_nil _⟩

end ResourceEntry

namespace Metadata

/-- The members that metadata is written with. -/
def slots (metadata : Metadata) : Slots :=
  [("resources", some (.object (Writer.map ResourceEntry.toJson metadata.resources)))]

theorem faithful_read : Faithful read read toJson (.record .metadata) := by
  refine .of_closed .metadata slots rfl (fun _ => rfl) fun isRead => ?_
  simp only [bind_eq_ok] at isRead
  obtain ⟨resources, areResources, returned⟩ := isRead
  cases returned
  refine ⟨rfl, fun rereads _ => ?_⟩
  have resources := rereads.wholeMap ResourceEntry.faithful_read areResources rfl
  constructor
  · simp only [bind_eq_ok]
    exact ⟨_, resources.1, rfl⟩
  · simp only [Model.fields, List.forall_mem_cons]
    exact ⟨resources.2, List.forall_mem_nil _⟩

end Metadata

end ServiceForge
