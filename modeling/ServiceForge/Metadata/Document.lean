/-
This file reads metadata from documents and writes it.
-/

import ServiceForge.Document.Reader
import ServiceForge.Document.Writer
import ServiceForge.Metadata.Basic

namespace ServiceForge

open ServiceForge.Document

namespace Kind

/-- Reads a kind by its name. -/
def read : Reader Kind := fun mode value => return ofName (← Reader.text mode value)

/-- The name of a kind as JSON. -/
def toJson (kind : Kind) : Json := .string kind.name

end Kind

namespace TargetParameters

/-- Reads the parameters of a target, which may have other fields beside them. -/
def read : Reader TargetParameters := fun mode value => do
  let fields ← Fields.ofOpen
    ["operation_type", "module_path", "module_name", "request_key", "response_key",
      "response_list_item_key", "operation_name", "list_operation_id"]
    mode value
  return {
    kind := ← fields.optional "operation_type" Kind.read
    modulePath := ← fields.optional "module_path" Reader.text
    moduleName := ← fields.optional "module_name" Reader.text
    requestKey := ← fields.optional "request_key" Reader.text
    responseKey := ← fields.optional "response_key" Reader.text
    itemKey := ← fields.optional "response_list_item_key" Reader.text
    operationName := ← fields.optional "operation_name" Reader.text
    listOperation := ← fields.optional "list_operation_id" Reader.text
    rest := fields.rest }

/-- The parameters of a target as a JSON object. -/
def toJson (parameters : TargetParameters) : Json :=
  .object
    (Writer.present "operation_type" Kind.toJson parameters.kind ++
      Writer.text "module_path" parameters.modulePath ++
      Writer.text "module_name" parameters.moduleName ++
      Writer.text "request_key" parameters.requestKey ++
      Writer.text "response_key" parameters.responseKey ++
      Writer.text "response_list_item_key" parameters.itemKey ++
      Writer.text "operation_name" parameters.operationName ++
      Writer.text "list_operation_id" parameters.listOperation ++
      parameters.rest)

end TargetParameters

namespace OperationEntry

/-- Reads the parameters of each target. Only known targets may be named. -/
def readTargets : Reader (List (Target × TargetParameters)) := fun mode value => do
  (← Reader.map TargetParameters.read mode value).mapM fun (name, parameters) => do
    return (← Reader.named (Target.all.map fun target => (target.name, target)) name, parameters)

/-- Reads the entry of an operation, which has no other fields. -/
def read : Reader OperationEntry := fun mode value => do
  let fields ← Fields.ofClosed ["operation_id", "spec_file", "operation_type", "targets"] mode value
  return {
    operation := ← fields.required "operation_id" Reader.text
    specFile := ← fields.optional "spec_file" Reader.text
    kind := ← fields.optional "operation_type" Kind.read
    targets := ← fields.withDefault "targets" [] readTargets }

/-- The entry of an operation as a JSON object. -/
def toJson (entry : OperationEntry) : Json :=
  .object
    ([("operation_id", .string entry.operation)] ++
      Writer.text "spec_file" entry.specFile ++
      Writer.present "operation_type" Kind.toJson entry.kind ++
      [("targets", .object (entry.targets.map fun (target, parameters) =>
        (target.name, parameters.toJson)))])

end OperationEntry

namespace ResourceEntry

/-- Reads the entry of a resource, which has no other fields. -/
def read : Reader ResourceEntry := fun mode value => do
  let fields ← Fields.ofClosed ["spec_file", "api_version", "operations", "extensions"] mode value
  return {
    specFile := ← fields.required "spec_file" Reader.text
    apiVersion := ← fields.optional "api_version" Reader.text
    operations := ← fields.map "operations" OperationEntry.read
    extensions := ← fields.map "extensions" Reader.json }

/-- The entry of a resource as a JSON object. -/
def toJson (entry : ResourceEntry) : Json :=
  .object
    ([("spec_file", .string entry.specFile)] ++
      Writer.text "api_version" entry.apiVersion ++
      [("operations", .object (Writer.map OperationEntry.toJson entry.operations))] ++
      Writer.filledMap "extensions" entry.extensions)

end ResourceEntry

namespace Metadata

/-- Reads metadata, which has no other fields. -/
def read : Reader Metadata := fun mode value => do
  let fields ← Fields.ofClosed ["resources"] mode value
  return { resources := ← fields.map "resources" ResourceEntry.read }

/-- Metadata as a JSON object. -/
def toJson (metadata : Metadata) : Json :=
  .object [("resources", .object (Writer.map ResourceEntry.toJson metadata.resources))]

end Metadata

end ServiceForge
