/-
This file makes the metadata of an OpenAPI document. Each classified operation
becomes an entry under the resource of its path, named after its kind; an endpoint
for actions becomes an entry for each of them. A resource that can be listed and
shown also gets a lookup.
-/

import ServiceForge.Classification
import ServiceForge.Generation.Media
import ServiceForge.Generation.Variant
import ServiceForge.Metadata.Basic
import ServiceForge.Resource.Id
import ServiceForge.Resource.Path

namespace ServiceForge.Metadata

open ServiceForge.Generation (Variant jsonMedia? responseSchema?)
open ServiceForge.OpenApi (PlacedOperation Schema Spec)

/-! ### Entries of an operation -/

/-- The schema of the body in JSON. -/
def bodySchema? (placed : PlacedOperation) : Option Schema := do
  (← jsonMedia? (← placed.operation.requestContent)).schema

/-- The parameters that follow from the response. -/
def responseParameters (placed : PlacedOperation) (leaf : String) : TargetParameters :=
  let found := (responseSchema? placed).map (Resource.locate · leaf)
  { responseKey := found.bind Resource.Found.key, itemKey := found.bind Resource.Found.itemKey }

/-- An entry for both operation targets; commands take their names from it and nothing else. -/
def entryFor (operation : String) (kind : Kind) (parameters : TargetParameters) :
    OperationEntry :=
  { operation
    kind := some kind
    targets := [(.sdk, parameters), (.cli, {
      moduleName := parameters.moduleName
      operationName := parameters.operationName })] }

/-- The entry of one action. -/
def entryOfAction? (operation : String) (kind : Kind) (leaf : String) (shared : TargetParameters)
    (variant : Variant) : Option (String × OperationEntry) := do
  let action ← variant.action
  return (variant.moduleName, entryFor operation kind { shared with
    moduleName := some variant.moduleName
    operationName := some action
    requestKey := (variant.payload? leaf).bind Prod.snd })

/-- Whether the body of an operation is a union of actions. -/
def isActionUnion (kind : Kind) (body : Option Schema) : Bool :=
  kind = .action && (body.bind (·.annotation? "discriminator")) == some "action"

/-- The entries of an operation with their keys. -/
def entriesOf (placed : PlacedOperation) (operation : String) (kind : Kind) (leaf : String) :
    List (String × OperationEntry) :=
  let body := bodySchema? placed
  let shared := responseParameters placed leaf
  if isActionUnion kind body then
    (Variant.all body kind.name none none).filterMap (entryOfAction? operation kind leaf shared)
  else
    let key := Naming.moduleName kind.name
    [(key, entryFor operation kind { shared with
      moduleName := some key
      requestKey := body.bind fun schema => (Resource.locate schema leaf).key })]

/-! ### Resources -/

/-- An operation that belongs in the metadata, with its id, its kind and its resource. -/
structure Classified where
  placed : PlacedOperation
  operation : String
  kind : Kind
  resource : Resource.Id

/-- Operations without an id, a kind or a resource are left out. -/
def classified? (spec : Spec) (service : String) (placed : PlacedOperation) :
    Option Classified := do
  let operation ← placed.operation.id
  let kind ← (Classification.ofOperation spec placed).kind?
  let name := Resource.pathName placed.path
  if name.isEmpty then none
  else return { placed, operation, kind, resource := ⟨service, name⟩ }

/-- Adds entries to a resource; a key may be used once. -/
def addEntries (resource : Resource.Id) (operations : OrderedMap OperationEntry) :
    List (String × OperationEntry) → Except GenerationError (OrderedMap OperationEntry)
  | [] => return operations
  | (key, entry) :: rest =>
    match operations.get? key with
    | some existing =>
      throw (.nameConflict resource.key key existing.operation entry.operation)
    | none => addEntries resource (operations.insert key entry) rest

/-- Adds the entries of an operation. -/
def addOperation (specFile : String) (apiVersion : Option String)
    (resources : OrderedMap ResourceEntry) (operation : Classified) :
    Except GenerationError (OrderedMap ResourceEntry) := do
  let resource := operation.resource
  let present := (resources.get? resource.key).getD {
    specFile
    apiVersion := apiVersion.or (Resource.pathVersion? operation.placed.path) }
  let operations ← addEntries resource present.operations
    (entriesOf operation.placed operation.operation operation.kind resource.leaf)
  return resources.insert resource.key { present with operations }

/-- The lookup by name of a resource that can be listed and shown. -/
def findEntry (list showItem : OperationEntry) : OperationEntry :=
  { operation := showItem.operation
    kind := some .find
    targets := [(.sdk, {
      moduleName := some Kind.find.name
      listOperation := some list.operation })] }

/-- Adds the operation that finds a resource, if it can be listed and shown. -/
def addFind (resource : ResourceEntry) : ResourceEntry :=
  let operations := resource.operations
  match operations.get? Kind.list.name, operations.get? Kind.showItem.name with
  | some list, some showItem =>
    { resource with
      operations := operations.insertNew Kind.find.name (findEntry list showItem) }
  | _, _ => resource

/-- The metadata of a document. Without a version each resource takes that of its first path. -/
def synthesize (spec : Spec) (service specFile : String) (apiVersion : Option String) :
    Except GenerationError Metadata := do
  let classified := spec.operations.filterMap (classified? spec service)
  let resources ← classified.foldlM (addOperation specFile apiVersion) []
  return { resources := resources.mapValues addFind }

end ServiceForge.Metadata
