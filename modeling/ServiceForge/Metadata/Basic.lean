/-
This file holds the metadata of an API: which operations its resources have and
for which targets each is generated, with what parameters.
-/

import ServiceForge.Json.Basic
import ServiceForge.Kind
import ServiceForge.Target

namespace ServiceForge

/-- How an operation is rendered for one target. -/
structure TargetParameters where
  kind : Option Kind := none
  modulePath : Option String := none
  moduleName : Option String := none
  requestKey : Option String := none
  responseKey : Option String := none
  itemKey : Option String := none
  operationName : Option String := none
  listOperation : Option String := none
  rest : OrderedMap Json := []
deriving Repr

/-- One operation of a resource. -/
structure OperationEntry where
  operation : String
  specFile : Option String := none
  kind : Option Kind := none
  targets : List (Target × TargetParameters) := []
deriving Repr

/-- One resource with its operations in the order of generation. -/
structure ResourceEntry where
  specFile : String
  apiVersion : Option String := none
  operations : OrderedMap OperationEntry := []
  extensions : OrderedMap Json := []
deriving Repr

/-- Resources by their identity. -/
structure Metadata where
  resources : OrderedMap ResourceEntry := []
deriving Repr

end ServiceForge
