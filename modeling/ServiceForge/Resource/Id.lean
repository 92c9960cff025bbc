/-
This file holds the identity of a resource: the type of its service and its name
in the hierarchy of resources.
-/

import ServiceForge.Text.Basic

namespace ServiceForge.Resource

open ServiceForge.Text

/-- The service and the name of a resource. -/
structure Id where
  service : String
  name : String
deriving DecidableEq, Repr

namespace Id

/-- Reads `service.name`; a key without a point has no service. -/
def ofKey (key : String) : Id :=
  match splitOnce? '.' key with
  | some (service, name) => ⟨service, name⟩
  | none => ⟨"", key⟩

/-- The key that a resource has in metadata. -/
def key (id : Id) : String := id.service ++ "." ++ id.name

/-- The resources from the outermost to the resource itself. -/
def segments (id : Id) : List String := Text.segments '/' id.name

/-- The last segment of the name. -/
def leaf (id : Id) : String := id.segments.getLast?.getD id.name

end Id

end ServiceForge.Resource
