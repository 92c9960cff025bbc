/-
This file holds route maps, the tables by which a server finds the handler of a
request, and the prose that people write about the operations of a service.
-/

import ServiceForge.OpenApi.Spec.Basic
import ServiceForge.Resource.Path

namespace ServiceForge

open ServiceForge.OpenApi (Method Schema)
open ServiceForge.Text

/-- A route of a service, with the schemas and the versions it is known for. -/
structure Route where
  path : String
  method : Method
  controller : Option String := none
  /-- The action that the body of a request selects. -/
  action : Option String := none
  requestSchema : Option Schema := none
  responseSchema : Option Schema := none
  minVersion : Option String := none
  maxVersion : Option String := none
  status : Option Nat := none
deriving Repr

namespace Route

/-- A path with one slash before each of its segments. -/
def normalPath (path : String) : String := "/" ++ join "/" (segments '/' path)

/-- The id of an operation: its path without a version and braces, and its method. -/
def operationId (path : String) (method : Method) : String :=
  let named := (Resource.unversioned (segments '/' path)).map fun segment =>
    trimEnd (· = '\x7d') (trimStart (· = '\x7b') segment)
  (if named.isEmpty then "root" else join "/" named) ++ ":" ++ method.name

end Route

/-- The routes of one service. -/
structure RouteMap where
  service : String
  version : String
  routes : List Route := []
deriving Repr

namespace RouteMap

/-- The first number of the version (`v2.1` is `2`). -/
def majorVersion (routeMap : RouteMap) : String :=
  (split '.' (trimStart (· = 'v') routeMap.version)).head?.getD ""

end RouteMap

/-- What is written about one operation. -/
structure OperationProse where
  summary : Option String := none
  description : Option String := none
  parameters : OrderedMap String := []
deriving DecidableEq, Repr

/-- Prose by the ids of operations. -/
structure Prose where
  operations : OrderedMap OperationProse := []
deriving DecidableEq, Repr

end ServiceForge
