/-
This file holds OpenAPI documents after their references were resolved, and the
questions that the generators ask of them: the operations in document order, the
parameters of an operation, and the named components.
-/

import ServiceForge.OpenApi.Method
import ServiceForge.OpenApi.Schema.Basic

namespace ServiceForge.OpenApi

open ServiceForge.Text

/-! ### Media types -/

namespace MediaType

/-- The media type of JSON. -/
def json : String := "application/json"

/-- The media type of binary content. -/
def binary : String := "application/octet-stream"

/-- The media type of patches in JSON. -/
def jsonPatch : String := "application/json-patch+json"

/-- The form of JSON patches that the image service prefers. -/
def imageJsonPatch : String := "application/openstack-images-v2.1-json-patch"

end MediaType

/-- A payload in one media type. -/
structure Media where
  schema : Option Schema := none
  rest : OrderedMap Json := []
deriving Repr

/-- Payloads by media type. -/
abbrev Content := OrderedMap Media

namespace Content

/-- The schema of the payload in a media type. -/
def schema? (content : Content) (mediaType : String) : Option Schema :=
  (content.get? mediaType).bind Media.schema

end Content

/-! ### Parameters -/

/-- Where a parameter stands in a request. -/
inductive Location where
  | path
  | query
  | header
  | cookie
deriving DecidableEq, Repr

namespace Location

/-- All locations of parameters. -/
def all : List Location := [path, query, header, cookie]

/-- The name of a location. -/
def name : Location → String
  | path => "path"
  | query => "query"
  | header => "header"
  | cookie => "cookie"

end Location

/-- A parameter of an operation. -/
structure Parameter where
  name : String
  location : Location
  description : Option String := none
  required : Bool := false
  style : Option String := none
  explode : Option Bool := none
  schema : Option Schema := none
  rest : OrderedMap Json := []
deriving Repr

namespace Parameter

/-- Whether an array is sent as one query value with commas. The style of a query parameter is
`form` unless given, and a form explodes unless told otherwise. -/
def isCommaSeparated (parameter : Parameter) : Bool :=
  parameter.location = .query && parameter.style.getD "form" == "form" &&
    parameter.explode == some false

end Parameter

/-! ### Operations -/

/-- A header of a response. -/
structure Header where
  description : Option String := none
  schema : Option Schema := none
  rest : OrderedMap Json := []
deriving Repr

/-- A response of an operation. -/
structure Response where
  description : Option String := none
  headers : OrderedMap Header := []
  content : Content := []
  rest : OrderedMap Json := []
deriving Repr

/-- The body of a request. -/
structure RequestBody where
  description : Option String := none
  content : Content := []
  required : Bool := false
  rest : OrderedMap Json := []
deriving Repr

/-- An operation of a document. -/
structure Operation where
  id : Option String := none
  summary : Option String := none
  description : Option String := none
  tags : List String := []
  parameters : List Parameter := []
  requestBody : Option RequestBody := none
  responses : OrderedMap Response := []
  rest : OrderedMap Json := []
deriving Repr

namespace Operation

instance : Inhabited Operation := ⟨{}⟩

/-- The content that an operation takes, by media type. -/
def requestContent (operation : Operation) : Option Content :=
  operation.requestBody.map RequestBody.content

/-- The first response with a status code of success. -/
def success? (operation : Operation) : Option (String × Response) :=
  operation.responses.find? fun response => startsWith "2" response.1

/-- The OpenStack annotations of an operation. -/
def annotations (operation : Operation) : Option (OrderedMap Json) := annotations? operation.rest

end Operation

/-- A path of a document, with an operation for each of its methods. -/
structure PathItem where
  parameters : List Parameter := []
  operation : Method → Option Operation := fun _ => none
  rest : OrderedMap Json := []

namespace PathItem

/-- The operations of a path in the order of methods. -/
def operations (item : PathItem) : List (Method × Operation) :=
  Method.all.filterMap fun method =>
    (item.operation method).map fun operation => (method, operation)

/-- Sets the operation of a method. -/
def setOperation (item : PathItem) (method : Method) (operation : Operation) : PathItem :=
  { item with
    operation := fun other => if other = method then some operation else item.operation other }

end PathItem

/-! ### Documents -/

/-- What a document defines for use by name. -/
structure Components where
  schemas : OrderedMap Schema := []
  parameters : OrderedMap Parameter := []
  headers : OrderedMap Header := []
  rest : OrderedMap Json := []
deriving Repr

namespace Components

/-- Whether a document defines nothing for use by name. -/
def isEmpty (components : Components) : Bool :=
  components.schemas.isEmpty && components.parameters.isEmpty && components.headers.isEmpty &&
    components.rest.isEmpty

end Components

/-- An OpenAPI document. -/
structure Spec where
  version : String
  info : Json := .null
  paths : OrderedMap PathItem := []
  components : Components := {}
  rest : OrderedMap Json := []

/-- An operation together with where it stands in a document. -/
structure PlacedOperation where
  path : String
  method : Method
  item : PathItem
  operation : Operation

namespace PlacedOperation

/-- The parameters of the path and those of the operation, which take precedence over parameters
of the path with the same name and location. -/
def parameters (placed : PlacedOperation) : List Parameter :=
  let own := placed.operation.parameters
  let shared := placed.item.parameters.filter fun parameter =>
    !own.any fun other => other.name == parameter.name && other.location = parameter.location
  shared ++ own

end PlacedOperation

namespace Spec

/-- The operations in document order. -/
def operations (spec : Spec) : List PlacedOperation :=
  spec.paths.flatMap fun (path, item) =>
    item.operations.map fun (method, operation) => { path, method, item, operation }

/-- The first operation with the given id. -/
def findOperation? (spec : Spec) (id : String) : Option PlacedOperation :=
  spec.operations.find? fun placed => placed.operation.id == some id

/-- The schema of a component. -/
def schema? (spec : Spec) (name : String) : Option Schema := spec.components.schemas.get? name

/-- The parameter of a component. -/
def parameter? (spec : Spec) (name : String) : Option Parameter :=
  spec.components.parameters.get? name

end Spec

/-- Whether one of the paths continues the given one by a parameter segment. -/
def hasChildItem (paths : List String) (path : String) : Bool :=
  let start := trimEnd (· = '/') path ++ "/\x7b"
  paths.any (startsWith start)

/-- Whether a document has a path that goes on with the id of an item. -/
def Spec.hasChildItem (spec : Spec) (path : String) : Bool :=
  OpenApi.hasChildItem spec.paths.keys path

end ServiceForge.OpenApi
