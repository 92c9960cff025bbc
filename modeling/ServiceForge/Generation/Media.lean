/-
This file finds the payloads of an operation: how the body of its request is
sent, and the schema of its response.
-/

import ServiceForge.GenerationError
import ServiceForge.OpenApi.Spec.Basic

namespace ServiceForge.Generation

open ServiceForge.OpenApi (Content Media PlacedOperation Schema)
open ServiceForge.Text

/-- How the body of a request is sent. -/
inductive RequestMedia where
  | empty
  | json (schema : Option Schema)
  | patch (mediaType : String)
  | binary

namespace RequestMedia

/-- The schema of a body in JSON. -/
def schema? : RequestMedia → Option Schema
  | json schema => schema
  | _ => none

end RequestMedia

/-- Whether content of a media type is JSON. -/
def isJson (mediaType : String) : Bool :=
  mediaType = OpenApi.MediaType.json || endsWith "+json" mediaType

/-- The first payload in JSON. -/
def jsonMedia? (content : Content) : Option Media :=
  (content.find? fun entry => isJson entry.1).map Prod.snd

/-- The types of patches, the preferred one first. -/
def patchTypes : List String := [OpenApi.MediaType.imageJsonPatch, OpenApi.MediaType.jsonPatch]

/-- How the body of an operation is sent: a patch if the method asks for one, otherwise JSON before
binary data. -/
def requestMedia (placed : PlacedOperation) (operation : String) :
    Except GenerationError RequestMedia :=
  let content := placed.operation.requestContent.getD []
  if content.isEmpty then return .empty
  else if placed.method = .patch then
    match patchTypes.find? (OrderedMap.contains content ·) with
    | some mediaType => return .patch mediaType
    | none => throw (.unsupportedMediaType operation content.keys)
  else
    match jsonMedia? content with
    | some media => return .json media.schema
    | none =>
      if content.contains OpenApi.MediaType.binary then return .binary
      else throw (.unsupportedMediaType operation content.keys)

/-- The schema of the JSON payload of the first successful response. -/
def responseSchema? (placed : PlacedOperation) : Option Schema := do
  let (_, response) ← placed.operation.success?
  (← jsonMedia? response.content).schema

end ServiceForge.Generation
