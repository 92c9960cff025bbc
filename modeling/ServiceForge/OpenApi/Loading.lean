/-
This file reads an OpenAPI document from its text. YAML is read, of which JSON
is a part; the references are resolved before the document is read as a model.
-/

import ServiceForge.Document.Untyped
import ServiceForge.OpenApi.Reference
import ServiceForge.OpenApi.Spec.Document

namespace ServiceForge.OpenApi

/-- Why a text is not an OpenAPI document. -/
inductive LoadError where
  | malformed (error : Document.Error)
  | rootNotMapping
  | missingField (name : String)
  | unresolvedReference (reference : String)
deriving Repr

namespace LoadError

/-- The text that explains why a document cannot be loaded. -/
def message : LoadError → String
  | malformed error => "invalid OpenAPI document: " ++ error.message
  | rootNotMapping => "invalid OpenAPI document: document root is not a mapping"
  | missingField name =>
    "invalid OpenAPI document: missing required top-level field '" ++ name ++ "'"
  | unresolvedReference reference => "unresolved reference '" ++ reference ++ "'"

end LoadError

namespace Spec

/-- Reads a document in which the references still stand. -/
def ofJson (document : Json) : Except LoadError Spec :=
  match document with
  | .object members =>
    match ["openapi", "paths"].find? fun name => !OrderedMap.contains members name with
    | some name => throw (.missingField name)
    | none =>
      match Reference.resolve document with
      | .ok resolved => (Document.ofJson read resolved).mapError .malformed
      | .error reference => throw (.unresolvedReference reference)
  | _ => throw .rootNotMapping

/-- The OpenAPI document that a text holds. -/
def ofText (text : String) : Except LoadError Spec := do
  ofJson (← (Document.Untyped.ofText text).mapError .malformed)

end Spec

end ServiceForge.OpenApi
