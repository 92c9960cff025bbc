/-
This file holds the targets for which output is generated.
-/

import ServiceForge.Text.Basic

namespace ServiceForge

/-- What is generated. -/
inductive Target where
  | sdk
  | cli
  | openapiSpec
  | jsonschema
  | metadata
  | osc
  | ansible
deriving DecidableEq, Repr

namespace Target

/-- All targets. -/
def all : List Target := [sdk, cli, openapiSpec, jsonschema, metadata, osc, ansible]

/-- The name on the command line and in metadata. -/
def name : Target → String
  | sdk => "sdk"
  | cli => "cli"
  | openapiSpec => "openapi-spec"
  | jsonschema => "jsonschema"
  | metadata => "metadata"
  | osc => "osc"
  | ansible => "ansible"

/-- The target with a name. -/
def ofName? (text : String) : Option Target := all.find? (·.name = text)

/-- What is said about a name that no target has. -/
def unknownMessage (text : String) : String :=
  "unknown target '" ++ text ++ "' (expected one of: " ++
    Text.join ", " (all.map name) ++ ")"

end Target

end ServiceForge
