/-
This file holds the reasons for which nothing can be generated from a document.
-/

import ServiceForge.Text.Basic

namespace ServiceForge

open ServiceForge.Text

/-- Why code cannot be generated. -/
inductive GenerationError where
  | operationNotFound (operation : String)
  | componentNotFound (name : String)
  | unsupportedType (type location : String)
  | unsupportedMediaType (operation : String) (found : List String)
  | missingResourceSchema (operation : String)
  | nameConflict (resource name first second : String)
  | missingDescriptor (name : String)
  | endlessSchema (location : String)
deriving DecidableEq, Repr

namespace GenerationError

/-- The text that explains why code cannot be generated. -/
def message : GenerationError → String
  | operationNotFound operation => "operation '" ++ operation ++ "' not found in spec"
  | componentNotFound name => "component schemas/" ++ name ++ " not found in spec"
  | unsupportedType type location =>
    "unsupported schema type '" ++ type ++ "' at " ++ location
  | unsupportedMediaType operation found =>
    "operation '" ++ operation ++ "' has no supported media type (found: " ++
      join ", " found ++ ")"
  | missingResourceSchema operation =>
    "cannot locate the resource schema of operation '" ++ operation ++ "'"
  | nameConflict resource name first second =>
    "resource '" ++ resource ++ "': operations '" ++ first ++ "' and '" ++ second ++
      "' both classify as '" ++ name ++ "'"
  | missingDescriptor name => "resource descriptor '" ++ name ++ "' not found"
  | endlessSchema location => "schema at " ++ location ++ " contains itself"

end GenerationError

end ServiceForge
