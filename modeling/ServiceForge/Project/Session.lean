/-
This file holds what a project knows while it runs: its files, the OpenAPI
documents that it has loaded, and what the programs do that it can start. A loaded
document stays as it was when its file changes; a failed load is forgotten.
-/

import ServiceForge.Document.Reader
import ServiceForge.Project.Error
import ServiceForge.Workspace

namespace ServiceForge.Project

open ServiceForge.OpenApi (Spec)

/-- What programs do. A command with the paths of some files leaves a workspace behind, and it
succeeds or not. -/
abbrev Programs := List String → List String → Workspace → Workspace × Bool

/-- The programs of a machine that has only `true`, which succeeds and changes nothing. -/
def Programs.bare : Programs := fun command _ workspace =>
  (workspace, command.head? = some "true")

/-- The files of a project, the documents that were loaded from them, each with the place of its
file, and the programs that can be started. -/
structure Session where
  workspace : Workspace
  loaded : List (Location × Spec) := []
  programs : Programs := .bare

namespace Session

/-- The content of a file. -/
def content (session : Session) (path : String) : Except Cause String :=
  match session.workspace.read? path with
  | some content => return content
  | none => throw .inaccessible

/-- Reads a model from a YAML file. -/
def document {α : Type} (session : Session) (read : Document.Reader α) (path : String) :
    Except Cause α := do
  (Document.ofYaml read (← session.content path)).mapError .malformed

/-- The OpenAPI document of a file: as it was loaded before, or as it is now. -/
def spec (session : Session) (path : String) : Except Cause Spec := do
  let content ← session.content path
  match (session.workspace.locate? path).bind fun location => session.loaded.lookup location with
  | some spec => return spec
  | none => (Spec.ofText content).mapError .unloadable

/-- Keeps the document of a file, if it can be loaded. -/
def keep (session : Session) (path : String) : Session :=
  match session.workspace.locate? path with
  | none => session
  | some location =>
    if (session.loaded.lookup location).isSome then session
    else
      match session.spec path with
      | .ok spec => { session with loaded := session.loaded ++ [(location, spec)] }
      | .error _ => session

/-- Keeps the documents of files. -/
def keepAll (session : Session) (paths : List String) : Session := paths.foldl keep session

end Session

end ServiceForge.Project
