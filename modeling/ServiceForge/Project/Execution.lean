/-
This file carries out plans: it writes the files that were rendered and has them
formatted. When a plan failed, what was rendered before the failure is written all
the same. It also checks metadata: every operation that the selected resources name
has to be in its document.
-/

import ServiceForge.Project.Plan

namespace ServiceForge.Project

open ServiceForge.Generation (File Language)

/-- What was written, by path, and how many formatters failed. -/
structure Report where
  written : List String := []
  /-- How many runs of formatters failed. -/
  unformatted : Nat := 0
deriving DecidableEq, Repr

/-! ### Writing -/

/-- Writes files below a root up to the first that cannot be written. -/
def writeFiles (workspace : Workspace) (root : String) :
    List File → Workspace × Except Error (List String)
  | [] => (workspace, return [])
  | file :: rest =>
    let path := FilePath.join root file.path
    let outcome := workspace.write path file.contents
    if outcome.2 then
      let others := writeFiles outcome.1 root rest
      (others.1, others.2.map fun written => path :: written)
    else (outcome.1, throw (.cause .inaccessible))

/-! ### Formatting -/

/-- The paths of the files of a language. -/
def pathsOf (root : String) (files : List File) (language : Language) : List String :=
  (files.filter (·.language = language)).map fun file => FilePath.join root file.path

/-- Starts the formatter of a language for its files, if there are any, and counts a failure. -/
def formatFiles (programs : Programs) (config : Config) (root : String) (files : List File)
    (language : Language) (workspace : Workspace) : Workspace × Nat :=
  match config.formatter? language, pathsOf root files language with
  | some command, path :: paths =>
    let (workspace, succeeded) := programs command (path :: paths) workspace
    (workspace, if succeeded then 0 else 1)
  | _, _ => (workspace, 0)

/-- Formats the files of all languages and counts the failures. -/
def formatAll (programs : Programs) (config : Config) (root : String) (files : List File)
    (workspace : Workspace) : Workspace × Nat :=
  Language.all.foldl
    (fun (workspace, failures) language =>
      let (workspace, failed) := formatFiles programs config root files language workspace
      (workspace, failures + failed))
    (workspace, 0)

/-- Writes files and has them formatted, unless one of them cannot be written. -/
def writeAll (programs : Programs) (config : Config) (workspace : Workspace) (root : String)
    (files : List File) : Workspace × Except Error Report :=
  match writeFiles workspace root files with
  | (workspace, .error error) => (workspace, throw error)
  | (workspace, .ok written) =>
    let (workspace, unformatted) := formatAll programs config root files workspace
    (workspace, return { written, unformatted })

/-! ### Requests -/

/-- Keeps the documents that a rendering asked for. -/
def Session.after (session : Session) (rendering : Rendering) : Session :=
  session.keepAll rendering.specs

/-- Renders and writes the files of a request. -/
def execute (session : Session) (config : Config) (request : Request) :
    Session × Except Error Report :=
  let { root, rendering } := plan session config request
  let session := session.after rendering
  let (workspace, report) :=
    if rendering.failure.isSome && rendering.files.isEmpty then (session.workspace, return {})
    else writeAll session.programs config session.workspace root rendering.files
  let session := { session with workspace }
  match report, rendering.failure with
  | .ok _, some error => (session, throw error)
  | report, _ => (session, report)

/-- An id that metadata names, with the file that it should be found in. -/
structure NamedOperation where
  id : String
  specFile : String
deriving DecidableEq, Repr

/-- The ids that an entry names: its own, and for each target that of the operation that lists. -/
def namedIds (operation : OperationEntry) : List String :=
  operation.operation ::
    operation.targets.filterMap fun (_, parameters) => parameters.listOperation

/-- The ids that resources name. -/
def namedOperations (directory : String) (resources : List (Resource.Id × ResourceEntry)) :
    List NamedOperation :=
  resources.flatMap fun (_, entry) =>
    entry.operations.values.flatMap fun operation =>
      (namedIds operation).map fun id => { id, specFile := specFile directory entry operation }

/-- Whether an id is found. -/
def resolves (session : Session) (named : NamedOperation) : Bool :=
  match session.spec named.specFile with
  | .ok spec => (spec.findOperation? named.id).isSome
  | .error _ => false

/-- Checks the selected resources and counts the ids that were checked. -/
def validate (session : Session) (request : Request) : Session × Except Error Nat :=
  let named := do
    let path ← needed request.metadata .validateMetadata
    let metadata ← ofCause (session.document Metadata.read path)
    return namedOperations (FilePath.directory path) (← request.select metadata)
  match named with
  | .error error => (session, throw error)
  | .ok named =>
    let session := session.keepAll (named.map NamedOperation.specFile)
    let failed := (named.filter fun operation => !resolves session operation).length
    if failed = 0 then (session, return named.length)
    else (session, throw (.validation failed named.length))

end ServiceForge.Project
