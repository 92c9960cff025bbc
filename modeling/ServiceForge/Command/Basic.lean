/-
This file runs the program on the files of a workspace, for given arguments.
-/

import ServiceForge.Command.Options
import ServiceForge.Project.Execution

namespace ServiceForge.Command

open ServiceForge.Project
open ServiceForge.Text

/-- What a run leaves behind. -/
structure Outcome where
  code : UInt32
  output : String := ""
  diagnostics : String := ""
  workspace : Workspace

/-! ### Texts -/

/-- The text that explains the options. -/
def usageText : String :=
  "Usage: apigen [OPTIONS] --target <TARGET>\n\nOptions:\n" ++
    String.join (OptionName.all.map fun option =>
      "      --" ++ option.name ++ " <" ++ upper (replaceCharacter '-' "_" option.name) ++ ">\n") ++
    "      --validate\n  -v, --verbose...\n  -h, --help\n  -V, --version\n"

/-- The text that tells the version of the program. -/
def versionText : String := "apigen 0.1.0\n"

/-- One line about an error: what failed, and each reason under it. -/
def diagnostic (context : String) (error : Error) : String :=
  "error: " ++ join ": " (context :: error.chain) ++ "\n"

/-- What is told about a run that succeeded. -/
def reportText (report : Report) : String :=
  "Wrote " ++ toString report.written.length ++ " files\n" ++
    if report.unformatted = 0 then ""
    else "Some output was left unformatted; see the warnings above\n"

/-! ### Runs -/

/-- Carries out the options with a configuration. -/
def perform (session : Session) (config : Config) (options : Options) : Outcome :=
  if options.validate then
    match validate session options.request with
    | (session, .ok checked) =>
      { code := 0
        diagnostics := toString checked ++ " operations resolved\n"
        workspace := session.workspace }
    | (session, .error error) =>
      { code := 1
        diagnostics := diagnostic "Metadata validation failed" error
        workspace := session.workspace }
  else
    match execute session config options.request with
    | (session, .ok report) =>
      { code := 0, diagnostics := reportText report, workspace := session.workspace }
    | (session, .error error) =>
      { code := 1
        diagnostics :=
          diagnostic ("Failed to generate target '" ++ options.request.target.name ++ "'") error
        workspace := session.workspace }

/-- Runs the program in a session. -/
def runIn (session : Session) (arguments : List String) : Outcome :=
  let workspace := session.workspace
  match Options.ofArguments arguments with
  | .error .help => { code := 0, output := usageText, workspace }
  | .error .version => { code := 0, output := versionText, workspace }
  | .error .misuse => { code := 2, diagnostics := usageText, workspace }
  | .ok options =>
    match options.config with
    | none => perform session {} options
    | some path =>
      match session.document Config.read path with
      | .ok config => perform session config options
      | .error cause =>
        { code := 1
          diagnostics := diagnostic ("Failed to load config: " ++ path) (.cause cause)
          workspace }

/-- Runs the program on files, on a machine without formatters. -/
def run (workspace : Workspace) (arguments : List String) : Outcome :=
  runIn { workspace } arguments

/-! ### Files -/

/-- The files that the arguments name. -/
def inputs (arguments : List String) : List String :=
  match Options.ofArguments arguments with
  | .error _ => []
  | .ok options =>
    let request := options.request
    [options.config, request.metadata, request.openapiSpec, request.descriptors, request.routeMap,
      request.prose].filterMap id

/-- The documents that the metadata named by the arguments refers to. -/
def referredInputs (workspace : Workspace) (arguments : List String) : List String :=
  let session : Session := { workspace }
  (inputs arguments).flatMap fun path =>
    match session.document Metadata.read path with
    | .ok metadata =>
      metadata.resources.values.flatMap fun entry =>
        entry.operations.values.map (specFile (FilePath.directory path) entry)
    | .error _ => []

end ServiceForge.Command
