/-
This file holds the configuration of a project: where the output of each target
goes, and which programs format it.
-/

import ServiceForge.Cli.Context
import ServiceForge.Document.Reader
import ServiceForge.Generation.File
import ServiceForge.Target

namespace ServiceForge.Project

open ServiceForge.Document
open ServiceForge.Generation (Language)

/-- A program with its first arguments, which are followed by the files to format. -/
structure Formatter where
  enabled : Bool := true
  command : List String := []
deriving DecidableEq, Repr

namespace Formatter

/-- Reads a formatter, which is enabled unless it says otherwise. -/
def read : Reader Formatter := fun mode value => do
  let fields ← Fields.ofClosed ["enabled", "command"] mode value
  return {
    enabled := ← fields.withDefault "enabled" true Reader.flag
    command := ← fields.list "command" Reader.text }

/-- A formatter that is never started. -/
def disabled : Formatter := { enabled := false }

end Formatter

/-- The formatters of the languages that have one. -/
structure Formatters where
  rust : Formatter := { command := ["rustfmt", "--edition", "2021"] }
  python : Formatter := { command := ["black", "--quiet"] }
deriving DecidableEq, Repr

namespace Formatters

/-- Reads the formatters. One that is not given is the usual one. -/
def read : Reader Formatters := fun mode value => do
  let fields ← Fields.ofClosed ["rust", "python"] mode value
  let initial : Formatters := {}
  return {
    rust := ← fields.withDefault "rust" initial.rust Formatter.read
    python := ← fields.withDefault "python" initial.python Formatter.read }

end Formatters

/-- The configuration of a project: the root of each target, a crate and the formatters. -/
structure Config where
  sdkRoot : String := "openstack_sdk/src/api"
  cliRoot : String := "openstack_cli/src"
  jsonschemaRoot : String := "schemas"
  oscRoot : String := "osc"
  ansibleRoot : String := "ansible"
  openapiRoot : String := "openapi_specs"
  metadataRoot : String := "metadata"
  /-- The library that the generated commands call. -/
  sdkCrate : String := Cli.defaultSdkCrate
  formatters : Formatters := {}
deriving DecidableEq, Repr

namespace Config

/-- Reads a configuration. What is not given is as usual. -/
def read : Reader Config := fun mode value => do
  let fields ← Fields.ofClosed
    ["sdk_root", "cli_root", "jsonschema_root", "osc_root", "ansible_root", "openapi_root",
      "metadata_root", "sdk_crate", "formatters"]
    mode value
  let initial : Config := {}
  return {
    sdkRoot := ← fields.withDefault "sdk_root" initial.sdkRoot Reader.text
    cliRoot := ← fields.withDefault "cli_root" initial.cliRoot Reader.text
    jsonschemaRoot := ← fields.withDefault "jsonschema_root" initial.jsonschemaRoot Reader.text
    oscRoot := ← fields.withDefault "osc_root" initial.oscRoot Reader.text
    ansibleRoot := ← fields.withDefault "ansible_root" initial.ansibleRoot Reader.text
    openapiRoot := ← fields.withDefault "openapi_root" initial.openapiRoot Reader.text
    metadataRoot := ← fields.withDefault "metadata_root" initial.metadataRoot Reader.text
    sdkCrate := ← fields.withDefault "sdk_crate" initial.sdkCrate Reader.text
    formatters := ← fields.withDefault "formatters" initial.formatters Formatters.read }

/-- A configuration that formats nothing. -/
def withoutFormatters (config : Config) : Config :=
  { config with formatters := { rust := .disabled, python := .disabled } }

/-- The directory of a target's output below the directory of the work. -/
def root (config : Config) : Target → String
  | .sdk => config.sdkRoot
  | .cli => config.cliRoot
  | .openapiSpec => config.openapiRoot
  | .jsonschema => config.jsonschemaRoot
  | .metadata => config.metadataRoot
  | .osc => config.oscRoot
  | .ansible => config.ansibleRoot

/-- The command that formats files of a language. -/
def formatter? (config : Config) (language : Language) : Option (List String) := do
  let formatter ←
    match language with
    | .rust => some config.formatters.rust
    | .python => some config.formatters.python
    | .json | .yaml => none
  if formatter.enabled && !formatter.command.isEmpty then return formatter.command else none

end Config

end ServiceForge.Project
