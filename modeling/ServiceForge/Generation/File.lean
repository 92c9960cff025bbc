/-
This file holds generated files. A module of a source tree carries a record of
its place, from which the files that list the modules are made.
-/

import ServiceForge.FilePath

namespace ServiceForge.Generation

/-- The language of a file, by which a formatter is chosen. -/
inductive Language where
  | rust
  | python
  | json
  | yaml
deriving DecidableEq, Repr

namespace Language

/-- All languages that files are generated in. -/
def all : List Language := [rust, python, json, yaml]

/-- The name of a language. -/
def name : Language → String
  | rust => "rust"
  | python => "python"
  | json => "json"
  | yaml => "yaml"

end Language

/-- The place of a module in its source tree. -/
structure ModuleRecord where
  directory : List String
  name : String
deriving DecidableEq, Repr

namespace ModuleRecord

/-- The path of the module's file below the root of the tree. -/
def path (record : ModuleRecord) : String :=
  FilePath.join (FilePath.ofSegments record.directory) (record.name ++ ".rs")

end ModuleRecord

/-- A generated file with its path below the root of the output. -/
structure File where
  path : String
  language : Language
  contents : String
  record : Option ModuleRecord := none
deriving DecidableEq, Repr

namespace File

/-- The file of a module. -/
def ofModule (record : ModuleRecord) (contents : String) : File :=
  { path := record.path, language := .rust, contents, record := some record }

end File

end ServiceForge.Generation
