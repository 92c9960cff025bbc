/-
This file is the program: it takes the files that the arguments name into a
workspace, runs the command there, and puts the files that it wrote in their
places.
-/

import ServiceForge.Command.Basic

open ServiceForge

/-- Adds the files that can be read to a workspace. -/
def takeFiles (workspace : Workspace) (paths : List String) : IO Workspace :=
  paths.foldlM
    (fun workspace (path : String) => do
      match ← (IO.FS.readFile path).toBaseIO with
      | .ok content => return (workspace.write path content).1
      | .error _ => return workspace)
    workspace

/-- Writes a file beside its place and moves it there, so that no part of it is seen before. -/
def putFile (path content : String) : IO Unit := do
  IO.FS.createDirAll (FilePath.directory path)
  let written := path ++ ".new"
  IO.FS.writeFile written content
  IO.FS.rename written path

/-- Runs the program on the files of the current directory and writes those that it changes. -/
def main (arguments : List String) : IO UInt32 := do
  let current ← IO.currentDir
  let start := Workspace.empty (FilePath.steps current.toString)
  let named ← takeFiles start (Command.inputs arguments)
  let workspace ← takeFiles named (Command.referredInputs named arguments)
  let outcome := Command.run workspace arguments
  for (path, content) in outcome.workspace.changesSince workspace do
    putFile path content
  IO.print outcome.output
  IO.eprint outcome.diagnostics
  return outcome.code
