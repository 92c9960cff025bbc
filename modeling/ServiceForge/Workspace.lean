/-
This file holds the files that a project works on. A path is followed through the
directories that exist; writing a file creates the directories above it.
-/

import ServiceForge.FilePath

namespace ServiceForge

open ServiceForge.Text

/-- Where a file or directory is: the names that lead to it from the root. -/
abbrev Location := List String

/-- Directories and files, with the place of the current directory. -/
structure Workspace where
  current : Location
  directories : List Location
  files : List (Location × String) := []
deriving Repr

namespace Workspace

/-- A workspace without files. -/
def empty (current : Location) : Workspace :=
  { current
    directories := (List.range current.length).map fun count => current.take (count + 1) }

/-- Whether there is a directory at a location. The root is always one. -/
def isDirectory (workspace : Workspace) (location : Location) : Bool :=
  location.isEmpty || workspace.directories.contains location

/-- Whether there is a file at a location. -/
def isFile (workspace : Workspace) (location : Location) : Bool :=
  (workspace.files.lookup location).isSome

/-! ### Paths -/

/-- Where one segment of a path leads. -/
def step (here : Location) (segment : String) : Location :=
  if FilePath.isIdle segment then here
  else if segment = ".." then here.dropLast
  else here ++ [segment]

/-- Where a path starts. -/
def start (workspace : Workspace) (path : String) : Location :=
  if FilePath.isAbsolute path then [] else workspace.current

/-- Follows segments through directories. -/
def follow? (workspace : Workspace) (here : Location) : List String → Option Location
  | [] => some here
  | segment :: rest =>
    if workspace.isDirectory here then workspace.follow? (step here segment) rest else none

/-- Where a path leads, if there are directories up to its last segment. -/
def locate? (workspace : Workspace) (path : String) : Option Location :=
  if path.isEmpty then none else workspace.follow? (workspace.start path) (split '/' path)

/-! ### Reading -/

/-- The content of the file at a path. -/
def read? (workspace : Workspace) (path : String) : Option String := do
  workspace.files.lookup (← workspace.locate? path)

/-- The paths of the files below the current directory, in ascending order. -/
def paths (workspace : Workspace) : List String :=
  (workspace.files.filterMap fun (location, _) =>
    (workspace.current.isPrefixOf? location).map (join "/")).mergeSort fun left right =>
      decide (left ≤ right)

/-! ### Writing -/

/-- Makes a directory, unless it is there already. -/
def addDirectory (workspace : Workspace) (location : Location) : Workspace :=
  if workspace.isDirectory location then workspace
  else { workspace with directories := workspace.directories ++ [location] }

/-- Creates the directories along segments, up to a file that stands in the way. -/
def createAlong (workspace : Workspace) (here : Location) :
    List String → Workspace × Option Location
  | [] => (workspace, some here)
  | segment :: rest =>
    let next := step here segment
    if workspace.isFile next then (workspace, none)
    else (workspace.addDirectory next).createAlong next rest

/-- Puts a file at a location, in the place of one that is there. -/
def addFile (workspace : Workspace) (location : Location) (content : String) : Workspace :=
  { workspace with
    files := workspace.files.filter (·.1 ≠ location) ++ [(location, content)] }

/-- Writes a file and tells whether that was possible. The directories that were created before it
turned out not to be stay. -/
def write (workspace : Workspace) (path content : String) : Workspace × Bool :=
  let directory := FilePath.directory path
  let (workspace, found) :=
    workspace.createAlong (workspace.start directory) (split '/' directory)
  match found, (split '/' path).getLast? with
  | some directory, some name =>
    let location := directory ++ [name]
    if FilePath.isIdle name || name = ".." || workspace.isDirectory location then
      (workspace, false)
    else (workspace.addFile location content, true)
  | _, _ => (workspace, false)

/-- The files that are not as they were in an earlier workspace, with their absolute paths. -/
def changesSince (earlier workspace : Workspace) : List (String × String) :=
  (workspace.files.filter fun (location, content) =>
    earlier.files.lookup location != some content).map fun (location, content) =>
      (FilePath.ofSteps location, content)

end Workspace

end ServiceForge
