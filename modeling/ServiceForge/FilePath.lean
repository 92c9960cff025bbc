/-
This file works on the paths of files as text: their segments, the directory and
the name of a file, and the way from one directory to a file. A path keeps `..`,
since what it means depends on the directories that exist.
-/

import ServiceForge.Text.Basic

namespace ServiceForge.FilePath

open ServiceForge.Text

/-- Whether a path starts at the root. -/
def isAbsolute (path : String) : Bool := startsWith "/" path

/-- Appends a path to another one; an absolute path takes its place. -/
def join (base path : String) : String :=
  if isAbsolute path || base.isEmpty then path
  else if endsWith "/" base then base ++ path
  else base ++ "/" ++ path

/-- The path of the given segments. -/
def ofSegments (segments : List String) : String := segments.foldl join ""

/-! ### Segments -/

/-- Whether a segment leads nowhere. -/
def isIdle (segment : String) : Bool := segment.isEmpty || segment = "."

/-- The segments that lead somewhere. -/
def steps (path : String) : List String := (split '/' path).filter fun segment => !isIdle segment

/-- Drops the idle segments at the end. A point that begins a relative path stays. -/
def dropIdleEnd (segments : List String) : List String :=
  match segments with
  | [] => []
  | first :: rest =>
    match dropIdleEnd rest with
    | [] => if isIdle first then [] else [first]
    | kept => first :: kept

/-- The segments of a path, idle ones between others included, without those at its end. -/
def parts (path : String) : List String :=
  match split '/' path with
  | first :: rest => if first = "." then first :: dropIdleEnd rest else dropIdleEnd (first :: rest)
  | [] => []

/-! ### Directories and names -/

/-- The directory of a path. The root and the empty path have none. -/
def parent? (path : String) : Option String :=
  match parts path with
  | [] => none
  | named =>
    match named.dropLast with
    | [] => some (if isAbsolute path then "/" else "")
    | above =>
      let kept :=
        if above.head? = some "." then "." :: dropIdleEnd above.tail else dropIdleEnd above
      some (if kept.isEmpty && isAbsolute path then "/" else Text.join "/" kept)

/-- The directory of a file, which is empty for a name alone. -/
def directory (path : String) : String := (parent? path).getD ""

/-- The name of a file. -/
def fileName? (path : String) : Option String :=
  (parts path).getLast?.filter fun name => name ≠ "." && name ≠ ".."

/-! ### Absolute paths -/

/-- The steps to a path from the root, which begin with those to the current directory if the path
is relative. -/
def absoluteSteps (current : List String) (path : String) : List String :=
  if isAbsolute path then steps path else current ++ steps path

/-- The absolute path along the given steps. -/
def ofSteps (steps : List String) : String := "/" ++ Text.join "/" steps

/-- The absolute path of a file. Two slashes that begin a path stay, and no more than two do. -/
def absolute (current : List String) (path : String) : String :=
  let extra := if startsWith "//" path && !startsWith "///" path then "/" else ""
  extra ++ ofSteps (absoluteSteps current path)

/-- The path of a file as seen from a directory, if it is below it, or else its absolute path. No
file is below the empty path. -/
def relativeTo (current : List String) (path directory : String) : String :=
  let seen :=
    if directory.isEmpty then absolute current path
    else
      match (absoluteSteps current directory).isPrefixOf? (absoluteSteps current path) with
      | some rest => Text.join "/" rest
      | none => absolute current path
  replaceCharacter '\\' "/" seen

end ServiceForge.FilePath
