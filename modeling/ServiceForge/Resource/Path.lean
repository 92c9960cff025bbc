/-
This file derives the name of a resource from the path of an operation: its
segments without the version, the parameters and a final `detail` or `action`.
-/

import ServiceForge.Text.Basic
import ServiceForge.Text.LetterCase

namespace ServiceForge.Resource

open ServiceForge.Text

/-- Whether a segment is a version, such as `v2` or `v2.1`. -/
def isVersion (segment : String) : Bool :=
  match segment.toList with
  | 'v' :: digit :: _ => digit.isDigit
  | _ => false

/-- Whether a segment is a parameter. -/
def isParameter (segment : String) : Bool := startsWith "\x7b" segment && endsWith "\x7d" segment

/-- A last segment that names a view or an endpoint of the resource before it. -/
def isSuffix (segment : String) : Bool := segment = "detail" || segment = "action"

/-- The segments of a path after its version. -/
def unversioned : List String → List String
  | [] => []
  | first :: rest => if isVersion first then rest else first :: rest

/-- The segments that name the resource of a path, in lowercase. -/
def pathSegments (path : String) : List String :=
  let named := (unversioned (segments '/' path)).filter fun segment => !isParameter segment
  let lowered := named.map lower
  if lowered.getLast?.any isSuffix then lowered.dropLast else lowered

/-- The name of the resource of a path (`servers/os-interfaces`). -/
def pathName (path : String) : String := join "/" (pathSegments path)

/-- The version that begins a path. -/
def pathVersion? (path : String) : Option String :=
  (segments '/' path).head?.filter isVersion

/-- The name of the parameter that ends a path. -/
def terminalParameter? (path : String) : Option String := do
  let last ← (split '/' (trimEnd (· = '/') path)).getLast?
  beforeEnd? "\x7d" (← afterStart? "\x7b" last)

end ServiceForge.Resource
