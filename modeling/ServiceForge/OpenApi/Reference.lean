/-
This file replaces the local references of a document by what they point to.
Each reference is followed once and its value used again. A reference that is met
while its own target is being resolved closes a cycle and stays as it is, so a
document with cycles has a finite result.
-/

import ServiceForge.Json.Basic
import ServiceForge.Text.Basic

namespace ServiceForge.OpenApi.Reference

open ServiceForge.Text

/-! ### Pointers -/

/-- The step of a pointer that names a key. -/
def escape (key : String) : String := replaceCharacter '/' "~1" (replaceCharacter '~' "~0" key)

/-- The key that a step of a pointer names. -/
def unescape (step : String) : String := replace "~0" "~" (replace "~1" "/" step)

/-- The position in an array that a step names: decimal digits without a leading zero. -/
def index? (step : String) : Option Nat :=
  let digits := step.toList
  if digits.isEmpty || !digits.all Char.isDigit then none
  else if digits.head? = some '0' ∧ digits.length ≠ 1 then none
  else some (digits.foldl (fun value digit => value * 10 + (digit.toNat - '0'.toNat)) 0)

/-- What one step of a pointer leads to. -/
def step? (document : Json) (step : String) : Option Json :=
  match document with
  | .object members => OrderedMap.get? members step
  | .array items => (index? step).bind (items[·]?)
  | _ => none

/-- The part of a document that a pointer names; the empty pointer names all of it. -/
def find? (document : Json) (pointer : String) : Option Json :=
  if pointer.isEmpty then some document
  else if startsWith "/" pointer then
    ((split '/' pointer).drop 1).foldl
      (fun found step => found.bind (step? · (unescape step))) (some document)
  else none

/-! ### References -/

/-- The reference that an object stands for. -/
def ofMembers? (members : List (String × Json)) : Option String :=
  (OrderedMap.get? members "$ref").bind Json.string?

/-- Whether a reference points into its own document. -/
def isLocal (reference : String) : Bool := startsWith "#" reference

/-- What a local reference leads to in a document. -/
def target? (document : Json) (reference : String) : Option Json :=
  find? document (trimStart (· = '#') reference)

/-- The object that stands for a reference. -/
def node (reference : String) : Json := .object [("$ref", .string reference)]

mutual

/-- The references in a document. -/
def all : Json → List String
  | .object members => (ofMembers? members).toList ++ allInMembers members
  | .array items => allInItems items
  | _ => []

/-- The references in the items of an array. -/
def allInItems : List Json → List String
  | [] => []
  | item :: rest => all item ++ allInItems rest

/-- The references in the members of an object. -/
def allInMembers : List (String × Json) → List String
  | [] => []
  | (_, value) :: rest => all value ++ allInMembers rest

end

/-! ### Resolution -/

/-- The values of the references followed so far, and the references being followed. -/
structure Progress where
  resolved : OrderedMap Json := []
  following : List String := []

/-- A computation that stops at a local reference without a target. -/
abbrev Resolve := StateT Progress (Except String)

mutual

/-- Puts what `follow` gives in the place of the local references of a document. An object that
refers to another document is left as it is. -/
def substitute (follow : String → Resolve Json) : Json → Resolve Json
  | .object members =>
    match ofMembers? members with
    | some reference =>
      if isLocal reference then follow reference else return .object members
    | none => return .object (← substituteMembers follow members)
  | .array items => return .array (← substituteItems follow items)
  | other => return other

/-- Puts targets in the place of references in the items of an array. -/
def substituteItems (follow : String → Resolve Json) : List Json → Resolve (List Json)
  | [] => return []
  | item :: rest => return (← substitute follow item) :: (← substituteItems follow rest)

/-- Puts targets in the place of references in the members of an object. -/
def substituteMembers (follow : String → Resolve Json) :
    List (String × Json) → Resolve (List (String × Json))
  | [] => return []
  | (key, value) :: rest => do
    let value ← substitute follow value
    return (key, value) :: (← substituteMembers follow rest)

end

/-- The value of a reference. The references being followed are distinct, so `budget` need not
exceed their number. -/
def follow (document : Json) (budget : Nat) (reference : String) : Resolve Json := do
  let progress ← get
  match progress.resolved.get? reference with
  | some value => return value
  | none =>
    if progress.following.contains reference then return node reference
    match budget, target? document reference with
    | budget + 1, some target =>
      modify fun progress => { progress with following := reference :: progress.following }
      let value ← substitute (follow document budget) target
      modify fun progress =>
        { following := progress.following.erase reference
          resolved := progress.resolved.insert reference value }
      return value
    | _, _ => throw reference

/-! ### Documents -/

/-- The sections of components whose entries are resolved as references to them are. -/
def sections : List String := ["schemas", "parameters", "headers", "responses", "requestBodies"]

/-- The reference to a component. -/
def ofComponent (section_ name : String) : String :=
  "#/components/" ++ section_ ++ "/" ++ escape name

/-- Resolves the entries of a part of the components. Each is followed by its own reference. -/
def resolveEntries (document : Json) (budget : Nat) (section_ : String) :
    List (String × Json) → Resolve (List (String × Json))
  | [] => return []
  | (name, _) :: rest => do
    let value ← follow document budget (ofComponent section_ name)
    return (name, value) :: (← resolveEntries document budget section_ rest)

/-- Resolves the parts of the components. -/
def resolveSections (document : Json) (budget : Nat) :
    List (String × Json) → Resolve (List (String × Json))
  | [] => return []
  | (name, content) :: rest => do
    let content ←
      match content with
      | .object entries =>
        if sections.contains name then
          pure (Json.object (← resolveEntries document budget name entries))
        else substitute (follow document budget) content
      | content => substitute (follow document budget) content
    return (name, content) :: (← resolveSections document budget rest)

/-- Resolves the components of a document. -/
def resolveComponents (document : Json) (budget : Nat) (components : Json) : Resolve Json :=
  match components with
  | .object content => return .object (← resolveSections document budget content)
  | components => substitute (follow document budget) components

/-- Resolves the members of a document. -/
def resolveRoot (document : Json) (budget : Nat) :
    List (String × Json) → Resolve (List (String × Json))
  | [] => return []
  | (key, value) :: rest => do
    let value ←
      if key = "components" then resolveComponents document budget value
      else substitute (follow document budget) value
    return (key, value) :: (← resolveRoot document budget rest)

/-- Replaces the local references of a document, or gives one that has no target. At most one
reference to a component is followed that is not in the document itself. -/
def resolve (document : Json) : Except String Json := do
  let budget := (all document).length + 1
  match document with
  | .object members =>
    let (members, _) ← (resolveRoot document budget members).run {}
    return .object members
  | document =>
    let (value, _) ← (substitute (follow document budget) document).run {}
    return value

end ServiceForge.OpenApi.Reference
