/-
This file splits an operation into variants, one for each branch of the union
that its body is: a version, an action, or neither.
-/

import ServiceForge.Lowering.Basic
import ServiceForge.Naming
import ServiceForge.Resource.Schema

namespace ServiceForge.Generation

open ServiceForge.OpenApi (Schema)

/-- One form in which an operation is generated. -/
structure Variant where
  moduleName : String
  body : Option Schema := none
  version : Option String := none
  action : Option String := none

/-- The name of the action that a branch stands for: its annotation, or its only property. -/
def actionName? (branch : Schema) : Option String :=
  match branch.annotation? "action-name" with
  | some name => some name
  | none =>
    match branch.properties with
    | [(name, _)] => some (Naming.kebab name)
    | _ => none

namespace Variant

/-- The variant of a branch without an action, with its version or number in its name. -/
def ofBranch (base : String) (branch : Schema) (index : Nat) : Variant :=
  let version := branch.annotation? "min-ver"
  let suffix := (version.map Naming.versionSuffix).getD (toString index)
  { moduleName := base ++ "_" ++ suffix, body := some branch, version }

/-- The variant of an action. When the operation is given a name, only the action of that name has
one. -/
def ofAction? (base : String) (wanted version : Option String) (branch : Schema) :
    Option Variant := do
  let action ← actionName? branch
  let moduleName ←
    match wanted with
    | some name =>
      if Naming.moduleName name = Naming.moduleName action then some base else none
    | none => some (Naming.moduleName action)
  return {
    moduleName
    body := some branch
    version := (branch.annotation? "min-ver").or version
    action := some action }

/-- The variants of an operation with the given body in JSON. -/
def all (body : Option Schema) (base : String) (operationName version : Option String) :
    List Variant :=
  match body with
  | none => [{ moduleName := base, version }]
  | some schema =>
    let branches := schema.nonNullBranches
    if branches.length < 2 then [{ moduleName := base, body := some schema, version }]
    else if schema.annotation? "discriminator" = some "action" then
      branches.filterMap (ofAction? base operationName version)
    else branches.zipIdx.map fun (branch, index) => ofBranch base branch index

/-- The schema that the body of a variant carries and the property that holds it. The only property
of an action holds its arguments. -/
def payload? (variant : Variant) (leaf : String) : Option (Schema × Option String) := do
  let schema ← variant.body
  match variant.action, schema.properties with
  | some _, [(name, inner)] => return (inner, some name)
  | _, _ =>
    let found := Resource.locate schema leaf
    return (found.schema, found.key)

end Variant

end ServiceForge.Generation
