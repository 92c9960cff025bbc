/-
This file holds what is known while the schemas of one generated source are
lowered: the imports, the types declared so far with the schemas that they stand
for, and the types and components whose lowering has begun. A failure leaves the
state as it is, without what had begun.
-/

import ServiceForge.GenerationError
import ServiceForge.Lowering.Types
import ServiceForge.Naming
import ServiceForge.OpenApi.Spec.Equality
import ServiceForge.SortedSet

namespace ServiceForge.Lowering

open ServiceForge.OpenApi (Schema Spec)

/-- The document and the dialect for which schemas are lowered. -/
structure Context where
  spec : Spec
  dialect : Dialect

/-- A declared type with the schema that it stands for. -/
structure Declared where
  subtype : Subtype
  origin : Schema

/-- What a lowering knows: its imports, the types it has declared, and what it is inside of. -/
structure State where
  imports : List String := []
  declared : List Declared := []
  inProgress : List (String × Schema) := []
  visiting : List String := []

namespace State

/-- The declared types, in the order that they were completed in. -/
def subtypes (state : State) : List Subtype := state.declared.map Declared.subtype

/-- Imports a path. -/
def addImport (state : State) (path : String) : State :=
  { state with imports := SortedSet.insert path state.imports }

/-- The schema for which a name is in use. -/
def origin? (state : State) (name : String) : Option Schema :=
  (state.inProgress.lookup name).or
    ((state.declared.find? (·.subtype.name = name)).map Declared.origin)

/-- Whether the type with the given name is not complete. -/
def isInProgress (state : State) (name : String) : Bool :=
  (state.inProgress.lookup name).isSome

end State

/-- A computation that keeps the state when it fails. -/
abbrev Lower := ExceptT GenerationError (StateM State)

section Computations

variable {α : Type}

/-- Runs a computation between two changes of the state, also when it fails. -/
def within (enter leave : State → State) (action : Lower α) : Lower α :=
  ExceptT.mk do
    modify enter
    let result ← action.run
    modify leave
    return result

/-- Runs a computation and gives its failure as a value. -/
def attempt (action : Lower α) : Lower (Except GenerationError α) :=
  ExceptT.lift action.run

/-- Makes a result an action that leaves the state as it is. -/
def settle (result : Except GenerationError α) : Lower α := ExceptT.mk (return result)

end Computations

/-- The action that imports a path. -/
def addImport (path : String) : Lower Unit := modify (·.addImport path)

/-- Notes the imports of the given dialects. -/
def addImportIn (context : Context) (dialects : List Dialect) (path : String) : Lower Unit := do
  if dialects.contains context.dialect then addImport path

/-- The type of any JSON, with its import. -/
def freeJson : Lower ValueType := do
  addImport Import.json
  return .json

/-! ### Names -/

/-- Appends `suffix` to a name until it is not taken. Each step gives a longer name, so no more
steps are needed than names are taken. -/
def freshFrom (steps : Nat) (taken : List String) (suffix name : String) : String :=
  match steps with
  | 0 => name
  | steps + 1 =>
    if taken.contains name then freshFrom steps taken suffix (name ++ suffix) else name

/-- A name followed by a suffix as often as it takes to be new. -/
def fresh (taken : List String) (suffix name : String) : String :=
  freshFrom taken.length taken suffix name

/-- What a schema finds when it asks for a name. -/
inductive Claim where
  | new (name : String)
  | existing (name : String)
  | forward (name : String)

/-- The candidates for a name: the name itself and then the name with a number from two on. -/
def candidate (base : String) (index : Nat) : String :=
  if index = 0 then base else base ++ toString (index + 1)

/-- Tries candidates from an index on until one is free or stands for the schema. -/
def claimFrom (state : State) (base : String) (schema : Schema) (steps index : Nat) : Claim :=
  let name := candidate base index
  match steps, state.origin? name with
  | steps + 1, some origin =>
    if origin.equal schema then
      if state.isInProgress name then .forward name else .existing name
    else claimFrom state base schema steps (index + 1)
  | _, _ => .new name

/-- The name for a type that stands for a schema. The candidates are distinct, so one of them is
free once all names in use were tried. -/
def claim (state : State) (hint : String) (schema : Schema) : Claim :=
  claimFrom state (Naming.typeName hint) schema
    (state.inProgress.length + state.declared.length) 0

/-- Declares a type. -/
def declare (schema : Schema) (subtype : Subtype) : Lower Unit :=
  modify fun state => { state with declared := state.declared ++ [⟨subtype, schema⟩] }

/-- Enters the declaration of a type for a schema. -/
def beginType (name : String) (schema : Schema) (state : State) : State :=
  { state with inProgress := (name, schema) :: state.inProgress }

/-- Leaves the declaration of a type. -/
def endType (state : State) : State := { state with inProgress := state.inProgress.tail }

/-- Enters a component. -/
def beginComponent (name : String) (state : State) : State :=
  { state with visiting := name :: state.visiting }

/-- Leaves a component. -/
def endComponent (name : String) (state : State) : State :=
  { state with visiting := state.visiting.erase name }

end ServiceForge.Lowering
