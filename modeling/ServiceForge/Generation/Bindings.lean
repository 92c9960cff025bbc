/-
This file binds the parameters of an operation. The parameters of the path stand
in the order of the path.
-/

import ServiceForge.Generation.Request
import ServiceForge.Lowering.Basic

namespace ServiceForge.Generation

open ServiceForge.Lowering (Binding Context Lower Scope lowerParameter)
open ServiceForge.OpenApi (Location Parameter PlacedOperation)

/-- The hole of a parameter in a path. -/
def hole (name : String) : String := "\x7b" ++ name ++ "\x7d"

/-- The place of a parameter in a path; a parameter that is not there comes first. -/
def place (path : String) (binding : Binding) : Nat :=
  ((Text.find? (hole binding.wireName) path).map (· + 1)).getD 0

/-- Sorts the parameters of a path by their places; others keep their order. -/
def inPathOrder (path : String) (bindings : List Binding) : List Binding :=
  bindings.mergeSort fun left right => decide (place path left ≤ place path right)

/-- What the parameters of an operation are named after: its resource and its last parameter. -/
def scope (request : OperationRequest) (placed : PlacedOperation) : Scope :=
  { singular := request.singular, terminal := Resource.terminalParameter? placed.path }

/-- Lowers the parameters of an operation in the given locations. -/
def lowerBindings (context : Context) (request : OperationRequest) (placed : PlacedOperation)
    (locations : List Location) : Lower (List Binding) :=
  (placed.parameters.filter (locations.contains ·.location)).mapM
    (lowerParameter context · (scope request placed))

end ServiceForge.Generation
